import HeapTelemetry.Proofs.Storage.SessionFiles

/-! Names of sessions. Any two sessions that a registry issued have keys and files of their
own, whatever their owners are called, and a file lies three plain components below the
root. -/

namespace HeapTelemetry
open Step

/-! ## Components -/

/-- One level of a path: no empty name, none that leads elsewhere, no separator. -/
structure PlainComponent (name : String) : Prop where
  filled : name ≠ ""
  current : name ≠ "."
  parent : name ≠ ".."
  separators : ∀ c ∈ name.toList, c ≠ '/' ∧ c ≠ '\\'

namespace SessionFiles

/-- The characters that a component keeps. -/
def keepsChar (c : Char) : Bool := c.isAlphanum || c = '-' || c = '_' || c = '.'

theorem ne_separator_of_keepsChar {c : Char} (h : keepsChar c = true) : c ≠ '/' ∧ c ≠ '\\' :=
  ⟨fun hc => absurd (hc ▸ h) (by decide), fun hc => absurd (hc ▸ h) (by decide)⟩

/-- A component is as long as its name and has only characters that are kept, or underscores
in their place. -/
theorem component_chars (name : String) : component name ≠ "." ∧ component name ≠ ".." ∧
    (component name).toList.length = name.toList.length ∧
      ∀ c ∈ (component name).toList, keepsChar c = true := by
  obtain ⟨cleaned, hcleaned⟩ : ∃ cleaned : String,
      cleaned = name.map fun c => if keepsChar c then c else '_' := ⟨_, rfl⟩
  have hcomponent : component name =
      if cleaned = "." ∨ cleaned = ".." then cleaned.map fun _ => '_' else cleaned := by
    rw [hcleaned, component]
    simp [keepsChar]
  have hlength : cleaned.toList.length = name.toList.length := by
    rw [hcleaned, String.toList_map, List.length_map]
  rw [hcomponent]
  by_cases hdots : cleaned = "." ∨ cleaned = ".."
  · rw [if_pos hdots]
    have hall : ∀ c ∈ (cleaned.map fun _ => '_').toList, c = '_' := by
      intro c hc
      rw [String.toList_map] at hc
      obtain ⟨_, _, rfl⟩ := List.mem_map.1 hc
      rfl
    refine ⟨fun h => ?_, fun h => ?_, ?_, fun c hc => by rw [hall c hc]; decide⟩
    · rw [h] at hall
      exact absurd (hall '.' (by decide)) (by decide)
    · rw [h] at hall
      exact absurd (hall '.' (by decide)) (by decide)
    · rw [String.toList_map, List.length_map, hlength]
  · rw [if_neg hdots]
    refine ⟨fun h => hdots (Or.inl h), fun h => hdots (Or.inr h), hlength, fun c hc => ?_⟩
    rw [hcleaned, String.toList_map] at hc
    obtain ⟨x, _, rfl⟩ := List.mem_map.1 hc
    split
    · assumption
    · decide

theorem plain_component {name : String} (h : name ≠ "") : PlainComponent (component name) := by
  obtain ⟨hone, htwo, hlength, hkeeps⟩ := component_chars name
  refine ⟨fun hempty => h ?_, hone, htwo, fun c hc => ne_separator_of_keepsChar (hkeeps c hc)⟩
  rw [hempty] at hlength
  exact String.toList_inj.1 (List.eq_nil_of_length_eq_zero hlength.symm)

theorem keepsChar_number (n : Int) : ∀ c ∈ (toString n).toList, keepsChar c = true := by
  have hdigits : ∀ k : Nat, ∀ c ∈ (toString k).toList, keepsChar c = true := by
    intro k c hc
    have hdigit := (Text.digits_spec k).1 c hc
    simp [keepsChar, Char.isAlphanum, hdigit]
  cases n with
  | ofNat k => exact hdigits k
  | negSucc k =>
    have hminus : toString (Int.negSucc k) = "-" ++ toString (k + 1) := rfl
    intro c hc
    rw [hminus, String.toList_append, List.mem_append] at hc
    rcases hc with hc | hc
    · obtain rfl : c = '-' := by simpa using hc
      decide
    · exact hdigits (k + 1) c hc

/-- The last component of a path is the number of its session. -/
theorem plain_file (n : Int) : PlainComponent (toString n ++ ".ndjson") := by
  have hlength : ∀ s : String, s.toList.length < 7 → toString n ++ ".ndjson" ≠ s := by
    rintro s hs rfl
    rw [String.toList_append, List.length_append] at hs
    have hseven : ".ndjson".toList.length = 7 := by decide
    omega
  refine ⟨hlength _ (by decide), hlength _ (by decide), hlength _ (by decide), fun c hc => ?_⟩
  rw [String.toList_append, List.mem_append] at hc
  rcases hc with hc | hc
  · exact ne_separator_of_keepsChar (keepsChar_number n c hc)
  · have hall : ".ndjson".toList.all keepsChar = true := by decide +kernel
    exact ne_separator_of_keepsChar (List.all_eq_true.1 hall c hc)

end SessionFiles

theorem ne_empty_of_validate {i : Instance} (h : i.validate = .ok ()) :
    i.service ≠ "" ∧ i.name ≠ "" := by
  have hname : ∀ field name, Instance.checkName field name = .ok () → name ≠ "" := by
    rintro field _ hok rfl
    simp [Instance.checkName] at hok
  rw [Instance.validate] at h
  cases hservice : Instance.checkName "service_name" i.service with
  | error e =>
    rw [hservice] at h
    cases h
  | ok u =>
    rw [hservice] at h
    exact ⟨hname _ _ hservice, hname _ _ h⟩

/-- The file of a session lies three plain components below the root. -/
theorem SessionFiles.path_components (f : SessionFiles) {s : Session}
    (h : s.owner.validate = .ok ()) : ∃ a b c, f.path s = f.root ++ [a, b, c] ∧
      PlainComponent a ∧ PlainComponent b ∧ PlainComponent c := by
  obtain ⟨hservice, hname⟩ := ne_empty_of_validate h
  exact ⟨_, _, _, List.append_assoc _ _ _, plain_component hservice, plain_component hname,
    plain_file s.id⟩

/-! ## Runs of a registry -/

namespace Registry

/-- What is asked of a registry; it may be closed and opened again, and its clock set. -/
inductive Request
  | start (owner : Instance)
  | stop (s : Session)
  | reopen
  | setClock (time : Int64)

def happen (r : Registry) : Request → Registry
  | .start owner => (run (startSession owner) r).2
  | .stop s => (run (stopSession s) r).2
  | .reopen => r.reopen.toOption.getD r
  | .setClock time => r.setClock time

/-- Every session was issued with a number of its own, to an owner that was checked. -/
structure Checked (r : Registry) : Prop where
  numbered : r.Numbered
  owners : ∀ s ∈ r.issued, s.owner.validate = .ok ()

theorem checked_empty : Checked empty :=
  ⟨numbered_empty, fun _ hs => absurd hs List.not_mem_nil⟩

theorem Checked.started {r : Registry} (h : r.Checked) {owner : Instance}
    (hvalid : owner.validate = .ok ()) : (r.started owner).Checked := by
  refine ⟨h.numbered.started owner, fun s hs => ?_⟩
  rw [issued_started] at hs
  rcases List.mem_append.1 hs with hs | hs
  · exact h.owners s hs
  · rw [List.mem_singleton.1 hs]
    exact hvalid

theorem Checked.congr {r r' : Registry} (h : r.Checked) (hnumbered : r'.Numbered)
    (hissued : r'.issued = r.issued) : r'.Checked :=
  ⟨hnumbered, hissued ▸ h.owners⟩

theorem Checked.happen {r : Registry} (h : r.Checked) (request : Request) :
    (r.happen request).Checked := by
  cases request with
  | start owner =>
    rw [Registry.happen]
    cases hvalid : owner.validate with
    | error e =>
      rw [run_startSession_invalid r hvalid]
      exact h
    | ok u =>
      rw [run_startSession r hvalid]
      exact h.started hvalid
  | stop s =>
    obtain ⟨hissued, hlast, hversion⟩ := run_stopSession r s
    exact h.congr (h.numbered.congr hissued hlast hversion) hissued
  | reopen =>
    rw [Registry.happen, reopen_numbered h.numbered]
    exact h
  | setClock time => exact h.congr (h.numbered.congr rfl rfl rfl) rfl

def runAll (requests : List Request) : Registry := requests.foldl happen empty

theorem checked_runAll (requests : List Request) : (runAll requests).Checked := by
  have hall : ∀ r : Registry, r.Checked → (requests.foldl happen r).Checked := by
    induction requests with
    | nil => exact fun r h => h
    | cons request requests ih => exact fun r h => ih _ (h.happen request)
  exact hall empty checked_empty

/-- Whatever two sessions of a registry are called, their numbers, keys and files differ. -/
theorem Checked.apart {r : Registry} (h : r.Checked) {s t : Session} (hs : s ∈ r.issued)
    (ht : t ∈ r.issued) (hne : s ≠ t) (f : SessionFiles) :
    s.id ≠ t.id ∧ s.key ≠ t.key ∧ f.path s ≠ f.path t := by
  have hid : s.id ≠ t.id := fun heq =>
    hne (List.inj_on_of_nodup_map h.numbered.distinct hs ht heq)
  exact ⟨hid, fun heq => hid (Session.id_eq_of_key_eq heq),
    fun heq => hid (SessionFiles.id_eq_of_path_eq heq)⟩

end Registry
end HeapTelemetry
