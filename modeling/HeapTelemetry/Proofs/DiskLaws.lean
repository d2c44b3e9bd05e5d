import HeapTelemetry.Disk
import HeapTelemetry.Proofs.Steps

/-! What the steps of a disk do to the nodes at each path. `Keeps` is the frame
of a step: whatever the device answers, no path changes but those named, and
directories stay what they are. The other laws say what a step leaves at the
paths it works on. -/

namespace HeapTelemetry.Disk
open Step
variable {α β : Type}

/-- Every path stands once. -/
def Distinct (d : Disk) : Prop := (d.nodes.map Prod.fst).Nodup

/-! ## Nodes at paths -/

theorem find?_root (d : Disk) : d.find? [] = some .directory := if_pos rfl

theorem find?_of_ne {d : Disk} {p : Path} (hp : p ≠ []) :
    d.find? p = (d.nodes.find? (·.1 = p)).map Prod.snd := if_neg hp

theorem find?_nodes_eq_none {nodes : List (Path × Node)} {p : Path} :
    nodes.find? (·.1 = p) = none ↔ p ∉ nodes.map Prod.fst := by
  simp only [List.find?_eq_none, List.mem_map, decide_eq_true_eq]
  constructor
  · rintro h ⟨e, he, hp⟩
    exact h e he hp
  · intro h e he hp
    exact h ⟨e, he, hp⟩

theorem find?_replaced {nodes : List (Path × Node)} {p : Path} (n : Node) (q : Path)
    (hm : p ∈ nodes.map Prod.fst) :
    ((nodes.map fun e => if e.1 = p then (p, n) else e).find? (·.1 = q)).map Prod.snd =
      if q = p then some n else (nodes.find? (·.1 = q)).map Prod.snd := by
  induction nodes with
  | nil => simp at hm
  | cons e rest ih =>
    rw [List.map_cons, List.find?_cons, List.find?_cons]
    by_cases he : e.1 = p
    · by_cases hq : q = p
      · simp [he, hq]
      · have hqe : p ≠ q := Ne.symm hq
        simp only [he, ↓reduceIte, hqe, decide_false, hq]
        by_cases hr : p ∈ rest.map Prod.fst
        · rw [ih hr, if_neg hq]
        · rw [List.map_congr_left (g := id), List.map_id]
          intro x hx
          rw [if_neg]
          · rfl
          · rintro rfl
            exact hr (List.mem_map_of_mem hx)
    · have hr : p ∈ rest.map Prod.fst := by
        rcases List.mem_cons.1 (List.map_cons ▸ hm) with h | h
        · exact absurd h.symm he
        · exact h
      simp only [he, ↓reduceIte]
      by_cases hq : e.1 = q
      · have hqp : q ≠ p := hq ▸ he
        simp [hq, hqp]
      · simp only [hq, decide_false, ih hr]

theorem find?_put (d : Disk) {p : Path} (hp : p ≠ []) (n : Node) (q : Path) :
    (d.put p n).find? q = if q = p then some n else d.find? q := by
  by_cases hq : q = []
  · subst hq
    rw [find?_root, find?_root, if_neg (Ne.symm hp)]
  rw [find?_of_ne hq, find?_of_ne hq, put]
  split
  · rename_i hany
    apply find?_replaced
    obtain ⟨e, he, hep⟩ := List.any_eq_true.1 hany
    exact List.mem_map.2 ⟨e, he, by simpa using hep⟩
  · rename_i hany
    have hnone : p ∉ d.nodes.map Prod.fst := by
      intro hm
      obtain ⟨e, he, hep⟩ := List.mem_map.1 hm
      exact hany (List.any_eq_true.2 ⟨e, he, by simp [hep]⟩)
    rw [List.find?_append]
    by_cases h : q = p
    · subst h
      simp [find?_nodes_eq_none.2 hnone]
    · have hne : p ≠ q := Ne.symm h
      simp [hne, h]

theorem find?_drop (d : Disk) {p : Path} (hp : p ≠ []) (q : Path) :
    (d.drop p).find? q = if q = p then none else d.find? q := by
  by_cases hq : q = []
  · subst hq
    rw [find?_root, find?_root, if_neg (Ne.symm hp)]
  rw [find?_of_ne hq, find?_of_ne hq, drop, List.find?_filter]
  by_cases h : q = p
  · subst h
    simp
  · rw [if_neg h]
    congr 2
    funext e
    by_cases he : e.1 = q
    · simp [he, h]
    · simp [he]

theorem distinct_put {d : Disk} (hd : d.Distinct) (p : Path) (n : Node) :
    (d.put p n).Distinct := by
  rw [Distinct, put]
  split
  · have hmap : ((d.nodes.map fun e => if e.1 = p then (p, n) else e).map Prod.fst) =
        d.nodes.map Prod.fst := by
      rw [List.map_map]
      apply List.map_congr_left
      intro e _
      show (if e.1 = p then (p, n) else e).1 = e.1
      split
      · rename_i he
        exact he.symm
      · rfl
    exact hmap ▸ hd
  · rename_i hany
    rw [List.map_append, List.nodup_append]
    refine ⟨hd, by simp, ?_⟩
    rintro x hx y hy rfl
    obtain ⟨e, he, rfl⟩ := List.mem_map.1 hx
    have hep : e.1 = p := by simpa using hy
    exact hany (List.any_eq_true.2 ⟨e, he, by simp [hep]⟩)

theorem distinct_drop {d : Disk} (hd : d.Distinct) (p : Path) : (d.drop p).Distinct :=
  hd.sublist (List.filter_sublist.map _)

theorem dropLast_eq_iff {p dir : Path} {name : String} (h : p.getLast? = some name) :
    p.dropLast = dir ↔ p = dir ++ [name] := by
  have hp : p = p.dropLast ++ [name] := by
    rw [List.getLast?_eq_some_iff] at h
    obtain ⟨front, rfl⟩ := h
    simp
  constructor
  · rintro rfl
    exact hp
  · rintro rfl
    simp

/-- The names in a directory are those at which it has a node. -/
theorem mem_list_iff {d : Disk} {dir : Path} {name : String} :
    name ∈ d.list dir ↔ d.find? (dir ++ [name]) ≠ none := by
  rw [find?_of_ne (by simp), ne_eq, Option.map_eq_none_iff, find?_nodes_eq_none,
    Decidable.not_not, list, List.mem_filterMap, List.mem_map]
  constructor
  · rintro ⟨e, he, h⟩
    split at h
    · rename_i hdir
      exact ⟨e, he, (dropLast_eq_iff h).1 hdir⟩
    · cases h
  · rintro ⟨e, he, h⟩
    exact ⟨e, he, by rw [h]; simp⟩

theorem nodup_list {d : Disk} (hd : d.Distinct) (dir : Path) : (d.list dir).Nodup := by
  rw [Distinct, List.Nodup, List.pairwise_map] at hd
  refine List.Pairwise.filterMap _ ?_ hd
  intro a b hab x hx y hy
  rintro rfl
  split at hx
  · rename_i ha
    split at hy
    · rename_i hb
      exact hab (((dropLast_eq_iff hx).1 ha).trans ((dropLast_eq_iff hy).1 hb).symm)
    · cases hy
  · cases hx

/-! ## What a step leaves alone -/

theorem isDirectory_eq_false {d : Disk} {p : Path} :
    d.isDirectory p = false ↔ d.find? p ≠ some .directory := by
  simp [isDirectory]

theorem not_directory_of_file {d : Disk} {p : Path} {number : Nat} {content : Bytes}
    (h : d.find? p = some (.file number content)) : d.isDirectory p = false :=
  isDirectory_eq_false.2 (by rw [h]; simp)

theorem ne_root_of_not_directory {d : Disk} {p : Path} (h : d.isDirectory p = false) : p ≠ [] := by
  rintro rfl
  exact isDirectory_eq_false.1 h d.find?_root

/-- From one disk to the other only files at some of the paths have changed. -/
structure Kept (ps : List Path) (d d' : Disk) : Prop where
  distinct : d.Distinct → d'.Distinct
  granting : d.verdicts = [] → d'.verdicts = []
  directories : ∀ q, d'.isDirectory q = d.isDirectory q
  others : ∀ q, q ∉ ps → d'.find? q = d.find? q

theorem Kept.refl (ps : List Path) (d : Disk) : Kept ps d d :=
  ⟨id, id, fun _ => rfl, fun _ _ => rfl⟩

theorem Kept.trans {ps : List Path} {a b c : Disk} (hab : Kept ps a b) (hbc : Kept ps b c) :
    Kept ps a c where
  distinct h := hbc.distinct (hab.distinct h)
  granting h := hbc.granting (hab.granting h)
  directories q := (hbc.directories q).trans (hab.directories q)
  others q hq := (hbc.others q hq).trans (hab.others q hq)

theorem Kept.mono {ps qs : List Path} {d d' : Disk} (h : Kept ps d d') (hs : ∀ p ∈ ps, p ∈ qs) :
    Kept qs d d' where
  distinct := h.distinct
  granting := h.granting
  directories := h.directories
  others q hq := h.others q fun hp => hq (hs q hp)

/-- Counting a file or an answer changes no node. -/
theorem kept_of_nodes {d d' : Disk} (hn : d'.nodes = d.nodes)
    (hv : d.verdicts = [] → d'.verdicts = []) : Kept [] d d' := by
  have hf : ∀ q, d'.find? q = d.find? q := by
    intro q
    rw [find?, find?, hn]
  refine ⟨fun h => ?_, hv, fun q => ?_, fun q _ => hf q⟩
  · rw [Distinct, hn]
    exact h
  · rw [isDirectory, isDirectory, hf]

theorem kept_put {d : Disk} {p : Path} (hp : d.isDirectory p = false) (number : Nat)
    (content : Bytes) : Kept [p] d (d.put p (.file number content)) where
  distinct h := distinct_put h p _
  granting h := h
  directories q := by
    rw [isDirectory, isDirectory, find?_put d (ne_root_of_not_directory hp)]
    split
    · rename_i hq
      subst hq
      simpa [isDirectory] using hp
    · rfl
  others q hq := by
    rw [find?_put d (ne_root_of_not_directory hp), if_neg (by simpa using hq)]

theorem kept_drop {d : Disk} {p : Path} (hp : d.isDirectory p = false) :
    Kept [p] d (d.drop p) where
  distinct h := distinct_drop h p
  granting h := h
  directories q := by
    rw [isDirectory, isDirectory, find?_drop d (ne_root_of_not_directory hp)]
    split
    · rename_i hq
      subst hq
      simpa [isDirectory] using hp
    · rfl
  others q hq := by
    rw [find?_drop d (ne_root_of_not_directory hp), if_neg (by simpa using hq)]

theorem kept_change {d : Disk} (h : Handle) (f : Bytes → Bytes) :
    Kept [h.path] d (d.change h f) := by
  rw [change]
  split
  · rename_i number content hf
    split
    · exact kept_put (not_directory_of_file hf) number (f content)
    · exact Kept.refl _ d
  · exact Kept.refl _ d

/-- A step that changes nothing but files at these paths, however it goes. -/
def Keeps (ps : List Path) (x : Step Disk α) : Prop := ∀ d, Kept ps d (run x d).2

theorem keeps_pure (ps : List Path) (a : α) : Keeps ps (pure a : Step Disk α) :=
  fun d => Kept.refl ps d

theorem Keeps.bind {ps : List Path} {x : Step Disk α} {f : α → Step Disk β} (hx : Keeps ps x)
    (hf : ∀ a, Keeps ps (f a)) : Keeps ps (x >>= f) := by
  intro d
  have hd := hx d
  rw [run_bind]
  split
  · rename_i a t h
    rw [h] at hd
    exact hd.trans (hf a t)
  · rename_i e t h
    rw [h] at hd
    exact hd

theorem keeps_get_bind {ps : List Path} {f : Disk → Step Disk β}
    (hf : ∀ d, Kept ps d (run (f d) d).2) : Keeps ps (get >>= f) := by
  intro d
  rw [run_bind_ok (run_get d)]
  exact hf d

theorem Keeps.mono {ps qs : List Path} {x : Step Disk α} (hx : Keeps ps x)
    (hs : ∀ p ∈ ps, p ∈ qs) : Keeps qs x := fun d => (hx d).mono hs

theorem keeps_ofExcept (ps : List Path) (r : Except Error α) :
    Keeps ps (Step.ofExcept r : Step Disk α) := by
  intro d
  rw [run_ofExcept]
  exact Kept.refl ps d

/-- A step that, if it fails, has changed nothing but files at these paths. -/
def KeepsIfFailing (ps : List Path) (x : Step Disk α) : Prop :=
  ∀ d e, (run x d).1 = .error e → Kept ps d (run x d).2

theorem KeepsIfFailing.bind {ps : List Path} {x : Step Disk α} {f : α → Step Disk β}
    (hx : Keeps ps x) (hf : ∀ a, KeepsIfFailing ps (f a)) : KeepsIfFailing ps (x >>= f) := by
  intro d e he
  have hd := hx d
  rw [run_bind] at he ⊢
  split at he
  · rename_i a t h
    rw [h] at hd
    exact hd.trans (hf a t e he)
  · rename_i e' t h
    rw [h] at hd
    exact hd

/-! ## Answers of the device -/

/-- The disk after its next step was answered. -/
def answered (d : Disk) : Disk := { d with verdicts := d.verdicts.tail }

@[simp] theorem find?_answered (d : Disk) (p : Path) : d.answered.find? p = d.find? p := rfl

@[simp] theorem isDirectory_answered (d : Disk) (p : Path) :
    d.answered.isDirectory p = d.isDirectory p := rfl

theorem answered_of_granting {d : Disk} (h : d.verdicts = []) : d.answered = d := by
  cases d
  cases h
  rfl

theorem kept_answered (ps : List Path) (d : Disk) : Kept ps d d.answered := by
  have hv : d.verdicts = [] → d.answered.verdicts = [] := by
    intro hv
    rw [answered_of_granting hv]
    exact hv
  have hnodes : d.answered.nodes = d.nodes := rfl
  exact (kept_of_nodes hnodes hv).mono (by simp)

theorem run_verdict (d : Disk) : run verdict d = (.ok (d.verdicts.headD .grant), d.answered) := by
  obtain ⟨nodes, nextNumber, verdicts⟩ := d
  cases verdicts <;> rfl

theorem run_granted (d : Disk) : run granted d =
    (if d.verdicts.headD .grant = .refuse then .error .io else .ok ⟨⟩, d.answered) := by
  rw [granted, run_bind_ok (run_verdict d)]
  split <;> rfl

theorem run_granted_of_granting {d : Disk} (h : d.verdicts = []) :
    run granted d = (.ok ⟨⟩, d) := by
  rw [run_granted, answered_of_granting h, h]
  rfl

theorem keeps_granted (ps : List Path) : Keeps ps granted := by
  intro d
  rw [run_granted]
  exact kept_answered ps d

theorem run_sync_of_granting {d : Disk} (h : d.verdicts = []) : run sync d = (.ok ⟨⟩, d) :=
  run_granted_of_granting h

theorem keeps_sync (ps : List Path) : Keeps ps sync := keeps_granted ps

/-- The same disk with these answers to come. -/
def facing (vs : List Verdict) (d : Disk) : Disk := { d with verdicts := vs }

@[simp] theorem find?_facing (vs : List Verdict) (d : Disk) (p : Path) :
    (d.facing vs).find? p = d.find? p := rfl

theorem facing_of_granting {d : Disk} (h : d.verdicts = []) : d.facing [] = d := by
  cases d
  cases h
  rfl

/-! ## Steps on files -/

/-- Writing a whole file fails without a trace, or leaves a file with the bytes
that found room; it succeeds only if that is all of them. -/
theorem writeFile_cases (p : Path) (bytes : Bytes) (d : Disk) :
    (run (writeFile p bytes) d = (.error .io, d.answered)) ∨
    ∃ r number next written, d.isDirectory p = false ∧ (r = .ok ⟨⟩ → written = bytes) ∧
      run (writeFile p bytes) d =
        (r, { d.answered with nextNumber := next }.put p (.file number written)) := by
  rw [writeFile, run_bind_ok (run_verdict d), run_bind_ok (run_get _)]
  simp only
  split
  · exact Or.inl rfl
  · rename_i hc
    have hp : d.isDirectory p = false := by
      cases h : d.isDirectory p with
      | false => rfl
      | true => exact absurd (Or.inr (Or.inl h)) hc
    right
    split
    · rename_i n _
      by_cases hn : n < bytes.length
      · rw [run_bind_ok (run_set _ _), if_pos hn]
        exact ⟨.error .io, _, _, bytes.take n, hp, by simp, rfl⟩
      · rw [run_bind_ok (run_set _ _), if_neg hn]
        exact ⟨.ok ⟨⟩, _, _, bytes.take n, hp, fun _ => List.take_of_length_le (by omega), rfl⟩
    · exact ⟨.ok ⟨⟩, _, _, bytes, hp, fun _ => rfl, rfl⟩

theorem kept_counted {d : Disk} (next : Nat) : Kept [] d { d with nextNumber := next } :=
  kept_of_nodes rfl id

theorem keeps_writeFile (p : Path) (bytes : Bytes) : Keeps [p] (writeFile p bytes) := by
  intro d
  rcases writeFile_cases p bytes d with h | ⟨r, number, next, written, hp, _, h⟩
  · rw [h]
    exact kept_answered _ d
  · rw [h]
    have hcounted : Kept [p] d { d.answered with nextNumber := next } :=
      (kept_answered _ d).trans ((kept_counted next).mono (by simp))
    have hp' : Disk.isDirectory { d.answered with nextNumber := next } p = false := hp
    exact hcounted.trans (kept_put hp' number written)

theorem find?_of_writeFile {p : Path} {bytes : Bytes} {d d' : Disk}
    (h : run (writeFile p bytes) d = (.ok ⟨⟩, d')) :
    ∃ number, d'.find? p = some (.file number bytes) := by
  rcases writeFile_cases p bytes d with he | ⟨r, number, next, written, hp, hw, hr⟩
  · rw [he] at h
    cases h
  · rw [hr] at h
    cases h
    refine ⟨number, ?_⟩
    rw [find?_put _ (ne_root_of_not_directory hp), if_pos rfl, hw rfl]

theorem keeps_openFile (p : Path) : Keeps [p] (openFile p) := by
  rw [openFile]
  refine (keeps_granted _).bind fun _ => keeps_get_bind fun d => ?_
  split
  · exact Kept.refl _ d
  · exact Kept.refl _ d
  · rename_i hf
    split
    · exact (kept_put (isDirectory_eq_false.2 (by simp [hf])) d.nextNumber []).trans
        ((kept_counted _).mono (by simp))
    · exact Kept.refl _ d

/-- Opening a file that is there gives a handle on it and changes nothing. -/
theorem run_openFile {p : Path} {d : Disk} {number : Nat} {content : Bytes}
    (hf : d.find? p = some (.file number content)) :
    run (openFile p) d = (.error .io, d.answered) ∨
      run (openFile p) d = (.ok ⟨p, number⟩, d.answered) := by
  rw [openFile, run_bind, run_granted]
  split
  · rename_i h
    split at h
    · cases h
    · cases h
      right
      rw [run_bind_ok (run_get _), find?_answered, hf]
      rfl
  · rename_i h
    split at h
    · cases h
      exact Or.inl rfl
    · cases h

theorem run_openFile_of_granting {p : Path} {d : Disk} {number : Nat} {content : Bytes}
    (hv : d.verdicts = []) (hf : d.find? p = some (.file number content)) :
    run (openFile p) d = (.ok ⟨p, number⟩, d) := by
  rw [openFile, run_bind_ok (run_granted_of_granting hv), run_bind_ok (run_get _), hf]
  rfl

/-- Opening a file that is missing makes it, if its directory is there. -/
theorem run_openFile_missing {p : Path} {d : Disk} (hv : d.verdicts = [])
    (hf : d.find? p = none) (hdir : d.isDirectory p.dropLast = true) :
    run (openFile p) d = (.ok ⟨p, d.nextNumber⟩,
      { d.put p (.file d.nextNumber []) with nextNumber := d.nextNumber + 1 }) := by
  rw [openFile, run_bind_ok (run_granted_of_granting hv), run_bind_ok (run_get _), hf]
  simp only [hdir, ↓reduceIte]
  rfl

/-- It is made with nothing in it, or stays missing. -/
theorem openFile_cases {p : Path} {d : Disk} (hf : d.find? p = none) :
    run (openFile p) d = (.error .io, d.answered) ∨ run (openFile p) d = (.ok ⟨p, d.nextNumber⟩,
      { d.answered.put p (.file d.nextNumber []) with nextNumber := d.nextNumber + 1 }) := by
  rw [openFile, run_bind, run_granted]
  split
  · rename_i h
    split at h
    · cases h
    · cases h
      rw [run_bind_ok (run_get _), find?_answered, hf]
      simp only
      split
      · exact Or.inr rfl
      · exact Or.inl rfl
  · rename_i h
    split at h
    · cases h
      exact Or.inl rfl
    · cases h

theorem rename_cases (old new : Path) (d : Disk) :
    (run (rename old new) d = (.error .io, d.answered)) ∨
    ∃ number content, d.find? old = some (.file number content) ∧ d.isDirectory new = false ∧
      run (rename old new) d =
        (.ok ⟨⟩, (d.answered.drop old).put new (.file number content)) := by
  rw [rename, run_bind, run_granted]
  split
  · rename_i h
    split at h
    · cases h
    · cases h
      rw [run_bind_ok (run_get _), find?_answered]
      split
      · rename_i number content hf
        by_cases hc : d.answered.isDirectory new = true ∨ (!d.answered.isDirectory new.dropLast) = true
        · rw [if_pos hc]
          exact Or.inl rfl
        · rw [if_neg hc]
          refine Or.inr ⟨number, content, hf, ?_, rfl⟩
          rw [← isDirectory_answered]
          cases hn : d.answered.isDirectory new with
          | false => rfl
          | true => exact absurd (Or.inl hn) hc
      · exact Or.inl rfl
  · rename_i h
    split at h
    · cases h
      exact Or.inl rfl
    · cases h

theorem keeps_rename (old new : Path) : Keeps [old, new] (rename old new) := by
  intro d
  rcases rename_cases old new d with h | ⟨number, content, hold, hnew, h⟩
  · rw [h]
    exact kept_answered _ d
  · rw [h]
    have hdrop : Kept [old] d.answered (d.answered.drop old) :=
      kept_drop (not_directory_of_file hold)
    have hput : Kept [new] (d.answered.drop old) _ :=
      kept_put (by rw [hdrop.directories]; exact hnew) number content
    exact ((kept_answered _ d).trans (hdrop.mono (by simp))).trans (hput.mono (by simp))

theorem rename_ifFailing (ps : List Path) (old new : Path) :
    KeepsIfFailing ps (rename old new) := by
  intro d e he
  rcases rename_cases old new d with h | ⟨number, content, _, _, h⟩
  · rw [h]
    exact kept_answered ps d
  · rw [h] at he
    cases he

/-- The file has its new name, and the old one no more. -/
theorem find?_of_rename {old new : Path} {d d' : Disk} (hne : old ≠ new)
    (h : run (rename old new) d = (.ok ⟨⟩, d')) :
    d'.find? new = d.find? old ∧ d'.find? old = none := by
  rcases rename_cases old new d with he | ⟨number, content, hold, hnew, hr⟩
  · rw [he] at h
    cases h
  · rw [hr] at h
    cases h
    have hroot : old ≠ [] := ne_root_of_not_directory (not_directory_of_file hold)
    have hput := find?_put (d.answered.drop old) (ne_root_of_not_directory hnew)
      (.file number content)
    constructor
    · rw [hput, if_pos rfl, hold]
    · rw [hput, if_neg hne, find?_drop _ hroot, if_pos rfl]

theorem run_remove_of_granting {p : Path} {d : Disk} {number : Nat} {content : Bytes}
    (hv : d.verdicts = []) (hf : d.find? p = some (.file number content)) :
    run (remove p) d = (.ok ⟨⟩, d.drop p) := by
  rw [remove, run_bind_ok (run_granted_of_granting hv), run_bind_ok (run_get _), hf]
  rfl

theorem run_append_of_granting {h : Handle} {bytes : Bytes} {d : Disk} (hv : d.verdicts = []) :
    run (append h bytes) d = (.ok ⟨⟩, d.change h (· ++ bytes)) := by
  rw [append, run_bind_ok (run_verdict d), answered_of_granting hv, hv]
  rfl

/-- An opened file is open under its path, with what the path had before. -/
theorem find?_of_openFile {p : Path} {d d' : Disk} {h : Handle}
    (hrun : run (openFile p) d = (.ok h, d')) :
    h.path = p ∧ d'.find? p = some (.file h.number ((d.content? p).getD [])) := by
  cases hf : d.find? p with
  | none =>
    have hroot : p ≠ [] := by
      rintro rfl
      rw [find?_root] at hf
      cases hf
    rcases openFile_cases hf with he | hok
    · rw [he] at hrun
      cases hrun
    · rw [hok] at hrun
      cases hrun
      have hput := d.answered.find?_put hroot (.file d.nextNumber []) p
      rw [if_pos rfl] at hput
      refine ⟨rfl, ?_⟩
      rw [content?, hf]
      exact hput
  | some node =>
    cases node with
    | directory =>
      rw [openFile, run_bind, run_granted] at hrun
      split at hrun
      · rename_i hgranted
        split at hgranted
        · cases hgranted
        · cases hgranted
          rw [run_bind_ok (run_get _), find?_answered, hf] at hrun
          cases hrun
      · cases hrun
    | file number content =>
      rcases run_openFile hf with he | hok
      · rw [he] at hrun
        cases hrun
      · rw [hok] at hrun
        cases hrun
        refine ⟨rfl, ?_⟩
        rw [content?, hf, find?_answered, hf]
        rfl

theorem run_truncate (h : Handle) (length : Nat) (d : Disk) :
    run (truncate h length) d = if d.verdicts.headD .grant = .refuse then (.error .io, d.answered)
      else (.ok ⟨⟩, d.answered.change h (·.take length)) := by
  rw [truncate, run_bind, run_granted]
  by_cases hv : d.verdicts.headD .grant = .refuse
  · rw [if_pos hv, if_pos hv]
  · rw [if_neg hv, if_neg hv]
    rfl

theorem run_read {p : Path} {d : Disk} {number : Nat} {content : Bytes}
    (hf : d.find? p = some (.file number content)) : run (read p) d = (.ok content, d) := by
  rw [read, run_bind_ok (run_get d), content?, hf]
  rfl

/-- A change of an open file that still has its name. -/
theorem find?_change {d : Disk} {h : Handle} {content : Bytes}
    (hf : d.find? h.path = some (.file h.number content)) (f : Bytes → Bytes) :
    (d.change h f).find? h.path = some (.file h.number (f content)) := by
  have hroot : h.path ≠ [] := ne_root_of_not_directory (not_directory_of_file hf)
  simp only [change, hf, ↓reduceIte, find?_put d hroot]

/-- A write at the end of a file adds as many of its bytes as find room. It succeeds only if
that is all of them, and it does where the device grants it. -/
theorem append_cases {h : Handle} {content : Bytes} {d : Disk}
    (hf : d.find? h.path = some (.file h.number content)) (bytes : Bytes) :
    ∃ r n d', run (append h bytes) d = (r, d') ∧
      d'.find? h.path = some (.file h.number (content ++ bytes.take n)) ∧
      (r = .ok ⟨⟩ → n = bytes.length) ∧ (d.verdicts = [] → r = .ok ⟨⟩ ∧ d'.verdicts = []) := by
  have hfile : d.answered.find? h.path = some (.file h.number content) := hf
  rw [append, run_bind_ok (run_verdict d)]
  cases hv : d.verdicts.headD .grant with
  | grant =>
    refine ⟨.ok ⟨⟩, bytes.length, _, run_modify _ _, ?_, fun _ => rfl, fun hnone => ⟨rfl, ?_⟩⟩
    · rw [find?_change hfile, List.take_length]
    · exact (kept_change h _).granting ((kept_answered [] d).granting hnone)
  | refuse =>
    refine ⟨.error .io, 0, d.answered, rfl, ?_, nofun, fun hnone => ?_⟩
    · rw [List.take_zero, List.append_nil]
      exact hfile
    · rw [hnone] at hv
      cases hv
  | room n =>
    simp only
    rw [run_bind_ok (run_modify _ _)]
    split
    · refine ⟨.error .io, n, _, rfl, find?_change hfile _, nofun, fun hnone => ?_⟩
      rw [hnone] at hv
      cases hv
    · rename_i hroom
      refine ⟨.ok ⟨⟩, bytes.length, _, rfl, ?_, fun _ => rfl, fun hnone => ?_⟩
      · rw [find?_change hfile, List.take_of_length_le (Nat.not_lt.1 hroom), List.take_length]
      · rw [hnone] at hv
        cases hv

/-- Waiting for the device behind a write changes nothing of what it wrote. -/
theorem append_sync_cases {h : Handle} {content : Bytes} {d : Disk}
    (hf : d.find? h.path = some (.file h.number content)) (bytes : Bytes) (wait : Bool) :
    ∃ r n d', run (do append h bytes; if wait then sync) d = (r, d') ∧
      d'.find? h.path = some (.file h.number (content ++ bytes.take n)) ∧
      (r = .ok ⟨⟩ → n = bytes.length) ∧ (d.verdicts = [] → r = .ok ⟨⟩ ∧ d'.verdicts = []) := by
  obtain ⟨r, n, d₁, happend, hwritten, hall, hgranted⟩ := append_cases hf bytes
  cases r with
  | error e =>
    rw [run_bind_error happend]
    exact ⟨.error e, n, d₁, rfl, hwritten, nofun, fun hnone => absurd (hgranted hnone).1 nofun⟩
  | ok _ =>
    rw [run_bind_ok happend]
    split
    · have hsynced := (keeps_sync [] d₁).others h.path List.not_mem_nil
      refine ⟨(run sync d₁).1, n, (run sync d₁).2, rfl, hsynced.trans hwritten, fun _ => hall rfl,
        fun hnone => ?_⟩
      rw [run_sync_of_granting (hgranted hnone).2]
      exact ⟨rfl, (hgranted hnone).2⟩
    · exact ⟨_, n, d₁, rfl, hwritten, fun _ => hall rfl, fun hnone => ⟨rfl, (hgranted hnone).2⟩⟩

/-! ## Making directories -/

theorem foldl_makeDirs (p : Path) (ks : List Nat) (d : Disk) (q : Path) :
    (ks.foldl (fun d k => if d.isDirectory (p.take k) then d else d.put (p.take k) .directory)
      d).find? q = if ∃ k ∈ ks, q = p.take k then some .directory else d.find? q := by
  induction ks generalizing d with
  | nil => simp
  | cons k ks ih =>
    have hstep : ∀ q, (if d.isDirectory (p.take k) then d
        else d.put (p.take k) .directory).find? q =
          if q = p.take k then some .directory else d.find? q := by
      intro q
      split
      · rename_i hd
        split
        · rename_i hq
          subst hq
          simpa [isDirectory] using hd
        · rfl
      · rename_i hd
        have hd : d.isDirectory (p.take k) = false := by simpa using hd
        exact find?_put d (ne_root_of_not_directory hd) .directory q
    rw [List.foldl_cons, ih, hstep]
    by_cases hk : q = p.take k
    · simp [hk]
    · by_cases hks : ∃ k ∈ ks, q = p.take k
      · simp [hks]
      · simp [hk, hks]

theorem distinct_foldl_makeDirs (p : Path) (ks : List Nat) {d : Disk} (hd : d.Distinct) :
    (ks.foldl (fun d k => if d.isDirectory (p.take k) then d else d.put (p.take k) .directory)
      d).Distinct := by
  induction ks generalizing d with
  | nil => exact hd
  | cons k ks ih =>
    rw [List.foldl_cons]
    split
    · exact ih hd
    · exact ih (distinct_put hd _ _)

theorem foldl_makeDirs_verdicts (p : Path) (ks : List Nat) (d : Disk) :
    (ks.foldl (fun d k => if d.isDirectory (p.take k) then d else d.put (p.take k) .directory)
      d).verdicts = d.verdicts := by
  induction ks generalizing d with
  | nil => rfl
  | cons k ks ih =>
    rw [List.foldl_cons, ih]
    split <;> rfl

/-- No file stands at the path or above it. -/
theorem blocked_eq_false {d : Disk} {p : Path} :
    d.blocked p = false ↔ ∀ q, q <+: p → ∀ number content, d.find? q ≠ some (.file number content) := by
  rw [blocked, List.any_eq_false]
  constructor
  · intro h q hq number content hf
    have hlen : q.length ∈ List.range (p.length + 1) :=
      List.mem_range.2 (Nat.lt_succ_of_le hq.length_le)
    apply h q.length hlen
    rw [← List.prefix_iff_eq_take.1 hq, hf]
  · intro h k _
    split
    · rename_i number content hf
      exact absurd hf (h (p.take k) (List.take_prefix k p) number content)
    · simp

/-- Where no file is in the way, the path and all above it become directories,
and nothing else changes. -/
theorem run_makeDirs {p : Path} {d : Disk} (hv : d.verdicts = []) (hb : d.blocked p = false) :
    ∃ d', run (makeDirs p) d = (.ok ⟨⟩, d') ∧ d'.verdicts = [] ∧ (d.Distinct → d'.Distinct) ∧
      ∀ q, d'.find? q = if q <+: p then some .directory else d.find? q := by
  refine ⟨_, ?_, ?_, fun hd => distinct_foldl_makeDirs p (List.range (p.length + 1)) hd,
    fun q => ?_⟩
  · rw [makeDirs, run_bind_ok (run_granted_of_granting hv), run_bind_ok (run_get _)]
    simp only [hb, Bool.false_eq_true, ↓reduceIte]
    exact run_set _ _
  · rw [foldl_makeDirs_verdicts, hv]
  · rw [foldl_makeDirs]
    congr 1
    rw [eq_iff_iff]
    constructor
    · rintro ⟨k, _, rfl⟩
      exact List.take_prefix k p
    · intro hq
      exact ⟨q.length, List.mem_range.2 (Nat.lt_succ_of_le hq.length_le),
        List.prefix_iff_eq_take.1 hq⟩

/-- However making directories goes, it leaves each path as it is or makes a directory of
it, that one or one above it. -/
theorem find?_makeDirs (p q : Path) (d : Disk) :
    (run (makeDirs p) d).2.find? q = d.find? q ∨
      q <+: p ∧ (run (makeDirs p) d).2.find? q = some .directory := by
  rw [makeDirs, run_bind, run_granted]
  split
  · rename_i h
    split at h
    · cases h
    · cases h
      rw [run_bind_ok (run_get _)]
      split
      · exact Or.inl rfl
      · simp only [run_set, foldl_makeDirs]
        split
        · rename_i hq
          obtain ⟨k, _, rfl⟩ := hq
          exact Or.inr ⟨List.take_prefix k p, rfl⟩
        · exact Or.inl rfl
  · rename_i h
    split at h
    · cases h
      exact Or.inl rfl
    · cases h

end HeapTelemetry.Disk
