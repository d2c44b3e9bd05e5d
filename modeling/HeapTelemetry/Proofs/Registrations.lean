import HeapTelemetry.Proofs.ByteOrder
import HeapTelemetry.Proofs.Storage.Admission
import Mathlib.Data.List.DropRight

/-! The registry after any calls. What it lists and what it answers is what its history
says: which sessions were started and when, and which of them were asked to stop since. -/

namespace HeapTelemetry
open Step

/-! ## Lists of names -/

namespace Registry

theorem mem_sortedNames {names : List String} {name : String} :
    name ∈ sortedNames names ↔ name ∈ names := by
  rw [sortedNames, List.mem_mergeSort, List.mem_eraseDups]

theorem pairwise_mergeSort_names (names : List String) :
    (names.mergeSort fun a b => a ≤ b).Pairwise fun a b => decide (a ≤ b) = true := by
  apply List.pairwise_mergeSort
  · intro a b c hab hbc
    exact decide_eq_true (String.le_trans (of_decide_eq_true hab) (of_decide_eq_true hbc))
  · intro a b
    rw [Bool.or_eq_true, decide_eq_true_iff, decide_eq_true_iff]
    exact String.le_total _ _

/-- Names are listed once each, in the order of their bytes. -/
theorem pairwise_sortedNames (names : List String) :
    ((sortedNames names).map Bytes.ofText).Pairwise (· < ·) := by
  have hnodup : (sortedNames names).Nodup :=
    (List.mergeSort_perm _ _).nodup_iff.2 (nodup_eraseDups names)
  rw [List.pairwise_map]
  refine ((pairwise_mergeSort_names _).and hnodup).imp ?_
  rintro a b ⟨hle, hne⟩
  refine Bytes.ofText_lt (String.not_le.1 fun hge => hne ?_)
  exact String.le_antisymm (of_decide_eq_true hle) hge

/-! ## Calls and histories -/

/-- What is asked of a registry. -/
inductive Call where
  | start (owner : Instance)
  | stop (s : Session)
  | reopen
  deriving DecidableEq

/-- An error, or the session that was started if any was. -/
abbrev Outcome := Except Error (Option Session)

def Call.run (r : Registry) : Call → Outcome × Registry
  | .start owner => ((Step.run (startSession owner) r).1.map some, (Step.run (startSession owner) r).2)
  | .stop s => ((Step.run (stopSession s) r).1.map fun _ => none, (Step.run (stopSession s) r).2)
  | .reopen =>
    match r.reopen with
    | .ok r => (.ok none, r)
    | .error e => (.error e, r)

/-- A call, made when the clock shows a time. -/
abbrev TimedCall := Int64 × Call

abbrev Past := List (TimedCall × Outcome)

/-- The calls that were made with their outcomes, and the registry they left. -/
structure History where
  past : Past
  registry : Registry

def History.call (h : History) (c : TimedCall) : History :=
  ⟨h.past ++ [(c, (c.2.run (h.registry.setClock c.1)).1)],
    (c.2.run (h.registry.setClock c.1)).2⟩

def History.begin : History := ⟨[], empty⟩

def History.after (calls : List TimedCall) : History := calls.foldl call begin

theorem History.after_concat (calls : List TimedCall) (c : TimedCall) :
    after (calls ++ [c]) = (after calls).call c := by
  rw [after, List.foldl_append]
  rfl

/-- The session that a call has started. -/
def session? (e : TimedCall × Outcome) : Option Session := e.2.toOption.join

/-- The sessions that were started, in order. -/
def issues (past : Past) : List Session := past.filterMap session?

/-- The calls from the one that started a session. -/
def since (s : Session) (past : Past) : Past := past.dropWhile fun e => session? e ≠ some s

/-- Nobody has asked to stop the session since it was started. -/
def running (s : Session) (past : Past) : Bool := (since s past).all fun e => e.1.2 ≠ .stop s

/-- When the session was started. -/
def startTime (s : Session) (past : Past) : Int64 := ((since s past).head?.map (·.1.1)).getD 0

/-- When the first call came that asked to stop the session since. -/
def stopTime? (s : Session) (past : Past) : Option Int64 :=
  ((since s past).find? fun e => e.1.2 = .stop s).map (·.1.1)

/-- What is to be known of a session. -/
def entryOf (past : Past) (s : Session) : RegistryEntry :=
  ⟨s, .ofNanos (startTime s past), (stopTime? s past).map .ofNanos⟩

variable {past : Past} {s t : Session} {r : Registry}

theorem stopTime?_eq_none_iff : stopTime? s past = none ↔ running s past = true := by
  rw [stopTime?, Option.map_eq_none_iff, List.find?_eq_none, running, List.all_eq_true]
  simp

/-- A session is active that nobody asked to stop. -/
theorem active_entryOf (past : Past) (s : Session) :
    (entryOf past s).active = running s past := by
  rw [RegistryEntry.active, entryOf, Option.isNone_map, Bool.eq_iff_iff,
    Option.isNone_iff_eq_none, stopTime?_eq_none_iff]

theorem mem_issues : s ∈ issues past ↔ ∃ e ∈ past, session? e = some s := List.mem_filterMap

theorem since_eq_nil_iff : since s past = [] ↔ s ∉ issues past := by
  rw [since, List.dropWhile_eq_nil_iff, mem_issues]
  simp

theorem issues_concat (past : Past) (e : TimedCall × Outcome) :
    issues (past ++ [e]) = issues past ++ (session? e).toList := by
  rw [issues, List.filterMap_append, issues]
  cases hs : session? e <;> simp [hs]

theorem since_concat (h : s ∈ issues past) (e : TimedCall × Outcome) :
    since s (past ++ [e]) = since s past ++ [e] := by
  have hne : since s past ≠ [] := fun hnil => since_eq_nil_iff.1 hnil h
  rw [since, List.dropWhile_append, if_neg (by simpa [since] using hne), since]

/-- A later call counts if it asks to stop the session and nobody has asked before. -/
theorem entryOf_concat (h : s ∈ issues past) (e : TimedCall × Outcome) :
    entryOf (past ++ [e]) s =
      if running s past = true ∧ e.1.2 = .stop s then
        { entryOf past s with finishedAt := some (.ofNanos e.1.1) }
      else entryOf past s := by
  have hstart : startTime s (past ++ [e]) = startTime s past := by
    obtain ⟨first, rest, hsince⟩ : ∃ first rest, since s past = first :: rest :=
      List.exists_cons_of_ne_nil fun hnil => since_eq_nil_iff.1 hnil h
    rw [startTime, startTime, since_concat h, hsince]
    rfl
  have hstop : stopTime? s (past ++ [e]) =
      if running s past = true ∧ e.1.2 = .stop s then some e.1.1 else stopTime? s past := by
    have hsince : stopTime? s (past ++ [e]) =
        (stopTime? s past).or (([e].find? fun e => e.1.2 = .stop s).map (·.1.1)) := by
      rw [stopTime?, stopTime?, since_concat h, List.find?_append, Option.map_or]
    rw [hsince]
    cases htime : stopTime? s past with
    | some time =>
      have hstopped : running s past ≠ true := fun hrunning => by
        rw [stopTime?_eq_none_iff.2 hrunning] at htime
        cases htime
      rw [if_neg fun hand => hstopped hand.1]
      rfl
    | none =>
      have hrunning := stopTime?_eq_none_iff.1 htime
      by_cases he : e.1.2 = .stop s
      · rw [if_pos ⟨hrunning, he⟩, List.find?_singleton, if_pos (decide_eq_true he)]
        rfl
      · rw [if_neg fun hand => he hand.2, List.find?_singleton, if_neg (by simpa using he)]
        rfl
  rw [entryOf, entryOf, hstart, hstop]
  split <;> rfl

/-- Only calls to stop a session change what is to be known of the sessions there are. -/
theorem entryOf_concat_of_ne (h : s ∈ issues past) {e : TimedCall × Outcome}
    (hne : e.1.2 ≠ .stop s) : entryOf (past ++ [e]) s = entryOf past s := by
  rw [entryOf_concat h, if_neg fun hand => hne hand.2]

/-- A session that is new was started by the last call, and has not been stopped. -/
theorem entryOf_new (h : s ∉ issues past) (time : Int64) (owner : Instance) :
    entryOf (past ++ [((time, .start owner), .ok (some s))]) s = ⟨s, .ofNanos time, none⟩ := by
  have hnil := since_eq_nil_iff.2 h
  have hsince : since s (past ++ [((time, .start owner), .ok (some s))]) =
      [((time, .start owner), .ok (some s))] := by
    rw [since, List.dropWhile_append, if_pos (by simpa [since] using hnil),
      List.dropWhile_cons_of_neg (by simp [session?, Except.toOption])]
  rw [entryOf, startTime, stopTime?, hsince]
  rfl

/-- The registry holds what its history says, and nothing else. -/
structure Told (past : Past) (r : Registry) : Prop where
  numbered : r.Numbered
  entries : r.entries = (issues past).map (entryOf past)
  ascending : (issues past).Pairwise (·.id < ·.id)

theorem told_empty : Told [] empty := ⟨numbered_empty, rfl, List.Pairwise.nil⟩

theorem Told.setClock (h : Told past r) (time : Int64) : Told past (r.setClock time) :=
  ⟨h.numbered.congr rfl rfl rfl, h.entries, h.ascending⟩

theorem Told.issued (h : Told past r) : r.issued = issues past := by
  rw [Registry.issued, h.entries, List.map_map]
  exact List.map_id _

/-- A session is known, with the state that its history gives it, or it was never started. -/
theorem Told.lookup (h : Told past r) (s : Session) : r.lookup s =
    if s ∈ issues past then .ok (entryOf past s) else .error (.unknownSession s.key) := by
  have hfind : (issues past).find? (fun t => decide (t = s)) =
      if s ∈ issues past then some s else none := by
    split
    case isTrue hs =>
      cases hfind : (issues past).find? fun t => decide (t = s) with
      | none => exact absurd (decide_eq_true rfl) (List.find?_eq_none.1 hfind s hs)
      | some t =>
        have heq := List.find?_some hfind
        rw [of_decide_eq_true heq]
    case isFalse hs =>
      exact List.find?_eq_none.2 fun t ht heq => hs (of_decide_eq_true heq ▸ ht)
  have hsessions : (fun e : RegistryEntry => decide (e.session = s)) ∘ entryOf past =
      fun t => decide (t = s) := rfl
  rw [Registry.lookup, find?, h.entries, List.find?_map, hsessions, hfind]
  by_cases hs : s ∈ issues past
  · rw [if_pos hs, if_pos hs]
    rfl
  · rw [if_neg hs, if_neg hs]
    rfl

theorem Told.start_invalid (h : Told past r) {owner : Instance} {e : Error}
    (hv : owner.validate = .error e) :
    Call.run r (.start owner) = (.error e, r) ∧
      Told (past ++ [((r.clock, .start owner), .error e)]) r := by
  have hissues : issues (past ++ [((r.clock, .start owner), .error e)]) = issues past := by
    rw [issues_concat]
    exact List.append_nil _
  refine ⟨by rw [Call.run, run_startSession_invalid r hv]; rfl, h.numbered, ?_, hissues ▸ h.ascending⟩
  rw [h.entries, hissues]
  exact List.map_congr_left fun s hs => (entryOf_concat_of_ne hs (by simp)).symm

/-- A new session has a number of its own, above all others. -/
theorem Told.start (h : Told past r) {owner : Instance} (hv : owner.validate = .ok ()) :
    let new : Session := ⟨owner, (r.lastId + 1 : Nat)⟩
    Call.run r (.start owner) = (.ok (some new), r.started owner) ∧
      (∀ s ∈ issues past, s.id < new.id) ∧
      Told (past ++ [((r.clock, .start owner), .ok (some new))]) (r.started owner) := by
  intro new
  have hbelow : ∀ s ∈ issues past, s.id < new.id := by
    intro s hs
    have hle := h.numbered.bounded s (h.issued ▸ hs)
    show s.id < ((r.lastId + 1 : Nat) : Int)
    omega
  have hnew : new ∉ issues past := fun hs => Int.lt_irrefl _ (hbelow new hs)
  have hissues : issues (past ++ [((r.clock, .start owner), .ok (some new))]) =
      issues past ++ [new] := issues_concat _ _
  refine ⟨by rw [Call.run, run_startSession r hv]; rfl, hbelow, h.numbered.started owner, ?_, ?_⟩
  · have hold : (issues past).map (entryOf past) = (issues past).map
        (entryOf (past ++ [((r.clock, .start owner), .ok (some new))])) :=
      List.map_congr_left fun s hs => (entryOf_concat_of_ne hs (by simp)).symm
    rw [hissues, List.map_append, List.map_singleton, entryOf_new hnew, ← hold, ← h.entries]
    rfl
  · rw [hissues, List.pairwise_append]
    refine ⟨h.ascending, List.pairwise_singleton _ _, fun s hs t ht => ?_⟩
    rw [List.mem_singleton.1 ht]
    exact hbelow s hs

/-- The first call to stop a session that was started marks it, and no other. -/
theorem Told.stop (h : Told past r) (hs : s ∈ issues past) (hrunning : running s past = true) :
    run (stopSession s) r = (.ok (), { r with entries := r.entries.map fun e =>
      if e.session = s then { e with finishedAt := some (.ofNanos r.clock) } else e }) := by
  rw [stopSession, run_bind_ok (run_get r), run_bind, run_ofExcept, h.lookup, if_pos hs]
  simp only [active_entryOf, hrunning]
  rfl

/-- Any other call to stop a session changes nothing. -/
theorem Told.stop_refused (h : Told past r) (hs : ¬ (s ∈ issues past ∧ running s past = true)) :
    run (stopSession s) r =
      (.error (if s ∈ issues past then .alreadyStopped s.key else .unknownSession s.key), r) := by
  rw [stopSession, run_bind_ok (run_get r), run_bind, run_ofExcept, h.lookup]
  by_cases hissued : s ∈ issues past
  · have hstopped : running s past = false := by simpa [hissued] using hs
    rw [if_pos hissued, if_pos hissued]
    simp only [active_entryOf, hstopped]
    rfl
  · rw [if_neg hissued, if_neg hissued]

theorem issues_stop (past : Past) (time : Int64) (s : Session) (o : Except Error Unit) :
    issues (past ++ [((time, .stop s), o.map fun _ => none)]) = issues past := by
  rw [issues_concat]
  cases o <;> exact List.append_nil _

theorem Told.stopped (h : Told past r) (s : Session) :
    Told (past ++ [((r.clock, .stop s), (Call.run r (.stop s)).1)]) (Call.run r (.stop s)).2 := by
  obtain ⟨hissued, hlast, hversion⟩ := run_stopSession r s
  refine ⟨h.numbered.congr hissued hlast hversion, ?_, ?_⟩
  · rw [Call.run, issues_stop]
    by_cases hs : s ∈ issues past ∧ running s past = true
    · rw [h.stop hs.1 hs.2, h.entries, List.map_map]
      refine List.map_congr_left fun t ht => ?_
      rw [entryOf_concat ht, Function.comp_apply]
      by_cases hts : t = s
      · subst hts
        exact (if_pos rfl).trans (if_pos ⟨hs.2, rfl⟩).symm
      · have hother : ¬ (running t past = true ∧ Call.stop s = .stop t) := fun hand =>
          hts (Call.stop.inj hand.2).symm
        exact (if_neg hts).trans (if_neg hother).symm
    · rw [h.stop_refused hs, h.entries]
      refine List.map_congr_left fun t ht => ?_
      rw [entryOf_concat ht, if_neg]
      rintro ⟨hrunning, hstop⟩
      obtain rfl := Call.stop.inj hstop
      exact hs ⟨ht, hrunning⟩
  · rw [Call.run, issues_stop]
    exact h.ascending

theorem Told.reopen (h : Told past r) :
    Call.run r .reopen = (.ok none, r) ∧ Told (past ++ [((r.clock, .reopen), .ok none)]) r := by
  have hissues : issues (past ++ [((r.clock, .reopen), .ok none)]) = issues past := by
    rw [issues_concat]
    exact List.append_nil _
  refine ⟨by rw [Call.run, reopen_numbered h.numbered], h.numbered, ?_, hissues ▸ h.ascending⟩
  rw [h.entries, hissues]
  exact List.map_congr_left fun s hs => (entryOf_concat_of_ne hs (by simp)).symm

theorem Told.call (h : Told past r) (c : Call) :
    Told (past ++ [((r.clock, c), (c.run r).1)]) (c.run r).2 := by
  cases c with
  | start owner =>
    cases hv : owner.validate with
    | error e =>
      obtain ⟨hrun, htold⟩ := h.start_invalid hv
      rw [hrun]
      exact htold
    | ok u =>
      obtain ⟨hrun, _, htold⟩ := h.start hv
      rw [hrun]
      exact htold
  | stop s => exact h.stopped s
  | reopen =>
    obtain ⟨hrun, htold⟩ := h.reopen
    rw [hrun]
    exact htold

theorem told_after (calls : List TimedCall) :
    Told (History.after calls).past (History.after calls).registry := by
  induction calls using List.reverseRecOn with
  | nil => exact told_empty
  | append_singleton calls c ih =>
    rw [History.after_concat]
    exact (ih.setClock c.1).call c.2

/-! ## What is listed -/

theorem Told.mem_services (h : Told past r) {name : String} :
    name ∈ r.services ↔ ∃ s ∈ issues past, s.owner.service = name := by
  rw [services, mem_sortedNames, h.entries, List.map_map, List.mem_map]
  rfl

theorem Told.mem_instances (h : Told past r) {service : String} {owner : Instance} :
    owner ∈ r.instances service ↔ owner.service = service ∧ ∃ s ∈ issues past, s.owner = owner := by
  rw [instances, List.mem_map]
  simp only [mem_sortedNames, List.mem_map, List.mem_filter, h.entries, decide_eq_true_eq]
  constructor
  · rintro ⟨_, ⟨_, ⟨⟨s, hs, rfl⟩, rfl⟩, rfl⟩, rfl⟩
    exact ⟨rfl, s, hs, rfl⟩
  · rintro ⟨rfl, s, hs, rfl⟩
    exact ⟨_, ⟨_, ⟨⟨s, hs, rfl⟩, rfl⟩, rfl⟩, rfl⟩

theorem names_instances (r : Registry) (service : String) :
    ((r.instances service).map fun i => Bytes.ofText i.name).Pairwise (· < ·) := by
  rw [instances, List.map_map]
  exact pairwise_sortedNames _

theorem Told.sessions (h : Told past r) (owner : Instance) : r.sessions owner =
    ((issues past).filter (·.owner = owner)).map (entryOf past) := by
  rw [Registry.sessions, h.entries, List.filter_map]
  rfl

/-- Stopping one session is not seen in any other. -/
theorem Told.lookup_stopped (h : Told past r) (hts : t ≠ s) :
    (Call.run r (.stop s)).2.lookup t = r.lookup t := by
  rw [(h.stopped s).lookup, h.lookup, Call.run, issues_stop]
  by_cases ht : t ∈ issues past
  · rw [entryOf_concat_of_ne ht fun hstop => hts (Call.stop.inj hstop).symm]
  · rw [if_neg ht, if_neg ht]

end Registry
end HeapTelemetry
