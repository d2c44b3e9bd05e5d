import HeapTelemetry.Proofs.Lists
import HeapTelemetry.Proofs.Protocol

/-! Everything a stream asks of its surroundings, written down. Whatever these answer and
in whatever order the calls come, a stream acquires one saver at most, saves through that
one alone, and has closed it exactly once when it is over. -/

namespace HeapTelemetry
open Step

/-- What was asked of the surroundings, with the answer. -/
inductive Entry (V : Type)
  | opened (owner : Instance) (outcome : Except Error V)
  | saved (saver : V) (m : Measurement) (outcome : Except Error Unit)
  | put (s : Session) (m : Measurement) (outcome : Except Error Unit)
  | closed (saver : V) (outcome : Except Error Unit)

namespace Entry
variable {V : Type}

def acquired? : Entry V → Option V
  | opened _ (.ok v) => some v
  | _ => none

def closed? : Entry V → Option V
  | closed v _ => some v
  | _ => none

/-- The saver that is saved to, whether or not it takes the measurement. -/
def target? : Entry V → Option V
  | saved v _ _ => some v
  | _ => none

/-- The measurement that was saved, and its saver. -/
def saved? : Entry V → Option (V × Measurement)
  | saved v m (.ok _) => some (v, m)
  | _ => none

/-- The measurement that was offered to the rates, and its session. -/
def put? : Entry V → Option (Session × Measurement)
  | put s m _ => some (s, m)
  | _ => none

/-- The rates have taken a measurement. -/
def taken : Entry V → Bool
  | put _ _ (.ok _) => true
  | _ => false

end Entry

namespace Ports
variable {σ V α : Type}

/-- Runs a step and writes its outcome down. -/
def noting (entry : Except Error α → Entry V) (x : Step σ α) : Step (σ × List (Entry V)) α :=
  fun (s, journal) => let r := Step.run x s; (r.1, r.2, journal ++ [entry r.1])

/-- The same surroundings with a journal. -/
def journaled (ports : Ports σ V) : Ports (σ × List (Entry V)) V where
  openSaver owner := noting (.opened owner) (ports.openSaver owner)
  session := ports.session
  save v m := noting (.saved v m) (ports.save v m)
  closeSaver v := noting (.closed v) (ports.closeSaver v)
  put s m := noting (.put s m) (ports.put s m)

variable (ports : Ports σ V) (s : σ) (journal : List (Entry V))

@[simp] theorem session_journaled (v : V) : ports.journaled.session v = ports.session v := rfl

@[simp] theorem run_openSaver_journaled (owner : Instance) :
    run (ports.journaled.openSaver owner) (s, journal) =
      ((run (ports.openSaver owner) s).1, (run (ports.openSaver owner) s).2,
        journal ++ [.opened owner (run (ports.openSaver owner) s).1]) := rfl

@[simp] theorem run_save_journaled (v : V) (m : Measurement) :
    run (ports.journaled.save v m) (s, journal) =
      ((run (ports.save v m) s).1, (run (ports.save v m) s).2,
        journal ++ [.saved v m (run (ports.save v m) s).1]) := rfl

@[simp] theorem run_closeSaver_journaled (v : V) :
    run (ports.journaled.closeSaver v) (s, journal) =
      ((run (ports.closeSaver v) s).1, (run (ports.closeSaver v) s).2,
        journal ++ [.closed v (run (ports.closeSaver v) s).1]) := rfl

@[simp] theorem run_put_journaled (t : Session) (m : Measurement) :
    run (ports.journaled.put t m) (s, journal) =
      ((run (ports.put t m) s).1, (run (ports.put t m) s).2,
        journal ++ [.put t m (run (ports.put t m) s).1]) := rfl

end Ports

namespace SaveProtocol
variable {σ V : Type}

/-! ## Calls and runs -/

inductive Call
  | describe (owner : Instance)
  | measure (m : Measurement)
  | close
  deriving DecidableEq

/-- How a stream may end for good. Who drops it does not hear whether its saver could be
closed. -/
inductive Ending
  | close
  | drop
  deriving DecidableEq

def Call.method : Call → String
  | describe _ => "add_description"
  | measure _ => "add_measurement"
  | close => "close"

/-- The call has measured something. -/
def Call.counted : Call → Except Error Unit → Bool
  | measure _, .ok _ => true
  | _, _ => false

/-- What a stream that is over answers. -/
def Call.late : Call → Except Error Unit
  | close => .ok ()
  | call => .error (.unexpectedCall call.method "finished")

def Call.inOrder : Call → Phase V → Bool
  | describe _, .awaitDescription => true
  | measure _, .awaitMeasurement _ => true
  | close, _ => true
  | _, _ => false

def act (ports : Ports σ V) : Call → Step (SaveProtocol V × σ) Unit
  | .describe owner => discard (addDescription ports owner)
  | .measure m => addMeasurement ports m
  | .close => close ports

def finish (ports : Ports σ V) : Ending → Step (SaveProtocol V × σ) Unit
  | .close => close ports
  | .drop => abandon ports

/-- The answers to calls one after another, and what they leave. -/
def runAll (ports : Ports σ V) (x : SaveProtocol V × σ) :
    List Call → List (Except Error Unit) × SaveProtocol V × σ
  | [] => ([], x)
  | call :: calls =>
    let (answer, x) := run (act ports call) x
    let (answers, x) := runAll ports x calls
    (answer :: answers, x)

/-- The journal of a new stream after some calls and maybe its end. -/
def journal (ports : Ports σ V) (s : σ) (calls : List Call) (ending : Option Ending) :
    List (Entry V) :=
  let x := (runAll ports.journaled (initial, s, []) calls).2
  match ending with
  | none => x.2.2
  | some ending => (run (finish ports.journaled ending) x).2.2.2

/-! ## What a call can do -/

/-- All that a call can do to a stream, with its answer and what it asks for. -/
inductive Did (ports : Ports σ V) (p : SaveProtocol V) :
    Call → Except Error Unit → SaveProtocol V → List (Entry V) → Prop
  | spent {call : Call} {answer : Except Error Unit} (hp : p.saver? = none)
      (h : call.counted answer = false) : Did ports p call answer p.ended []
  | closed {call : Call} {answer outcome : Except Error Unit} {v : V}
      (hp : p.phase = .awaitMeasurement v) (h : call.counted answer = false) :
      Did ports p call answer p.ended [.closed v outcome]
  | notOpened {owner : Instance} {e : Error} (hp : p.phase = .awaitDescription) :
      Did ports p (.describe owner) (.error e) p.ended [.opened owner (.error e)]
  | opened {owner : Instance} {v : V} (hp : p.phase = .awaitDescription) :
      Did ports p (.describe owner) (.ok ())
        { p with phase := .awaitMeasurement v, session := some (ports.session v) }
        [.opened owner (.ok v)]
  | notSaved {m : Measurement} {e : Error} {v : V} (hp : p.phase = .awaitMeasurement v) :
      Did ports p (.measure m) (.error e) p [.saved v m (.error e)]
  | notTaken {m : Measurement} {e : Error} {v : V} (hp : p.phase = .awaitMeasurement v) :
      Did ports p (.measure m) (.error e) p
        [.saved v m (.ok ()), .put (ports.session v) m (.error e)]
  | taken {m : Measurement} {v : V} (hp : p.phase = .awaitMeasurement v) :
      Did ports p (.measure m) (.ok ()) { p with measurements := p.measurements + 1 }
        [.saved v m (.ok ()), .put (ports.session v) m (.ok ())]

/-- The journal says what was asked for and changes nothing else. -/
def Notes (ports : Ports σ V) (p : SaveProtocol V) (s : σ) (call : Call) : Prop :=
  ∃ answer p' t asked, run (act ports call) (p, s) = (answer, p', t) ∧
    (∀ journal, run (act ports.journaled call) (p, s, journal) = (answer, p', t, journal ++ asked)) ∧
    Did ports p call answer p' asked

variable (ports : Ports σ V) (p : SaveProtocol V) (s : σ)

/-- A call out of order is answered by its name and the phase before it. It ends the
stream, and nothing else is done than to release its saver. -/
theorem run_act_refused {call : Call} (h : call.inOrder p.phase = false) :
    run (act ports call) (p, s) = (.error (.unexpectedCall call.method p.phase.name), p.ended,
      released ports s p.saver?) := by
  obtain ⟨phase, session, measurements⟩ := p
  cases call with
  | describe owner =>
    rw [act, run_discard, run_addDescription]
    cases phase with
    | awaitDescription => cases h
    | _ => rfl
  | measure m =>
    rw [act, run_addMeasurement]
    cases phase with
    | awaitMeasurement v => cases h
    | _ => rfl
  | close => cases phase <;> cases h

theorem notes_refused {call : Call} (h : call.inOrder p.phase = false) : Notes ports p s call := by
  have hrun := run_act_refused ports p s h
  have hjournaled := fun journal => run_act_refused ports.journaled p (s, journal) h
  have hcounted : ∀ e, call.counted (.error e) = false := by
    cases call <;> exact fun e => rfl
  cases hp : p.phase with
  | awaitMeasurement v =>
    rw [saver?_eq_some.2 hp] at hrun hjournaled
    exact ⟨_, _, _, _, hrun, hjournaled, .closed hp (hcounted _)⟩
  | _ =>
    have hsaver : p.saver? = none := by rw [saver?, hp]
    rw [hsaver] at hrun hjournaled
    exact ⟨_, _, _, [], hrun, by simpa using hjournaled, .spent hsaver (hcounted _)⟩

theorem notes_describe (hp : p.phase = .awaitDescription) (owner : Instance) :
    Notes ports p s (.describe owner) := by
  have hsaver : p.saver? = none := by rw [saver?, hp]
  simp only [Notes, act, run_discard, run_addDescription, hp]
  cases owner.validate with
  | error e => exact ⟨_, _, _, [], rfl, by simp, .spent hsaver rfl⟩
  | ok u =>
    simp only [Ports.run_openSaver_journaled]
    cases run (ports.openSaver owner) s with
    | mk r t =>
      cases r with
      | error e => exact ⟨_, _, _, _, rfl, fun _ => rfl, .notOpened hp⟩
      | ok v => exact ⟨_, _, _, _, rfl, fun _ => rfl, .opened hp⟩

theorem notes_measure {v : V} (hp : p.phase = .awaitMeasurement v) (m : Measurement) :
    Notes ports p s (.measure m) := by
  simp only [Notes, act, run_addMeasurement, hp, Ports.run_save_journaled, Ports.session_journaled]
  cases run (ports.save v m) s with
  | mk r t =>
    cases r with
    | error e => exact ⟨_, _, _, _, rfl, fun _ => rfl, .notSaved hp⟩
    | ok u =>
      simp only [Ports.run_put_journaled, List.append_assoc]
      cases run (ports.put (ports.session v) m) t with
      | mk r t =>
        cases r with
        | error e => exact ⟨_, _, _, _, rfl, fun _ => rfl, .notTaken hp⟩
        | ok u =>
          refine ⟨_, _, _, _, rfl, fun _ => rfl, ?_⟩
          simpa only [hp, List.cons_append, List.nil_append] using Did.taken hp

theorem notes_close : Notes ports p s .close := by
  simp only [Notes, act, run_close]
  cases hp : p.saver? with
  | some v => exact ⟨_, _, _, _, rfl, fun _ => rfl, .closed (saver?_eq_some.1 hp) rfl⟩
  | none => exact ⟨_, _, _, [], rfl, by simp, .spent hp rfl⟩

theorem notes_act (call : Call) : Notes ports p s call := by
  cases h : call.inOrder p.phase with
  | false => exact notes_refused ports p s h
  | true =>
    cases call with
    | describe owner =>
      refine notes_describe ports p s ?_ owner
      cases hp : p.phase <;> simp [hp, Call.inOrder] at h ⊢
    | measure m =>
      cases hp : p.phase with
      | awaitMeasurement v => exact notes_measure ports p s hp m
      | _ => simp [hp, Call.inOrder] at h
    | close => exact notes_close ports p s

/-! ## What the journal of a stream looks like -/

/-- Every saver that was acquired was closed or is held, there is one at most, and a close
is the last thing that is asked for. Measurements go to that saver alone, those that it
took go on to the rates, and those that the rates took are counted. -/
structure Safe (ports : Ports σ V) (p : SaveProtocol V) (journal : List (Entry V)) : Prop where
  acquired : journal.filterMap Entry.acquired? =
    journal.filterMap Entry.closed? ++ p.saver?.toList
  single : (journal.filterMap Entry.acquired?).length ≤ 1
  fresh : p.phase = .awaitDescription → journal.filterMap Entry.acquired? = []
  session : p.session = (journal.filterMap Entry.acquired?).head?.map ports.session
  closed_last : journal.Pairwise fun earlier _ => earlier.closed? = none
  own : ∀ v ∈ journal.filterMap Entry.target?, v ∈ journal.filterMap Entry.acquired?
  put : journal.filterMap Entry.put? =
    (journal.filterMap Entry.saved?).map fun (v, m) => (ports.session v, m)
  count : p.measurements = journal.countP Entry.taken

namespace Safe
variable {ports p} {journal : List (Entry V)}

theorem initial : Safe ports (initial : SaveProtocol V) [] :=
  ⟨rfl, Nat.zero_le 1, fun _ => rfl, rfl, .nil, fun _ hv => absurd hv List.not_mem_nil, rfl, rfl⟩

/-- As long as a stream is not over, nothing was closed. -/
theorem nothing_closed (h : Safe ports p journal) (hp : p.phase ≠ .finished) :
    journal.filterMap Entry.closed? = [] := by
  have hacquired := h.acquired
  cases hphase : p.phase with
  | awaitDescription =>
    rw [h.fresh hphase] at hacquired
    exact (List.append_eq_nil_iff.1 hacquired.symm).1
  | awaitMeasurement v =>
    -- The held saver is the only one that was acquired, so none is left that was closed.
    have hsingle := h.single
    rw [hacquired, saver?_eq_some.2 hphase, List.length_append] at hsingle
    exact List.eq_nil_of_length_eq_zero (Nat.le_zero.1 (Nat.le_of_succ_le_succ hsingle))
  | finished => exact absurd hphase hp

/-- What is asked for while a stream is not over comes after no close. -/
theorem closed_last_concat (h : Safe ports p journal) (hp : p.phase ≠ .finished) (e : Entry V) :
    (journal ++ [e]).Pairwise fun earlier _ => earlier.closed? = none := by
  refine List.pairwise_append.2 ⟨h.closed_last, List.pairwise_singleton _ _, fun x hx _ _ => ?_⟩
  exact List.filterMap_eq_nil_iff.1 (h.nothing_closed hp) x hx

/-- A held saver is the one that was acquired. -/
theorem acquired_of_held (h : Safe ports p journal) {v : V} (hp : p.phase = .awaitMeasurement v) :
    journal.filterMap Entry.acquired? = [v] := by
  have hnone := h.nothing_closed (by simp [hp])
  rw [h.acquired, hnone, saver?_eq_some.2 hp]
  rfl

/-- What goes to the held saver goes to one that was acquired. -/
theorem own_of_held (h : Safe ports p journal) {v : V} (hp : p.phase = .awaitMeasurement v)
    {asked : List (Entry V)} (hasked : ∀ w ∈ asked.filterMap Entry.target?, w = v) :
    ∀ w ∈ (journal ++ asked).filterMap Entry.target?,
      w ∈ (journal ++ asked).filterMap Entry.acquired? := by
  intro w hw
  rw [List.filterMap_append, List.mem_append] at hw ⊢
  rcases hw with hw | hw
  · exact Or.inl (h.own w hw)
  · rw [hasked w hw, h.acquired_of_held hp]
    exact Or.inl List.mem_cons_self

theorem ended (h : Safe ports p journal) (hp : p.saver? = none) : Safe ports p.ended journal :=
  { h with
    acquired := by rw [h.acquired, hp]; rfl
    fresh := fun hfresh => by cases hfresh }

theorem closed (h : Safe ports p journal) {v : V} (hp : p.phase = .awaitMeasurement v)
    (outcome : Except Error Unit) : Safe ports p.ended (journal ++ [.closed v outcome]) where
  acquired := by
    simp [h.acquired_of_held hp, h.nothing_closed (by simp [hp]), filterMap_cons_toList,
      Entry.acquired?, Entry.closed?]
  single := by simpa [filterMap_cons_toList, Entry.acquired?] using h.single
  fresh hfresh := by cases hfresh
  session := by simpa [filterMap_cons_toList, Entry.acquired?, SaveProtocol.ended] using h.session
  closed_last := h.closed_last_concat (by simp [hp]) _
  own := by simpa [filterMap_cons_toList, Entry.acquired?, Entry.target?] using h.own
  put := by simpa [filterMap_cons_toList, Entry.put?, Entry.saved?] using h.put
  count := by simpa [Entry.taken, SaveProtocol.ended] using h.count

theorem released (h : Safe ports p journal) (s : σ) :
    Safe ports p.ended (SaveProtocol.released ports.journaled (s, journal) p.saver?).2 := by
  cases hp : p.saver? with
  | none => exact h.ended hp
  | some v => exact h.closed (saver?_eq_some.1 hp) _

theorem notOpened (h : Safe ports p journal) (hp : p.phase = .awaitDescription)
    (owner : Instance) (e : Error) :
    Safe ports p.ended (journal ++ [.opened owner (.error e)]) where
  acquired := by
    simp [h.fresh hp, h.nothing_closed (by simp [hp]), filterMap_cons_toList, Entry.acquired?,
      Entry.closed?]
  single := by simp [h.fresh hp, filterMap_cons_toList, Entry.acquired?]
  fresh hfresh := by cases hfresh
  session := by simpa [filterMap_cons_toList, Entry.acquired?, SaveProtocol.ended] using h.session
  closed_last := h.closed_last_concat (by simp [hp]) _
  own := by simpa [filterMap_cons_toList, Entry.acquired?, Entry.target?] using h.own
  put := by simpa [filterMap_cons_toList, Entry.put?, Entry.saved?] using h.put
  count := by simpa [Entry.taken, SaveProtocol.ended] using h.count

theorem opened (h : Safe ports p journal) (hp : p.phase = .awaitDescription)
    (owner : Instance) (v : V) :
    Safe ports { p with phase := .awaitMeasurement v, session := some (ports.session v) }
      (journal ++ [.opened owner (.ok v)]) where
  acquired := by
    simp [h.fresh hp, h.nothing_closed (by simp [hp]), filterMap_cons_toList, Entry.acquired?,
      Entry.closed?, saver?]
  single := by simp [h.fresh hp, Entry.acquired?]
  fresh hfresh := by cases hfresh
  session := by simp [h.fresh hp, Entry.acquired?]
  closed_last := h.closed_last_concat (by simp [hp]) _
  own w hw := by
    have hown := h.own w (by simpa [filterMap_cons_toList, Entry.target?] using hw)
    rw [h.fresh hp] at hown
    exact absurd hown List.not_mem_nil
  put := by simpa [filterMap_cons_toList, Entry.put?, Entry.saved?] using h.put
  count := by simpa [Entry.taken] using h.count

theorem notSaved (h : Safe ports p journal) {v : V} (hp : p.phase = .awaitMeasurement v)
    (m : Measurement) (e : Error) : Safe ports p (journal ++ [.saved v m (.error e)]) where
  acquired := by simpa [filterMap_cons_toList, Entry.acquired?, Entry.closed?] using h.acquired
  single := by simpa [filterMap_cons_toList, Entry.acquired?] using h.single
  fresh hfresh := by simp [hp] at hfresh
  session := by simpa [filterMap_cons_toList, Entry.acquired?] using h.session
  closed_last := h.closed_last_concat (by simp [hp]) _
  own := h.own_of_held hp fun w hw => by simpa [filterMap_cons_toList, Entry.target?] using hw
  put := by simpa [filterMap_cons_toList, Entry.put?, Entry.saved?] using h.put
  count := by simpa [Entry.taken] using h.count

/-- A measurement that was saved goes on to the rates, and is counted if they take it. -/
theorem saved (h : Safe ports p journal) {v : V} (hp : p.phase = .awaitMeasurement v)
    (m : Measurement) (outcome : Except Error Unit) :
    Safe ports
      { p with measurements :=
          p.measurements + [Entry.put (V := V) (ports.session v) m outcome].countP Entry.taken }
      (journal ++ [.saved v m (.ok ()), .put (ports.session v) m outcome]) where
  acquired := by
    simpa [filterMap_cons_toList, Entry.acquired?, Entry.closed?, saver?] using h.acquired
  single := by simpa [filterMap_cons_toList, Entry.acquired?] using h.single
  fresh hfresh := by simp [hp] at hfresh
  session := by simpa [filterMap_cons_toList, Entry.acquired?] using h.session
  closed_last := by
    refine List.pairwise_append.2 ⟨h.closed_last, ?_, fun x hx _ _ => ?_⟩
    · exact List.pairwise_cons.2 ⟨fun _ _ => rfl, List.pairwise_singleton _ _⟩
    · exact List.filterMap_eq_nil_iff.1 (h.nothing_closed (by simp [hp])) x hx
  own := h.own_of_held hp fun w hw => by simpa [filterMap_cons_toList, Entry.target?] using hw
  put := by simpa [filterMap_cons_toList, Entry.put?, Entry.saved?] using h.put
  count := by simp [h.count, Entry.taken]

theorem did (h : Safe ports p journal) {call : Call} {answer : Except Error Unit}
    {p' : SaveProtocol V} {asked : List (Entry V)} (hdid : Did ports p call answer p' asked) :
    Safe ports p' (journal ++ asked) := by
  cases hdid with
  | spent hp => exact (List.append_nil journal).symm ▸ h.ended hp
  | closed hp => exact h.closed hp _
  | notOpened hp => exact h.notOpened hp _ _
  | opened hp => exact h.opened hp _ _
  | notSaved hp => exact h.notSaved hp _ _
  | notTaken hp => exact h.saved hp _ (.error _)
  | taken hp => exact h.saved hp _ (.ok ())

theorem act (h : Safe ports p journal) (s : σ) (call : Call) :
    let x := (run (SaveProtocol.act ports.journaled call) (p, s, journal)).2
    Safe ports x.1 x.2.2 := by
  obtain ⟨answer, p', t, asked, _, hrun, hdid⟩ := notes_act ports p s call
  rw [hrun journal]
  exact h.did hdid

theorem finish (h : Safe ports p journal) (s : σ) (ending : Ending) :
    let x := (run (SaveProtocol.finish ports.journaled ending) (p, s, journal)).2
    Safe ports x.1 x.2.2 := by
  cases ending with
  | close => exact h.act s .close
  | drop =>
    rw [SaveProtocol.finish, run_abandon]
    exact h.released s

theorem runAll (h : Safe ports p journal) (s : σ) (calls : List Call) :
    let x := (SaveProtocol.runAll ports.journaled (p, s, journal) calls).2
    Safe ports x.1 x.2.2 := by
  induction calls generalizing p s journal with
  | nil => exact h
  | cons call calls ih => exact ih (h.act s call) _

/-- A saver is held as long as there is one that was acquired and not closed. -/
theorem holding_iff (h : Safe ports p journal) : p.phase.name = "await_measurement" ↔
    (journal.filterMap Entry.closed?).length < (journal.filterMap Entry.acquired?).length := by
  rw [h.acquired, List.length_append, Nat.lt_add_right_iff_pos]
  obtain ⟨phase, session, measurements⟩ := p
  cases phase with
  | awaitMeasurement v => simp [Phase.name, saver?]
  | awaitDescription => simp [Phase.name, saver?]
  | finished => simp [Phase.name, saver?]

/-- Whoever is over has closed what it acquired. -/
theorem closed_of_finished (h : Safe ports p journal) (hp : p.phase = .finished) :
    journal.filterMap Entry.closed? = journal.filterMap Entry.acquired? := by
  rw [h.acquired, saver?, hp]
  exact (List.append_nil _).symm

end Safe

/-! ## Every stream -/

/-- Nothing changes for a stream by its journal. -/
theorem runAll_journaled (journal : List (Entry V)) (calls : List Call) :
    let x := runAll ports.journaled (p, s, journal) calls
    (x.1, x.2.1, x.2.2.1) = runAll ports (p, s) calls := by
  induction calls generalizing p s journal with
  | nil => rfl
  | cons call calls ih =>
    obtain ⟨answer, p', t, asked, hrun, hjournaled, _⟩ := notes_act ports p s call
    simp only [runAll, hrun, hjournaled, ← ih p' t (journal ++ asked)]

/-- What a stream does once it is over, whatever it is asked. -/
theorem runAll_ended (calls : List Call) :
    runAll ports (p.ended, s) calls = (calls.map Call.late, p.ended, s) := by
  induction calls with
  | nil => rfl
  | cons call calls ih =>
    have hact : run (act ports call) (p.ended, s) = (call.late, p.ended, s) := by
      cases call with
      | describe owner => exact run_act_refused ports p.ended s rfl
      | measure m => exact run_act_refused ports p.ended s rfl
      | close => exact run_close ports p.ended s
    simp only [runAll, hact, ih, List.map_cons]

/-- A stream counts the measurements that it answered without an error. -/
theorem measurements_runAll (calls : List Call) :
    let x := runAll ports (p, s) calls
    x.2.1.measurements =
      p.measurements + (calls.zip x.1).countP fun (call, answer) => call.counted answer := by
  induction calls generalizing p s with
  | nil => rfl
  | cons call calls ih =>
    obtain ⟨answer, p', t, asked, hrun, _, hdid⟩ := notes_act ports p s call
    have hcounted : p'.measurements = p.measurements + if call.counted answer then 1 else 0 := by
      cases hdid with
      | spent _ h => simp [h, ended]
      | closed _ h => simp [h, ended]
      | _ => rfl
    have hrest := ih p' t
    simp only [runAll, hrun, List.zip_cons_cons, List.countP_cons] at hrest ⊢
    rw [hrest, hcounted, Nat.add_assoc, Nat.add_comm (ite _ _ _)]

/-- However a stream ends, it is over and has let go of its saver. -/
theorem run_finish (ending : Ending) :
    (run (finish ports ending) (p, s)).2 = (p.ended, released ports s p.saver?) := by
  cases ending with
  | drop => rw [finish, run_abandon]
  | close =>
    rw [finish, run_close]
    cases p.saver? <;> rfl

/-- Whatever its surroundings answer and in whatever order it is called, a stream is safe
at every point and once it is over. It awaits measurements as long as it holds a saver,
and counts the measurements that it answered without an error. What is out of order it
refuses, and that ends it; from then on it refuses everything, and closing it does
nothing. When it is over it has closed what it acquired. -/
theorem runs_safely (calls : List Call) :
    let x := runAll ports ((initial : SaveProtocol V), s) calls
    let p := x.2.1
    let asked := journal ports s calls none
    (Safe ports p asked ∧
      (p.phase.name = "await_measurement" ↔
        (asked.filterMap Entry.closed?).length < (asked.filterMap Entry.acquired?).length) ∧
      p.measurements = (calls.zip x.1).countP fun (call, answer) => call.counted answer) ∧
    (∀ call, call.inOrder p.phase = false →
      run (act ports call) x.2 = (.error (.unexpectedCall call.method p.phase.name), p.ended,
        released ports x.2.2 p.saver?)) ∧
    (∀ later more, runAll ports (p.ended, later) more = (more.map Call.late, p.ended, later)) ∧
    ∀ ending,
      let asked := journal ports s calls (some ending)
      (run (finish ports ending) x.2).2.1 = p.ended ∧ Safe ports p.ended asked ∧
        asked.filterMap Entry.closed? = asked.filterMap Entry.acquired? := by
  have hsame := runAll_journaled ports initial s [] calls
  have hstart : Safe ports initial [] := Safe.initial
  have hsafe := hstart.runAll s calls
  have hcount := measurements_runAll ports initial s calls
  cases hrun : runAll ports.journaled (initial, s, []) calls with
  | mk answers y =>
    obtain ⟨p, t, asked⟩ := y
    rw [hrun] at hsame hsafe
    rw [← hsame] at hcount
    simp only [journal, hrun, ← hsame]
    refine ⟨⟨hsafe, hsafe.holding_iff, hcount.trans (Nat.zero_add _)⟩,
      fun call h => run_act_refused ports p t h, runAll_ended ports p, fun ending => ?_⟩
    have hended := hsafe.finish t ending
    simp only [run_finish] at hended ⊢
    exact ⟨trivial, hended, hended.closed_of_finished rfl⟩

/-- A second description, where no measurement can be saved and no saver be closed. -/
theorem runs_safely_described_twice :
    let ports : Ports Unit Session :=
      ⟨fun owner => pure ⟨owner, 1⟩, id, fun _ _ => throw .io, fun _ => throw .io, fun _ _ => pure ()⟩
    let owner : Instance := ⟨"cart", "one"⟩
    let calls : List Call := [.describe owner, .measure ⟨⟨0, 0, by decide, by decide⟩, []⟩]
    let x := runAll ports (initial, ()) calls
    Call.inOrder (.describe owner) x.2.1.phase = false ∧
      run (act ports (.describe owner)) x.2 =
        (.error (.unexpectedCall "add_description" "await_measurement"), x.2.1.ended, ()) ∧
      (journal ports () calls (some .drop)).filterMap Entry.closed? = [⟨owner, 1⟩] := by
  refine ⟨?_, ?_, ?_⟩
  · rfl
  · exact (runs_safely _ () _).2.1 _ rfl
  · exact ((runs_safely _ () _).2.2.2 .drop).2.2

end SaveProtocol
end HeapTelemetry
