import HeapTelemetry.SaveProtocol
import HeapTelemetry.Proofs.Steps

/-! What each call of the save protocol does, over any surroundings: to the stream, to
what is around it, and the answer that it gives. -/

namespace HeapTelemetry.SaveProtocol
open Step
variable {σ V α : Type}

/-- The measurement that a request offers to the saver of a stream, if it does. -/
def offering? (p : SaveProtocol V) : Request → Option (V × Measurement)
  | .measurement m =>
    match p.phase with
    | .awaitMeasurement saver => some (saver, m)
    | _ => none
  | .description _ => none

/-- The saver that a stream holds. -/
def saver? (p : SaveProtocol V) : Option V :=
  match p.phase with
  | .awaitMeasurement saver => some saver
  | _ => none

/-- The stream once it is over. -/
def ended (p : SaveProtocol V) : SaveProtocol V := { p with phase := .finished }

/-- The surroundings after a saver was closed, if there was one. -/
def released (ports : Ports σ V) (s : σ) : Option V → σ
  | some v => (run (ports.closeSaver v) s).2
  | none => s

theorem saver?_eq_some {p : SaveProtocol V} {v : V} :
    p.saver? = some v ↔ p.phase = .awaitMeasurement v := by
  obtain ⟨phase, session, measurements⟩ := p
  cases phase <;> simp [saver?]

@[simp] theorem saver?_initial : (initial : SaveProtocol V).saver? = none := rfl

@[simp] theorem saver?_ended (p : SaveProtocol V) : p.ended.saver? = none := rfl

@[simp] theorem released_none (ports : Ports σ V) (s : σ) : released ports s none = s := rfl

theorem offering?_eq_some {p : SaveProtocol V} {r : Request} {v : V} {m : Measurement}
    (h : p.offering? r = some (v, m)) : p.phase = .awaitMeasurement v ∧ r = .measurement m := by
  cases r with
  | description owner => cases h
  | measurement m' =>
    obtain ⟨phase, session, measurements⟩ := p
    cases phase with
    | awaitMeasurement saver =>
      cases h
      exact ⟨rfl, rfl⟩
    | _ => cases h

/-! ## Running the calls -/

variable (ports : Ports σ V) (p : SaveProtocol V) (s : σ)

theorem run_outside (x : Step σ α) :
    run (outside x) (p, s) = ((run x s).1, p, (run x s).2) := rfl

theorem run_phase? : run phase? (p, s) = (.ok p.phase, p, s) := rfl

theorem run_setPhase (phase : Phase V) :
    run (setPhase phase) (p, s) = (.ok (), { p with phase }, s) := rfl

theorem run_abandon :
    run (abandon ports) (p, s) = (.ok (), p.ended, released ports s p.saver?) := by
  obtain ⟨phase, session, measurements⟩ := p
  rw [abandon, run_bind_ok (run_phase? _ _), run_bind_ok (run_setPhase _ _ _)]
  cases phase with
  | awaitMeasurement v => rfl
  | _ => rfl

theorem run_refuse (method : String) : run (refuse ports method : Step (SaveProtocol V × σ) α) (p, s) =
    (.error (.unexpectedCall method p.phase.name), p.ended, released ports s p.saver?) := by
  rw [refuse, run_bind_ok (run_phase? _ _), run_bind_ok (run_abandon _ _ _), run_throw]

theorem run_close : run (close ports) (p, s) =
    match p.saver? with
    | some v => ((run (ports.closeSaver v) s).1, p.ended, (run (ports.closeSaver v) s).2)
    | none => (.ok (), p.ended, s) := by
  obtain ⟨phase, session, measurements⟩ := p
  rw [close, run_bind_ok (run_phase? _ _), run_bind_ok (run_setPhase _ _ _)]
  cases phase with
  | awaitMeasurement v => rfl
  | _ => rfl

/-- Only a fresh stream takes a description. Names that are not valid end it, and so does
a failure to open a saver. -/
theorem run_addDescription (owner : Instance) : run (addDescription ports owner) (p, s) =
    match p.phase with
    | .awaitDescription =>
      match owner.validate with
      | .error e => (.error e, p.ended, s)
      | .ok _ =>
        match run (ports.openSaver owner) s with
        | (.error e, t) => (.error e, p.ended, t)
        | (.ok v, t) => (.ok (ports.session v),
            { p with phase := .awaitMeasurement v, session := some (ports.session v) }, t)
    | phase => (.error (.unexpectedCall "add_description" phase.name), p.ended,
        released ports s p.saver?) := by
  obtain ⟨phase, session, measurements⟩ := p
  rw [addDescription, run_bind_ok (run_phase? _ _)]
  cases phase with
  | awaitDescription =>
    simp only
    rw [run_bind_ok (run_setPhase _ _ _), run_bind, run_ofExcept]
    cases owner.validate with
    | error e => rfl
    | ok u =>
      simp only
      rw [run_bind, run_outside]
      cases run (ports.openSaver owner) s with
      | mk r t => cases r <;> rfl
  | awaitMeasurement v => exact run_refuse _ _ _ _
  | finished => exact run_refuse _ _ _ _

/-- A measurement is saved, put to the rates if that succeeds, and counted if both do. -/
theorem run_addMeasurement (m : Measurement) : run (addMeasurement ports m) (p, s) =
    match p.phase with
    | .awaitMeasurement v =>
      match run (ports.save v m) s with
      | (.error e, t) => (.error e, p, t)
      | (.ok _, t) =>
        match run (ports.put (ports.session v) m) t with
        | (.error e, u) => (.error e, p, u)
        | (.ok _, u) => (.ok (), { p with measurements := p.measurements + 1 }, u)
    | phase => (.error (.unexpectedCall "add_measurement" phase.name), p.ended,
        released ports s p.saver?) := by
  obtain ⟨phase, session, measurements⟩ := p
  rw [addMeasurement, run_bind_ok (run_phase? _ _)]
  cases phase with
  | awaitMeasurement v =>
    simp only
    rw [run_bind, run_outside]
    cases run (ports.save v m) s with
    | mk r t =>
      cases r with
      | error e => rfl
      | ok u =>
        simp only
        rw [run_bind, run_outside]
        cases run (ports.put (ports.session v) m) t with
        | mk r t => cases r <;> rfl
  | awaitDescription => exact run_refuse _ _ _ _
  | finished => exact run_refuse _ _ _ _

/-! ## Surroundings seen in part -/

section
variable {τ : Type} {φ : σ → τ}

/-- The ports do to what `φ` leaves of the surroundings what they do to these. -/
structure PortsAlong (φ : σ → τ) (ports : Ports σ V) (ports' : Ports τ V) : Prop where
  openSaver owner : Step.Along φ (ports.openSaver owner) (ports'.openSaver owner)
  session v : ports'.session v = ports.session v
  save v m : Step.Along φ (ports.save v m) (ports'.save v m)
  closeSaver v : Step.Along φ (ports.closeSaver v) (ports'.closeSaver v)
  put s m : Step.Along φ (ports.put s m) (ports'.put s m)

theorem along_outside {x : Step σ α} {y : Step τ α} (h : Step.Along φ x y) :
    Step.Along (Prod.map id φ) (outside x : Step (SaveProtocol V × σ) α) (outside y) := by
  rintro ⟨p, s⟩
  rw [run_outside, Prod.map_apply, run_outside, h s]
  rfl

theorem along_phase? : Step.Along (Prod.map id φ) (phase? : Step (SaveProtocol V × σ) (Phase V)) phase? :=
  fun _ => rfl

theorem along_setPhase (phase : Phase V) :
    Step.Along (Prod.map id φ) (setPhase phase : Step (SaveProtocol V × σ) Unit) (setPhase phase) :=
  along_modify fun _ => rfl

variable {ports} {ports' : Ports τ V} (h : PortsAlong φ ports ports')
include h

theorem along_abandon : Step.Along (Prod.map id φ) (abandon ports) (abandon ports') := by
  refine along_phase?.bind fun phase => (along_setPhase _).bind fun _ => ?_
  cases phase with
  | awaitMeasurement v => exact (along_outside (h.closeSaver v)).attempt.discard
  | _ => exact along_pure _ _

theorem along_refuse (method : String) :
    Step.Along (Prod.map id φ) (refuse ports method : Step _ α) (refuse ports' method) :=
  along_phase?.bind fun _ => (along_abandon h).bind fun _ => along_throw _ _

theorem along_close : Step.Along (Prod.map id φ) (close ports) (close ports') := by
  refine along_phase?.bind fun phase => (along_setPhase _).bind fun _ => ?_
  cases phase with
  | awaitMeasurement v => exact along_outside (h.closeSaver v)
  | _ => exact along_pure _ _

theorem along_addDescription (owner : Instance) :
    Step.Along (Prod.map id φ) (addDescription ports owner) (addDescription ports' owner) := by
  refine along_phase?.bind fun phase => ?_
  cases phase with
  | awaitDescription =>
    refine (along_setPhase _).bind fun _ => (along_ofExcept _ _).bind fun _ => ?_
    refine (along_outside (h.openSaver owner)).bind fun v => ?_
    simp only [h.session]
    refine Along.bind ?_ fun _ => along_pure _ _
    exact along_modify fun _ => rfl
  | _ => exact along_refuse h _

theorem along_addMeasurement (m : Measurement) :
    Step.Along (Prod.map id φ) (addMeasurement ports m) (addMeasurement ports' m) := by
  refine along_phase?.bind fun phase => ?_
  cases phase with
  | awaitMeasurement v =>
    simp only [h.session]
    refine (along_outside (h.save v m)).bind fun _ => ?_
    exact (along_outside (h.put _ m)).bind fun _ => along_modify fun _ => rfl
  | _ => exact along_refuse h _

/-- A stream does the same, whatever of its surroundings does not matter to its ports. -/
theorem along_handle (r : Request) :
    Step.Along (Prod.map id φ) (handle ports r) (handle ports' r) := by
  cases r with
  | description owner => exact (along_addDescription h owner).discard
  | measurement m => exact along_addMeasurement h m

end

end HeapTelemetry.SaveProtocol
