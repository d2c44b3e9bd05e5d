import HeapTelemetry.Proofs.Storage.Admission
import HeapTelemetry.Proofs.Storage.Shutdown

/-! A storage with everybody who comes to it at the same time: savers, loaders, and those
that shut it down. Their operations are cut into steps, which are interleaved in any way, at
the lifecycle as well as inside. A visitor whose steps are not interleaved does at once what
the operation of the storage does. -/

namespace HeapTelemetry
open Step

/-! ## Errands -/

/-- What a visitor of a storage is about to do, or is doing. -/
inductive Errand (W : Type)
  | record (owner : Instance)
  | prepare (s : Session)
  | saving (v : Saver W)
  | finished (v : Saver W)
  | consult (s : Session)
  | locate (s : Session)
  | reading (s : Session)
  | quit
  | closed
  | ended

namespace Errand
variable {B W : Type} [Backend B W]

/-- The next deed of an errand, and what is left to do. Reading is no deed, as it changes
nothing; a session is saved as long as its visitor likes. -/
def deed : Errand W → Step (Storage B) (Errand W)
  | record owner => return prepare (← Storage.onRegistry (Registry.startSession owner))
  | prepare s => return saving (← Storage.prepare s)
  | saving v => do
    discard (Step.attempt (Storage.onBackend (Backend.finish v.session v.writer)))
    return finished v
  | finished v => do
    Storage.onRegistry (Registry.stopSession v.session)
    return ended
  | consult s => do
    discard (Step.ofExcept ((← get).registry.lookup s))
    return locate s
  | locate s => do
    Storage.onBackend (Backend.locate s)
    return reading s
  | quit => do
    discard (Step.attempt (Storage.onBackend Backend.close))
    return closed
  | e => return e

/-- What is left of an errand after its next deed; one that failed has ended. -/
def after (e : Errand W) (st : Storage B) : Errand W := (run e.deed st).1.toOption.getD ended

/-- Has come to shut the storage down. -/
def isQuit : Errand W → Bool
  | quit | closed => true
  | _ => false

/-- A deed upholds what the operations of the registry and of the backend uphold. Only who has
come to shut the storage down closes the backend. -/
theorem upholds_deed {I : Storage B → Prop} (e : Errand W)
    (hregistry : ∀ {α : Type} (x : Step Registry α),
      Upholds I (fun _ => True) (Storage.onRegistry x))
    (hcreate : ∀ s, Upholds I (fun _ => True) (Storage.onBackend (Backend.create s)))
    (hfinish : ∀ s w, Upholds I (fun _ => True) (Storage.onBackend (Backend.finish s w)))
    (hlocate : ∀ s, Upholds I (fun _ => True) (Storage.onBackend (Backend.locate s)))
    (hclose : e.isQuit = true → Upholds I (fun _ => True) (Storage.onBackend Backend.close)) :
    Upholds I (fun _ => True) e.deed := by
  cases e with
  | record owner => exact (hregistry _).bind fun _ => upholds_pure _
  | prepare s =>
    refine Upholds.bind ?_ fun _ => upholds_pure _
    exact (hcreate s).attempt_bind (fun _ => upholds_pure _) fun _ _ =>
      ((hregistry _).attempt (Q := fun _ => True)).discard.bind fun _ => upholds_throw trivial
  | saving v =>
    exact ((hfinish v.session v.writer).attempt (Q := fun _ => True)).discard.bind fun _ =>
      upholds_pure _
  | finished v => exact (hregistry _).bind fun _ => upholds_pure _
  | consult s =>
    exact upholds_get.bind fun _ => (upholds_ofExcept fun _ _ => trivial).discard.bind fun _ =>
      upholds_pure _
  | locate s => exact (hlocate s).bind fun _ => upholds_pure _
  | quit => exact ((hclose rfl).attempt (Q := fun _ => True)).discard.bind fun _ => upholds_pure _
  | _ => exact upholds_pure _

/-- No deed of an errand is one of the lifecycle. -/
theorem lifecycle_deed (e : Errand W) (st : Storage B) :
    (run e.deed st).2.lifecycle = st.lifecycle := by
  have hbackend : ∀ {α : Type} (x : Step (B × Disk) α), Upholds
      (fun s : Storage B => s.lifecycle = st.lifecycle) (fun _ => True) (Storage.onBackend x) :=
    fun x => (upholds_true x).on (fun _ _ => trivial) fun _ _ hs _ => hs
  have hdeed : Upholds (fun s : Storage B => s.lifecycle = st.lifecycle) (fun _ => True) e.deed :=
    e.upholds_deed (fun x => (upholds_true x).on (fun _ _ => trivial) fun _ _ hs _ => hs)
      (fun _ => hbackend _) (fun _ _ => hbackend _) (fun _ => hbackend _) fun _ => hbackend _
  exact (hdeed st rfl).1

theorem isQuit_after (e : Errand W) (st : Storage B) : (e.after st).isQuit = e.isQuit := by
  have hthen : ∀ {α : Type} (x : Step (Storage B) α) (f : α → Errand W),
      (∀ a, (f a).isQuit = false) →
        ((run (do return f (← x)) st).1.toOption.getD ended).isQuit = false := by
    intro α x f hf
    rw [run_bind]
    cases run x st with
    | mk r t =>
      cases r with
      | ok a => exact hf a
      | error e => rfl
  cases e with
  | record owner => exact hthen _ _ fun _ => rfl
  | prepare s => exact hthen _ _ fun _ => rfl
  | saving v => exact hthen _ _ fun _ => rfl
  | finished v => exact hthen _ _ fun _ => rfl
  | consult s =>
    rw [after, deed, run_bind_ok (run_get st)]
    exact hthen _ _ fun _ => rfl
  | locate s => exact hthen _ _ fun _ => rfl
  | _ => rfl

end Errand

/-! ## Visitors -/

/-- A visitor is somewhere at the gate of the storage, and on an errand. -/
structure Visitor (W : Type) where
  gate : Lifecycle.Task
  errand : Errand W

namespace Visitor
variable {W : Type}

/-- Errands are done inside; the storage is closed when the wait for the others is over. -/
def isAtWork (v : Visitor W) : Bool := v.gate == if v.errand.isQuit then .stopped else .inside

/-- The saver that a visitor has open. -/
def saver? : Visitor W → Option (Saver W)
  | ⟨.inside, .saving s⟩ => some s
  | _ => none

end Visitor

/-- A storage and its visitors, in the order of their coming. -/
structure Visited (B W : Type) where
  storage : Storage B
  notices : Nat
  visitors : List (Visitor W)

/-- What happens at a storage: a visitor comes on an errand, makes a step at the gate, does a
deed of its errand, or saves a measurement. -/
inductive Visited.Event
  | record (owner : Instance)
  | consult (s : Session)
  | quit
  | gate (place : Nat)
  | work (place : Nat)
  | save (place : Nat) (m : Measurement)

namespace Visited
variable {B W : Type} [Backend B W]

def opened (st : Storage B) : Visited B W := ⟨st, 0, []⟩

/-- What visitors share with the others at the gate. -/
def shared (x : Visited B W) : Lifecycle.Shared := ⟨x.storage.lifecycle, x.notices⟩

def happen (x : Visited B W) : Event → Visited B W
  | .record owner => { x with visitors := x.visitors ++ [⟨.arriving, .record owner⟩] }
  | .consult s => { x with visitors := x.visitors ++ [⟨.arriving, .consult s⟩] }
  | .quit => { x with visitors := x.visitors ++ [⟨.stopping, .quit⟩] }
  | .gate place =>
    match x.visitors[place]? with
    | some v =>
      let (gate, shared) := v.gate.next x.shared
      ⟨{ x.storage with lifecycle := shared.lifecycle }, shared.notices,
        x.visitors.set place { v with gate }⟩
    | none => x
  | .work place =>
    match x.visitors[place]? with
    | some v =>
      if v.isAtWork then
        { x with
          storage := (Step.run v.errand.deed x.storage).2
          visitors := x.visitors.set place { v with errand := v.errand.after x.storage } }
      else x
    | none => x
  | .save place m =>
    match x.visitors[place]?.bind Visitor.saver? with
    | some s => { x with storage := (Step.run (Storage.save s m) x.storage).2 }
    | none => x

def run (events : List Event) (x : Visited B W) : Visited B W := events.foldl happen x

/-- The visitors as their steps at the gate show them. -/
def crowd (x : Visited B W) : Lifecycle.Crowd := ⟨x.shared, x.visitors.map Visitor.gate⟩

end Visited

/-- What an event is at the gate. -/
def Visited.Event.gates : Visited.Event → List Lifecycle.Event
  | record _ | consult _ => [.acquire]
  | quit => [.shutDown]
  | gate place => [.step place]
  | work _ | save _ _ => []

namespace Visited
variable {B W : Type} [Backend B W]

/-- At the gate nothing is seen of what the visitors do inside. -/
theorem crowd_happen (x : Visited B W) (e : Event) :
    (x.happen e).crowd = Lifecycle.Crowd.run e.gates x.crowd := by
  cases e with
  | record owner | consult s | quit =>
    simp only [happen, crowd, List.map_append]
    rfl
  | gate place =>
    have hgate : x.crowd.tasks[place]? = x.visitors[place]?.map Visitor.gate := List.getElem?_map
    simp only [Event.gates, Lifecycle.Crowd.run, List.foldl_cons, List.foldl_nil,
      Lifecycle.Crowd.happen, happen, hgate]
    cases x.visitors[place]? with
    | none => rfl
    | some v =>
      simp only [crowd, List.map_set]
      rfl
  | work place =>
    simp only [happen]
    cases hv : x.visitors[place]? with
    | none => rfl
    | some v =>
      simp only
      split
      · -- the visitor stays where it is at the gate
        obtain ⟨hplace, rfl⟩ := List.getElem?_eq_some_iff.1 hv
        have hsame : (x.visitors.map Visitor.gate).set place x.visitors[place].gate =
            x.visitors.map Visitor.gate := by rw [← List.map_set, List.set_getElem_self]
        simp only [crowd, shared, Errand.lifecycle_deed, List.map_set, hsame]
        rfl
      · rfl
  | save place m =>
    simp only [happen]
    split
    · rfl
    · rfl

theorem crowd_run (events : List Event) (x : Visited B W) :
    (run events x).crowd = Lifecycle.Crowd.run (events.flatMap Event.gates) x.crowd := by
  induction events generalizing x with
  | nil => rfl
  | cons e events ih =>
    show (run events (x.happen e)).crowd = _
    rw [ih, crowd_happen, List.flatMap_cons, Lifecycle.Crowd.run_append]

/-! ## Visitors that are not interleaved -/

variable (st : Storage B) (notices : Nat) (visitors : List (Visitor W)) (v : Visitor W)

/-- A step at the gate of the visitor who came last. -/
theorem gate_last : happen ⟨st, notices, visitors ++ [v]⟩ (.gate visitors.length) =
    ⟨{ st with lifecycle := (v.gate.next ⟨st.lifecycle, notices⟩).2.lifecycle },
      (v.gate.next ⟨st.lifecycle, notices⟩).2.notices,
      visitors ++ [{ v with gate := (v.gate.next ⟨st.lifecycle, notices⟩).1 }]⟩ := by
  simp [happen, shared]

variable {st notices visitors v}

theorem work_last (hwork : v.isAtWork = true) {left : Except Error (Errand W)} {st' : Storage B}
    (h : Step.run v.errand.deed st = (left, st')) :
    happen ⟨st, notices, visitors ++ [v]⟩ (.work visitors.length) =
      ⟨st', notices, visitors ++ [{ v with errand := left.toOption.getD .ended }]⟩ := by
  simp [happen, hwork, Errand.after, h]

theorem idle_last (hidle : v.isAtWork = false) :
    happen ⟨st, notices, visitors ++ [v]⟩ (.work visitors.length) =
      ⟨st, notices, visitors ++ [v]⟩ := by
  simp [happen, hidle]

/-- Whoever gets to the end of the gate at once is let in there, or has left again. -/
theorem enter_last (st : Storage B) (notices : Nat) (visitors : List (Visitor W))
    (errand : Errand W) :
    run [.gate visitors.length, .gate visitors.length, .gate visitors.length]
        ⟨st, notices, visitors ++ [⟨.arriving, errand⟩]⟩ =
      if st.lifecycle.shutDown then ⟨st, notices, visitors ++
        [⟨if st.lifecycle.inFlight + 1 = 1 then .noticing else .gone, errand⟩]⟩
      else ⟨{ st with lifecycle := st.lifecycle.enter }, notices,
        visitors ++ [⟨.inside, errand⟩]⟩ := by
  obtain ⟨backend, disk, registry, inFlight, shutDown⟩ := st
  simp only [run, List.foldl_cons, List.foldl_nil, gate_last, Lifecycle.Task.next, Lifecycle.enter]
  cases shutDown <;> rfl

/-- Who was refused does nothing more inside. -/
theorem refused_last (st : Storage B) (notices : Nat) (visitors : List (Visitor W))
    (errand : Errand W) (hquit : errand.isQuit = false) (n : Nat) :
    (run [.work visitors.length, .work visitors.length, .gate visitors.length]
      ⟨st, notices, visitors ++ [⟨if n = 1 then .noticing else .gone, errand⟩]⟩).storage = st := by
  have hidle : Visitor.isAtWork (⟨if n = 1 then .noticing else .gone, errand⟩ : Visitor W) =
      false := by
    rw [Visitor.isAtWork, hquit]
    split <;> rfl
  simp only [run, List.foldl_cons, List.foldl_nil]
  rw [idle_last hidle, idle_last hidle, gate_last]
  split <;> rfl

/-- What is done at once after a refusal or an admission. -/
theorem run_admitted (st : Storage B) (x : Step (Storage B) α) :
    Step.run (do Storage.onLifecycle Lifecycle.acquire; Storage.releasingOnError x) st =
      if st.lifecycle.shutDown then (.error .shutDown, st)
      else Step.run (Storage.releasingOnError x) { st with lifecycle := st.lifecycle.enter } := by
  rw [run_bind, Storage.run_onLifecycle, Lifecycle.run_acquire]
  cases st.lifecycle.shutDown <;> rfl

/-- A saver that is opened with nobody between its steps is opened at once. -/
theorem openSaver_alone (x : Visited B W) (owner : Instance) :
    let place := x.visitors.length
    let entered := run [.record owner, .gate place, .gate place, .gate place, .work place,
      .work place] x
    match Step.run (Storage.openSaver owner) x.storage with
    | (.ok v, st) => entered = ⟨st, x.notices, x.visitors ++ [⟨.inside, .saving v⟩]⟩
    | (.error _, st) => (entered.happen (.gate place)).storage = st := by
  obtain ⟨st, notices, visitors⟩ := x
  have hentered : run [.record owner, .gate visitors.length, .gate visitors.length,
      .gate visitors.length, .work visitors.length, .work visitors.length]
        ⟨st, notices, visitors⟩ = _ :=
    congrArg (run [.work visitors.length, .work visitors.length])
      (enter_last st notices visitors (.record owner))
  simp only
  rw [Storage.openSaver, run_admitted, hentered]
  by_cases hshut : st.lifecycle.shutDown = true
  · simp only [if_pos hshut]
    exact refused_last st notices visitors (.record owner) rfl _
  · simp only [if_neg hshut]
    generalize { st with lifecycle := st.lifecycle.enter } = st
    simp only [run, List.foldl_cons, List.foldl_nil]
    cases hstart : Step.run (Storage.onRegistry (Registry.startSession owner)) st with
    | mk started st' =>
      cases started with
      | error e =>
        rw [Storage.run_releasingOnError_error (run_bind_error hstart),
          work_last rfl (run_bind_error hstart), work_last rfl rfl, gate_last]
        rfl
      | ok s =>
        rw [work_last rfl (run_bind_ok hstart)]
        cases hprepare : Step.run (Storage.prepare s : Step (Storage B) (Saver W)) st' with
        | mk prepared st'' =>
          cases prepared with
          | error e =>
            rw [Storage.run_releasingOnError_error ((run_bind_ok hstart).trans hprepare),
              work_last rfl (run_bind_error hprepare), gate_last]
            rfl
          | ok v =>
            rw [Storage.run_releasingOnError_ok ((run_bind_ok hstart).trans hprepare),
              work_last rfl (run_bind_ok hprepare)]
            rfl

/-- And so is a loader. -/
theorem openLoader_alone (x : Visited B W) (s : Session) :
    let place := x.visitors.length
    let entered := run [.consult s, .gate place, .gate place, .gate place, .work place,
      .work place] x
    match Step.run (Storage.openLoader s) x.storage with
    | (.ok _, st) => entered = ⟨st, x.notices, x.visitors ++ [⟨.inside, .reading s⟩]⟩
    | (.error _, st) => (entered.happen (.gate place)).storage = st := by
  obtain ⟨st, notices, visitors⟩ := x
  have hentered : run [.consult s, .gate visitors.length, .gate visitors.length,
      .gate visitors.length, .work visitors.length, .work visitors.length]
        ⟨st, notices, visitors⟩ = _ :=
    congrArg (run [.work visitors.length, .work visitors.length])
      (enter_last st notices visitors (.consult s))
  simp only
  rw [Storage.openLoader_eq, hentered]
  by_cases hshut : st.lifecycle.shutDown = true
  · simp only [if_pos hshut]
    exact refused_last st notices visitors (.consult s) rfl _
  · simp only [if_neg hshut, run, List.foldl_cons, List.foldl_nil]
    have hconsult : ∀ st : Storage B, Step.run (Errand.consult s : Errand W).deed st =
        ((st.registry.lookup s).map fun _ => .locate s, st) := by
      intro st
      rw [Errand.deed, run_bind_ok (run_get _), run_bind, run_discard, run_ofExcept]
      cases st.registry.lookup s <;> rfl
    rw [work_last rfl (hconsult _)]
    cases st.registry.lookup s with
    | error e =>
      rw [work_last rfl rfl, gate_last]
      rfl
    | ok entry =>
      simp only
      cases hlocate : Step.run (Backend.locate s) (st.backend, st.disk) with
      | mk located x =>
        have hdeed : Step.run (Errand.locate s : Errand W).deed
            { st with lifecycle := st.lifecycle.enter } = (located.map fun _ => .reading s,
              { st with lifecycle := st.lifecycle.enter }.holding x) := by
          rw [Errand.deed, run_bind, Storage.run_onBackend, hlocate]
          cases located <;> rfl
        rw [work_last rfl hdeed]
        cases located with
        | ok u => rfl
        | error e =>
          simp only [gate_last]
          rfl

/-- A saver that is closed at once is closed as by the storage, whatever fails. -/
theorem closeSaver_alone (st : Storage B) (notices : Nat) (visitors : List (Visitor W))
    (v : Saver W) :
    let place := visitors.length
    (run [.work place, .work place, .gate place]
      ⟨st, notices, visitors ++ [⟨.inside, .saving v⟩]⟩).storage =
        (Step.run (Storage.closeSaver v) st).2 := by
  have hfinish : Step.run (Errand.saving v).deed st = (.ok (.finished v),
      st.holding (Step.run (Backend.finish v.session v.writer) (st.backend, st.disk)).2) := rfl
  have hstop : ∀ st : Storage B, ∃ left, Step.run (Errand.finished v).deed st = (left,
      { st with registry := (Step.run (Registry.stopSession v.session) st.registry).2 }) := by
    intro st
    rw [Errand.deed, run_bind, Storage.run_onRegistry]
    cases Step.run (Registry.stopSession v.session) st.registry with
    | mk stopped registry => cases stopped <;> exact ⟨_, rfl⟩
  obtain ⟨left, hstop⟩ := hstop
    (st.holding (Step.run (Backend.finish v.session v.writer) (st.backend, st.disk)).2)
  rw [Storage.closeSaver_eq]
  simp only [run, List.foldl_cons, List.foldl_nil]
  rw [work_last rfl hfinish, work_last rfl hstop, gate_last]
  rfl

/-- And so is a shutdown, which closes the backend if it finds nobody. -/
theorem shutDown_alone (x : Visited B W) :
    let place := x.visitors.length
    (run [.quit, .gate place, .gate place, .gate place, .work place] x).storage =
      (Step.run (Storage.shutDown : Step (Storage B) Unit) x.storage).2 := by
  obtain ⟨st, notices, visitors⟩ := x
  have hcome : happen (⟨st, notices, visitors⟩ : Visited B W) .quit =
      ⟨st, notices, visitors ++ [⟨.stopping, .quit⟩]⟩ := rfl
  simp only [run, List.foldl_cons, List.foldl_nil, hcome, gate_last, Lifecycle.Task.next]
  rw [Storage.shutDown, run_bind_ok (Storage.run_onLifecycle _ _), run_bind_ok (run_get _)]
  split
  · split
    · rw [work_last rfl rfl]
      rfl
    · contradiction
  · split
    · contradiction
    · rw [idle_last rfl]
      rfl

end Visited

end HeapTelemetry
