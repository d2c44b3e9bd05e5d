import HeapTelemetry.Proofs.Queries

/-! What it means for a storage to be durable: an invariant of what was saved and who
saves is kept by every operation, and what could be read back of a session stays as it is
unless something is saved of it. -/

namespace HeapTelemetry.Storage
open Step
variable {B W : Type}

/-- The storage on a device that gives these answers next. -/
def expecting (answers : List Verdict) (st : Storage B) : Storage B :=
  { st with disk := st.disk.facing answers }

theorem expecting_nil {st : Storage B} (h : st.disk.verdicts = []) : st.expecting [] = st := by
  rw [expecting, Disk.facing_of_granting h]

variable [Backend B W]

/-- A report that could be read back of a session still can. -/
def Persists (s : Session) (st st' : Storage B) : Prop :=
  ∀ window r, st.answer window none s = .ok r → st'.answer window none s = .ok r

theorem Persists.refl (s : Session) (st : Storage B) : Persists s st st := fun _ _ h => h

/-- What a saver's offer adds to what was saved. -/
def taken (v : Saver W) (m : Measurement) : Except Error Unit → List (Session × Measurement)
  | .ok _ => [(v.session, m)]
  | .error _ => []

/-- The invariant of what was `saved` and of the `savers` there are. `Inv n` allows for
`n` more savers to be closed. The device grants what a save asks of it; it gives any answers
to what opens and closes a saver. -/
structure Durable (dataDir : Path)
    (Inv : Nat → List (Session × Measurement) → List (Saver W) → Storage B → Prop) : Prop where
  locate (s : Session) (x : B × Disk) : (run (Backend.locate s) x).2 = x
  granting {n saved savers st} : Inv n saved savers st → st.disk.verdicts = []
  issued {n saved savers st} : Inv n saved savers st → ∀ e ∈ saved, e.1 ∈ st.registry.issued
  fewer {n saved savers st} : Inv (n + 1) saved savers st → Inv n saved savers st
  perm {n saved savers savers' st} : Inv n saved savers st → savers.Perm savers' →
    Inv n saved savers' st
  lifecycle {n saved savers st} (l : Lifecycle) : Inv n saved savers st →
    Inv n saved savers { st with lifecycle := l }
  setClock {n saved savers st} (time : Int64) : Inv n saved savers st →
    Inv n saved savers { st with registry := st.registry.setClock time }
  save {n saved savers st} : Inv n saved savers st → ∀ v ∈ savers, ∀ m,
    let r := run (Storage.save v m) st
    Inv n (saved ++ taken v m r.1) savers r.2 ∧ r.2.registry = st.registry ∧
      ∀ s ∈ st.registry.issued, (s = v.session → r.1.toOption = none) → Persists s st r.2
  openSaver {n saved savers st} : Inv n saved savers st → ∀ answers owner,
    let r := run (Storage.openSaver owner) (st.expecting answers)
    let st' := r.2.expecting []
    Inv n saved (r.1.toOption.toList ++ savers) st' ∧
      ∀ s ∈ st.registry.issued, s ∈ st'.registry.issued ∧ Persists s st st'
  closeSaver {n saved v savers st} : Inv (n + 1) saved (v :: savers) st → ∀ answers,
    let st' := (run (Storage.closeSaver v) (st.expecting answers)).2.expecting []
    Inv n saved savers st' ∧ st'.registry.issued = st.registry.issued ∧
      ∀ s ∈ st.registry.issued, Persists s st st'
  shutDown {n saved savers st} : Inv n saved savers st →
    let st' := (run Storage.shutDown st).2
    Inv n saved savers st' ∧ ∀ s ∈ st.registry.issued, Persists s st st'
  reopen {n saved savers st} : Inv n saved savers st → ∀ syncWrite, ∃ st' disk,
    openAt dataDir syncWrite st.registry st.disk = (.ok st', disk) ∧ Inv n saved [] st'

/-- A reader that is let in, or not, changes only who is counted. -/
theorem openLoader_lifecycle {st : Storage B} {s : Session}
    (hlocate : (run (Backend.locate s) (st.backend, st.disk)).2 = (st.backend, st.disk)) :
    ∃ lifecycle, (run (Storage.openLoader s) st).2 = { st with lifecycle } := by
  rw [openLoader_eq]
  split
  · exact ⟨st.lifecycle, rfl⟩
  split
  · exact ⟨st.lifecycle, rfl⟩
  cases hrun : run (Backend.locate s) (st.backend, st.disk) with
  | mk r x =>
    rw [hrun] at hlocate
    subst hlocate
    cases r with
    | error e => exact ⟨st.lifecycle, rfl⟩
    | ok u => exact ⟨st.lifecycle.enter, rfl⟩

end HeapTelemetry.Storage
