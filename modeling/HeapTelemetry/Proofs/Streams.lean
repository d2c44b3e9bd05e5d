import HeapTelemetry.Collector
import HeapTelemetry.Proofs.Protocol

/-! What a stream does to its collector, and how the collector's own operations run. A
measurement goes to storage and then to the rates, a description opens a saver, and
whatever ends the stream closes the saver that it holds. -/

namespace HeapTelemetry.Collector
open Step SaveProtocol
variable {B W : Type}

theorem run_onStorage {α : Type} (x : Step (Storage B) α) (c : Collector B) :
    run (onStorage x) c = ((run x c.storage).1, { c with storage := (run x c.storage).2 }) := rfl

variable [Backend B W]

theorem run_metrics (cancelAfter : Option Nat) (s : Session) (c : Collector B) :
    run (metrics cancelAfter s) c =
      ((run (Engine.metrics cancelAfter s) (c.engine, c.storage)).1,
        { c with
          engine := (run (Engine.metrics cancelAfter s) (c.engine, c.storage)).2.1
          storage := (run (Engine.metrics cancelAfter s) (c.engine, c.storage)).2.2 }) := rfl

theorem run_shutDown (c : Collector B) : (run shutDown c).2 =
    { c with
      shuttingDown := true, storage := (run Storage.shutDown c.storage).2
      engine := { c.engine with
        feed := c.engine.feed.cancelAll, cache := c.engine.cache.map TimedCache.stopCollecting } } :=
  rfl

/-! ## Streams -/

/-- The collector after a saver was closed, if there was one. -/
def released (c : Collector B) : Option (Saver W) → Collector B
  | some v => { c with storage := (run (Storage.closeSaver v) c.storage).2 }
  | none => c

theorem released_ports (c : Collector B) (saver : Option (Saver W)) :
    SaveProtocol.released ports c saver = c.released saver := by
  cases saver <;> rfl

theorem run_close (p : SaveProtocol (Saver W)) (c : Collector B) :
    (run (close ports) (p, c)).2 = (p.ended, c.released p.saver?) := by
  rw [SaveProtocol.run_close, ← released_ports]
  cases p.saver? <;> rfl

/-- The collector after a measurement was offered: it is put to the rates if the storage
accepts it. -/
def offered (c : Collector B) (v : Saver W) (m : Measurement) : Collector B :=
  match run (Storage.save v m) c.storage with
  | (.ok _, st) => { c with storage := st, engine := (run (Engine.put v.session m) c.engine).2 }
  | (.error _, st) => { c with storage := st }

/-- The answer to an offer is the first failure, of the storage or of the rates. -/
def offering (c : Collector B) (v : Saver W) (m : Measurement) : Except Error Unit :=
  (run (Storage.save v m) c.storage).1.bind fun _ => (run (Engine.put v.session m) c.engine).1

theorem run_offering {p : SaveProtocol (Saver W)} {r : Request} {v : Saver W}
    {m : Measurement} (h : p.offering? r = some (v, m)) (c : Collector B) : ∃ p',
    run (handle ports r) (p, c) = (c.offering v m, p', c.offered v m) ∧ p'.saver? = p.saver? := by
  obtain ⟨hphase, rfl⟩ := offering?_eq_some h
  have hsave : run ((ports : Ports (Collector B) (Saver W)).save v m) c =
      ((run (Storage.save v m) c.storage).1, { c with storage := (run (Storage.save v m) c.storage).2 }) :=
    rfl
  rw [handle, run_addMeasurement, hphase, offered, offering]
  simp only [hsave]
  cases run (Storage.save v m) c.storage with
  | mk r st =>
    cases r with
    | error e => exact ⟨p, rfl, rfl⟩
    | ok u =>
      have hput : run ((ports : Ports (Collector B) (Saver W)).put v.session m)
          { c with storage := st } = ((run (Engine.put v.session m) c.engine).1, { c with
            storage := st, engine := (run (Engine.put v.session m) c.engine).2 }) := rfl
      have hsession : (ports : Ports (Collector B) (Saver W)).session v = v.session := rfl
      simp only [hsession, hput, Except.bind]
      cases (run (Engine.put v.session m) c.engine).1 with
      | error e => exact ⟨p, rfl, rfl⟩
      | ok u => exact ⟨{ p with measurements := p.measurements + 1 }, by rw [hphase], rfl⟩

/-- Any other request ends the stream or opens a saver for it. -/
theorem run_other {p : SaveProtocol (Saver W)} {r : Request} (h : p.offering? r = none)
    (c : Collector B) :
    (run (handle ports r) (p, c)).2 = (p.ended, c.released p.saver?) ∨
      p.saver? = none ∧ ∃ owner p', (run (handle ports r) (p, c)).2 =
          (p', { c with storage := (run (Storage.openSaver owner) c.storage).2 }) ∧
        p'.saver? = (run (Storage.openSaver owner) c.storage).1.toOption := by
  obtain ⟨phase, session, measurements⟩ := p
  cases r with
  | measurement m =>
    rw [handle, run_addMeasurement, released_ports]
    cases phase with
    | awaitMeasurement v => cases h
    | _ => exact Or.inl rfl
  | description owner =>
    rw [handle, run_discard, run_addDescription, released_ports]
    cases phase with
    | awaitDescription =>
      have hopen : run ((ports : Ports (Collector B) (Saver W)).openSaver owner) c =
          ((run (Storage.openSaver owner) c.storage).1,
            { c with storage := (run (Storage.openSaver owner) c.storage).2 }) := rfl
      simp only [hopen]
      cases owner.validate with
      | error e => exact Or.inl rfl
      | ok u =>
        refine Or.inr ⟨rfl, owner, ?_⟩
        cases run (Storage.openSaver owner) c.storage with
        | mk r st => cases r <;> exact ⟨_, rfl, rfl⟩
    | _ => exact Or.inl rfl

end HeapTelemetry.Collector
