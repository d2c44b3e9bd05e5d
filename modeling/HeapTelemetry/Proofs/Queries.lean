import HeapTelemetry.Collector
import HeapTelemetry.Proofs.Storage.Users

/-! What a query does, on any backend: it answers from memory, from the cache, or from
what is read back, and then keeps the answer. -/

namespace HeapTelemetry

/-- What is registered of two parts is registered one after the other. -/
theorem SessionWindows.registerAll_append (xs ys : List (Except Error Measurement))
    (w : SessionWindows) : registerAll (xs ++ ys) w = (registerAll xs w).bind (registerAll ys) := by
  induction xs generalizing w with
  | nil => rfl
  | cons x xs ih =>
    cases x with
    | ok m =>
      rw [List.cons_append, registerAll, registerAll]
      cases w.register m <;> exact ih _
    | error e =>
      rw [List.cons_append, registerAll, registerAll]
      split
      · exact ih w
      · rfl

namespace Engine
open Step
variable {B W : Type} [Backend B W]

/-- The report that is cached under a key. -/
def cached? (e : Engine) (key : String) : Option Report := e.cache.bind fun c => (c.get key).1

/-- The engine after its cache was asked for a key. -/
def asked (e : Engine) (key : String) : Engine :=
  { e with cache := e.cache.map fun c => (c.get key).2 }

/-- The engine after a report was stored under a key. -/
def keeping (e : Engine) (key : String) (report : Report) : Engine :=
  { e with cache := e.cache.map fun c => (c.insert key report).2 }

theorem run_cached_eq (e : Engine) (key : String) :
    run (cached key) e = (.ok (e.cached? key), e.asked key) := by
  obtain ⟨window, resident, feed, cache⟩ := e
  cases cache <;> rfl

/-- What the items of a session are worth to a reader that may be cancelled. -/
def digest (window : Nat) (cancelAfter : Option Nat) (reading : Reading) : Except Error Report :=
  if cancelAfter = some 0 then .error .cancelled
  else (SessionWindows.registerAll (reading.toListUntil cancelAfter)
    (SessionWindows.empty window)).map SessionWindows.compute

/-- Who is cancelled is told so, or has missed nothing. -/
theorem digest_until (window : Nat) (cancelAfter : Option Nat) (reading : Reading) :
    digest window cancelAfter reading = .error .cancelled ∨
      digest window cancelAfter reading = digest window none reading := by
  by_cases hnow : cancelAfter = some 0
  · exact Or.inl (if_pos hnow)
  have hnone : ¬ (none : Option Nat) = some 0 := nofun
  rw [digest, digest, if_neg hnow, if_neg hnone]
  cases reading with
  | failed e => exact Or.inr rfl
  | items records failure =>
    cases cancelAfter with
    | none => exact Or.inr rfl
    | some n =>
      rw [Reading.toListUntil, Reading.toListUntil]
      by_cases hn : n ≤ records.length
      · rw [if_pos hn, SessionWindows.registerAll_append]
        have hall : ∃ rest, (Reading.items records failure).toList = records.take n ++ rest := by
          cases failure with
          | none => exact ⟨records.drop n, (List.take_append_drop n records).symm⟩
          | some e =>
            refine ⟨records.drop n ++ [.error e], ?_⟩
            rw [← List.append_assoc, List.take_append_drop]
            rfl
        obtain ⟨rest, hrest⟩ := hall
        rw [hrest, SessionWindows.registerAll_append]
        cases SessionWindows.registerAll (records.take n) (SessionWindows.empty window) with
        | error e => exact Or.inr rfl
        | ok w => exact Or.inl rfl
      · rw [if_neg hn]
        exact Or.inr rfl

theorem run_replay_eq (window : Nat) (cancelAfter : Option Nat) (s : Session) (st : Storage B) :
    run (replay window cancelAfter s) st =
      match run (Storage.openLoader s) st with
      | (.error e, st) => (.error e, st)
      | (.ok _, st) => (digest window cancelAfter (st.read s), (run Storage.closeLoader st).2) := by
  rw [replay, run_bind]
  cases run (Storage.openLoader s) st with
  | mk r st =>
    cases r with
    | error e => rfl
    | ok u =>
      have hclose : run Storage.closeLoader st = (.ok (), (run Storage.closeLoader st).2) := rfl
      simp only
      rw [run_bind_ok (run_get _), run_bind_ok hclose, digest]
      by_cases hcancel : cancelAfter = some 0
      · simp only [hcancel, ↓reduceIte]
        rfl
      · simp only [hcancel, ↓reduceIte, run_bind, run_pure, run_ofExcept]
        cases SessionWindows.registerAll ((st.read s).toListUntil cancelAfter)
          (SessionWindows.empty window) <;> rfl

theorem run_metrics_eq (e : Engine) (cancelAfter : Option Nat) (s : Session) (st : Storage B) :
    run (metrics cancelAfter s) (e, st) =
      match e.resident.get? s with
      | some w => (.ok w.metrics.1, { e with resident := e.resident.set s w.metrics.2 }, st)
      | none =>
        match e.cached? s.key with
        | some report => (.ok report, e.asked s.key, st)
        | none =>
          match run (replay e.window cancelAfter s) st with
          | (.ok report, st) => (.ok report, (e.asked s.key).keeping s.key report, st)
          | (.error refusal, st) => (.error refusal, e.asked s.key, st) := by
  have honEngine : run (onEngine (cached s.key)) (e, st) =
      (.ok (e.cached? s.key), e.asked s.key, st) := by
    rw [onEngine, run_on, run_cached_eq]
  rw [metrics, run_bind_ok (run_get _)]
  simp only
  cases e.resident.get? s with
  | some w => rfl
  | none =>
    simp only
    rw [run_bind_ok honEngine]
    cases e.cached? s.key with
    | some report => rfl
    | none =>
      simp only
      rw [run_bind, onStorage, run_on]
      cases run (replay e.window cancelAfter s) st with
      | mk r st => cases r <;> rfl

end Engine

namespace Storage
open Step
variable {B W : Type} [Backend B W]

/-- What is read back of a session, as long as readers are let in. -/
def answer (window : Nat) (cancelAfter : Option Nat) (s : Session) (st : Storage B) :
    Except Error Report :=
  (st.registry.lookup s).bind fun _ =>
    (run (Backend.locate s) (st.backend, st.disk)).1.bind fun _ =>
      Engine.digest window cancelAfter (st.read s)

theorem answer_until (window : Nat) (cancelAfter : Option Nat) (s : Session) (st : Storage B) :
    st.answer window cancelAfter s = .error .cancelled ∨
      st.answer window cancelAfter s = st.answer window none s := by
  rw [answer, answer]
  cases st.registry.lookup s with
  | error e => exact Or.inr rfl
  | ok e =>
    cases (run (Backend.locate s) (st.backend, st.disk)).1 with
    | error e => exact Or.inr rfl
    | ok u => exact Engine.digest_until window cancelAfter (st.read s)

/-- Nothing is left of a reader, where finding a session changes nothing. -/
theorem run_replay {s : Session} {st : Storage B}
    (hlocate : (run (Backend.locate s) (st.backend, st.disk)).2 = (st.backend, st.disk))
    (window : Nat) (cancelAfter : Option Nat) :
    run (Engine.replay window cancelAfter s) st =
      (if st.lifecycle.shutDown then .error .shutDown else st.answer window cancelAfter s, st) := by
  rw [Engine.run_replay_eq, openLoader_eq]
  cases hshut : st.lifecycle.shutDown with
  | true => rfl
  | false =>
    simp only [Bool.false_eq_true, ↓reduceIte, answer]
    cases st.registry.lookup s with
    | error e => rfl
    | ok e =>
      simp only
      cases hrun : run (Backend.locate s) (st.backend, st.disk) with
      | mk r x =>
        rw [hrun] at hlocate
        subst hlocate
        cases r <;> rfl

/-- Where finding a session changes nothing, no query changes the storage. -/
theorem run_metrics (hlocate : ∀ (s : Session) (x : B × Disk), (run (Backend.locate s) x).2 = x)
    (e : Engine) (cancelAfter : Option Nat) (s : Session) (st : Storage B) :
    (run (Engine.metrics cancelAfter s) (e, st)).1 = (match e.resident.get? s with
      | some w => .ok w.metrics.1
      | none =>
        match e.cached? s.key with
        | some report => .ok report
        | none =>
          if st.lifecycle.shutDown then .error .shutDown else st.answer e.window cancelAfter s) ∧
      (run (Engine.metrics cancelAfter s) (e, st)).2.2 = st := by
  rw [Engine.run_metrics_eq]
  cases e.resident.get? s with
  | some w => exact ⟨rfl, rfl⟩
  | none =>
    simp only
    cases e.cached? s.key with
    | some report => exact ⟨rfl, rfl⟩
    | none =>
      simp only [run_replay (hlocate s _)]
      cases (if st.lifecycle.shutDown then .error .shutDown else st.answer e.window cancelAfter s) with
      | error refusal => exact ⟨rfl, rfl⟩
      | ok report => exact ⟨rfl, rfl⟩

end Storage
end HeapTelemetry
