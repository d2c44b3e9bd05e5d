import HeapTelemetry.Proofs.Queries
import HeapTelemetry.Proofs.Windows

/-! The engine beside its storage. The resident windows of a session mirror what was
accepted of it, whoever queries or listens meanwhile. -/

namespace HeapTelemetry.Engine
open Step SessionWindows SessionSeries

/-- Of every session that was not forgotten, the windows mirror what was accepted, and it
is resident if anything was. -/
structure Current (accepted : List (Session × Measurement)) (forgotten : List Session)
    (e : Engine) : Prop where
  mirrors : ∀ s, s ∉ forgotten → Mirrors (e.windows s) (replayed e.window (acceptedOf s accepted))
  resident : ∀ s, s ∉ forgotten → acceptedOf s accepted ≠ [] → (e.resident.get? s).isSome

variable {accepted : List (Session × Measurement)} {forgotten : List Session} {e : Engine}

theorem current_initial (window feedDepth : Nat) (cache : Option TimedCache)
    (h : ∀ x ∈ accepted, x.1 ∈ forgotten) :
    Current accepted forgotten (initial window feedDepth cache) := by
  have hnone : ∀ s, s ∉ forgotten → acceptedOf s accepted = [] := by
    intro s hs
    rw [List.eq_nil_iff_forall_not_mem]
    exact fun m hm => hs (h _ (mem_acceptedOf.1 hm))
  refine ⟨fun s hs => ?_, fun s hs hne => absurd (hnone s hs) hne⟩
  rw [hnone s hs]
  exact Mirrors.refl rfl

/-- Changes elsewhere in the engine are none to the windows. -/
theorem Current.congr {e' : Engine} (h : Current accepted forgotten e)
    (hwindow : e'.window = e.window) (hresident : e'.resident = e.resident) :
    Current accepted forgotten e' := by
  refine ⟨fun s hs => ?_, fun s hs hne => ?_⟩
  · have hwindows : e'.windows s = e.windows s := by rw [windows, windows, hwindow, hresident]
    rw [hwindows, hwindow]
    exact h.mirrors s hs
  · rw [hresident]
    exact h.resident s hs hne

/-- Windows that change become those of what is accepted then. -/
theorem Current.set {accepted' : List (Session × Measurement)} (h : Current accepted forgotten e)
    {s : Session} {w : SessionWindows} (feed : Feed Report)
    (hs : s ∉ forgotten → Mirrors w (replayed e.window (acceptedOf s accepted')))
    (hothers : ∀ t, t ≠ s → acceptedOf t accepted' = acceptedOf t accepted) :
    Current accepted' forgotten { e with resident := e.resident.set s w, feed } := by
  refine ⟨fun t ht => ?_, fun t ht hne => ?_⟩
  · rw [windows, Table.get?_set]
    by_cases hst : s = t
    · subst hst
      rw [if_pos rfl]
      exact hs ht
    · rw [if_neg hst, hothers t (Ne.symm hst)]
      exact h.mirrors t ht
  · rw [Table.get?_set]
    by_cases hst : s = t
    · rw [if_pos hst]
      rfl
    · rw [hothers t (Ne.symm hst)] at hne
      rw [if_neg hst]
      exact h.resident t ht hne

/-! ## Measurements -/

theorem run_setWindows (e : Engine) (s : Session) (w : SessionWindows) :
    run (setWindows s w) e = (.ok (), { e with resident := e.resident.set s w }) := rfl

/-- A session becomes resident with the windows after the measurement, and they get a
report if anyone listens. -/
theorem run_put (e : Engine) (s : Session) (m : Measurement) : ∃ r w feed,
    run (put s m) e = (r, { e with resident := e.resident.set s w, feed }) ∧
      (w = (e.windows s).taking m ∨ w = ((e.windows s).taking m).metrics.2) := by
  rw [put, run_bind_ok (run_get e)]
  simp only
  rw [run_bind_ok (run_setWindows e s _), run_bind, run_ofExcept, taking]
  cases hregister : (e.windows s).register m with
  | error refusal => exact ⟨.error refusal, e.windows s, e.feed, rfl, Or.inl rfl⟩
  | ok w =>
    simp only
    rw [run_bind_ok (run_get _)]
    by_cases hlisten : e.feed.hasSubscribers s.key
    · refine ⟨.ok (), w.metrics.2, (e.feed.broadcast s.key w.metrics.1).2, ?_, Or.inr rfl⟩
      simp only [hlisten, ↓reduceIte, run_bind_ok (run_setWindows _ _ _), run_modify, Table.set_set]
    · refine ⟨.ok (), w, e.feed, ?_, Or.inl rfl⟩
      simp only [hlisten, Bool.false_eq_true, ↓reduceIte, run_setWindows, Table.set_set]

theorem Current.put (h : Current accepted forgotten e) (s : Session) (m : Measurement) :
    (run (put s m) e).2.window = e.window ∧
      Current (accepted ++ [(s, m)]) forgotten (run (put s m) e).2 := by
  obtain ⟨r, w, feed, hrun, hw⟩ := run_put e s m
  rw [hrun]
  refine ⟨rfl, h.set feed (fun hs => ?_) fun t ht => acceptedOf_concat_other ht accepted m⟩
  have htaking := (h.mirrors s hs).taking m
  rw [← replayed_concat, ← acceptedOf_concat] at htaking
  rcases hw with rfl | rfl
  · exact htaking
  · exact htaking.metrics.2

/-- A measurement that the windows refuse is answered with their refusal. -/
theorem put_answer (e : Engine) (s : Session) (m : Measurement) :
    (run (Engine.put s m) e).1 = ((e.windows s).register m).map fun _ => () := by
  rw [Engine.put, run_bind_ok (run_get e)]
  simp only
  rw [run_bind_ok (run_setWindows e s _), run_bind, run_ofExcept]
  cases (e.windows s).register m with
  | error refusal => rfl
  | ok w =>
    simp only
    rw [run_bind_ok (run_get _)]
    split <;> rfl

/-- A measurement makes its session resident, and no other. -/
theorem contains_put (e : Engine) (s : Session) (m : Measurement) (t : Session) :
    (run (Engine.put s m) e).2.resident.contains t = (decide (s = t) || e.resident.contains t) := by
  obtain ⟨r, w, feed, hrun, _⟩ := run_put e s m
  rw [hrun]
  exact Table.contains_set _ _ _ _

/-! ## Queries -/

section
variable {B W : Type} [Backend B W]

/-- Measurements without a damaged record among them are worth the report on their windows. -/
theorem digest_items (window : Nat) (ms : List Measurement) :
    digest window none (.items (ms.map .ok) none) = .ok (replayed window ms).compute := by
  have hregister := registerAll_ok (SessionWindows.empty window) ms
  rw [digest, if_neg (by simp), Reading.toListUntil, Reading.toList, hregister]
  rfl

/-- No query changes the windows. -/
theorem Current.metrics (h : Current accepted forgotten e) (cancelAfter : Option Nat)
    (s : Session) (st : Storage B) :
    let e' := (run (Engine.metrics cancelAfter s) (e, st)).2.1
    e'.window = e.window ∧ Current accepted forgotten e' := by
  rw [run_metrics_eq]
  cases hresident : e.resident.get? s with
  | some w =>
    refine ⟨rfl, h.set e.feed (fun hs => ?_) fun _ _ => rfl⟩
    have hw := h.mirrors s hs
    rw [windows, hresident] at hw
    exact hw.metrics.2
  | none =>
    simp only
    cases e.cached? s.key with
    | some report => exact ⟨rfl, h.congr rfl rfl⟩
    | none =>
      simp only
      cases run (replay e.window cancelAfter s) st with
      | mk r st => cases r <;> exact ⟨rfl, h.congr rfl rfl⟩

theorem contains_metrics (e : Engine) (cancelAfter : Option Nat) (s : Session) (st : Storage B)
    (t : Session) : (run (Engine.metrics cancelAfter s) (e, st)).2.1.resident.contains t =
      e.resident.contains t := by
  rw [run_metrics_eq]
  cases hresident : e.resident.get? s with
  | some w =>
    simp only [Table.contains_set]
    by_cases hst : s = t
    · subst hst
      simp [Table.contains, hresident]
    · simp [hst]
  | none =>
    simp only
    cases e.cached? s.key with
    | some report => rfl
    | none =>
      simp only
      cases run (replay e.window cancelAfter s) st with
      | mk r st => cases r <;> rfl

end

theorem Current.forget (h : Current accepted forgotten e) (s : Session) :
    Current accepted (s :: forgotten) (e.forget s).2 := by
  have hkept : ∀ t, t ∉ s :: forgotten → t ∉ forgotten ∧
      (e.forget s).2.resident.get? t = e.resident.get? t := by
    intro t ht
    obtain ⟨hne, ht⟩ := not_or.1 (mt List.mem_cons.2 ht)
    exact ⟨ht, by rw [Engine.forget, Table.get?_erase, if_neg (Ne.symm hne)]⟩
  refine ⟨fun t ht => ?_, fun t ht hne => ?_⟩
  · obtain ⟨ht, hresident⟩ := hkept t ht
    rw [windows, hresident]
    exact h.mirrors t ht
  · obtain ⟨ht, hresident⟩ := hkept t ht
    rw [hresident]
    exact h.resident t ht hne

end HeapTelemetry.Engine
