import HeapTelemetry.Error

/-! How the combinators of steps run: what each does to the state and which
outcome it gives. Later proofs run a step by these equations alone. -/

namespace HeapTelemetry.Step
variable {σ τ α β : Type}

@[simp] theorem run_pure (a : α) (s : σ) : run (pure a) s = (.ok a, s) := rfl

@[simp] theorem run_throw (e : Error) (s : σ) : run (throw e : Step σ α) s = (.error e, s) := rfl

@[simp] theorem run_get (s : σ) : run (get : Step σ σ) s = (.ok s, s) := rfl

@[simp] theorem run_set (t s : σ) : run (set t : Step σ PUnit) s = (.ok ⟨⟩, t) := rfl

@[simp] theorem run_modify (f : σ → σ) (s : σ) :
    run (modify f : Step σ PUnit) s = (.ok ⟨⟩, f s) := rfl

theorem run_bind (x : Step σ α) (f : α → Step σ β) (s : σ) :
    run (x >>= f) s = match run x s with
      | (.ok a, t) => run (f a) t
      | (.error e, t) => (.error e, t) := by
  simp only [run, ExceptT.run_bind, StateT.run_bind]
  cases h : StateT.run (ExceptT.run x) s with
  | mk r t => cases r <;> rfl

theorem run_bind_ok {x : Step σ α} {f : α → Step σ β} {s t : σ} {a : α}
    (h : run x s = (.ok a, t)) : run (x >>= f) s = run (f a) t := by
  rw [run_bind, h]

theorem run_bind_error {x : Step σ α} {f : α → Step σ β} {s t : σ} {e : Error}
    (h : run x s = (.error e, t)) : run (x >>= f) s = (.error e, t) := by
  rw [run_bind, h]

/-- A sequence of two steps succeeds if both do, the second from where the first ended. -/
theorem run_bind_eq_ok {x : Step σ α} {f : α → Step σ β} {s t : σ} {b : β} :
    run (x >>= f) s = (.ok b, t) ↔ ∃ a u, run x s = (.ok a, u) ∧ run (f a) u = (.ok b, t) := by
  rw [run_bind]
  constructor
  · intro h
    split at h
    · rename_i a u hx
      exact ⟨a, u, hx, h⟩
    · cases h
  · rintro ⟨a, u, hx, h⟩
    rw [hx]
    exact h

theorem run_map (g : α → β) (x : Step σ α) (s : σ) :
    run (g <$> x) s = ((run x s).1.map g, (run x s).2) := by
  rw [map_eq_pure_bind, run_bind]
  cases h : run x s with
  | mk r t => cases r <;> rfl

@[simp] theorem run_attempt (x : Step σ α) (s : σ) :
    run (attempt x) s = (.ok (run x s).1, (run x s).2) := rfl

@[simp] theorem run_ofExcept (r : Except Error α) (s : σ) : run (ofExcept r) s = (r, s) := by
  cases r <;> rfl

@[simp] theorem run_on (part : σ → τ) (put : τ → σ → σ) (x : Step τ α) (s : σ) :
    run (on part put x) s = ((run x (part s)).1, put (run x (part s)).2 s) := rfl

@[simp] theorem run_discard (x : Step σ α) (s : σ) :
    run (discard x) s = ((run x s).1.map fun _ => ⟨⟩, (run x s).2) := by
  show run (Function.const α PUnit.unit <$> x) s = _
  rw [run_map]

/-- A list of steps that all succeed without a change gives all the values. -/
theorem run_mapM_pure {f : α → Step σ β} {g : α → β} {s : σ} :
    ∀ {l : List α}, (∀ a ∈ l, run (f a) s = (.ok (g a), s)) →
      run (l.mapM f) s = (.ok (l.map g), s)
  | [], _ => rfl
  | a :: l, h => by
    rw [List.mapM_cons, run_bind_ok (h a List.mem_cons_self),
      run_bind_ok (run_mapM_pure fun b hb => h b (List.mem_cons_of_mem a hb))]
    rfl

/-! ## States seen in part -/

/-- The second step does to what `φ` leaves of a state what the first does to the state. -/
def Along (φ : σ → τ) (x : Step σ α) (y : Step τ α) : Prop :=
  ∀ s, run y (φ s) = ((run x s).1, φ (run x s).2)

variable {φ : σ → τ}

theorem along_pure (φ : σ → τ) (a : α) : Along φ (pure a) (pure a) := fun _ => rfl

theorem along_throw (φ : σ → τ) (e : Error) : Along φ (throw e : Step σ α) (throw e) := fun _ => rfl

theorem along_ofExcept (φ : σ → τ) (r : Except Error α) : Along φ (ofExcept r) (ofExcept r) := by
  intro s
  rw [run_ofExcept, run_ofExcept]

theorem along_modify {f : σ → σ} {g : τ → τ} (h : ∀ s, g (φ s) = φ (f s)) :
    Along φ (modify f : Step σ PUnit) (modify g) := fun s => by rw [run_modify, run_modify, h]

theorem Along.bind {x : Step σ α} {y : Step τ α} {f : α → Step σ β} {g : α → Step τ β}
    (hxy : Along φ x y) (hfg : ∀ a, Along φ (f a) (g a)) : Along φ (x >>= f) (y >>= g) := by
  intro s
  rw [run_bind, run_bind, hxy s]
  cases run x s with
  | mk r t =>
    cases r with
    | error e => rfl
    | ok a => exact hfg a t

theorem Along.attempt {x : Step σ α} {y : Step τ α} (hxy : Along φ x y) :
    Along φ (Step.attempt x) (Step.attempt y) := by
  intro s
  rw [run_attempt, run_attempt, hxy s]

theorem Along.discard {x : Step σ α} {y : Step τ α} (hxy : Along φ x y) :
    Along φ (discard x) (discard y) := by
  intro s
  rw [run_discard, run_discard, hxy s]

/-! ## What a step upholds -/

/-- However the step goes, it keeps the condition on the state, and it fails only in
these ways. -/
def Upholds (I : σ → Prop) (P : Error → Prop) (x : Step σ α) : Prop :=
  ∀ s, I s → I (run x s).2 ∧ ∀ e, (run x s).1 = .error e → P e

variable {I : σ → Prop} {P Q : Error → Prop}

/-- Nothing is asked of the step. -/
theorem upholds_true (x : Step σ α) : Upholds (fun _ => True) (fun _ => True) x :=
  fun _ _ => ⟨trivial, fun _ _ => trivial⟩

theorem upholds_pure (a : α) : Upholds I P (pure a) := fun _ hs => ⟨hs, nofun⟩

theorem upholds_throw {e : Error} (h : P e) : Upholds I P (throw e : Step σ α) := fun _ hs =>
  ⟨hs, fun _ he => Except.error.inj he ▸ h⟩

theorem upholds_get : Upholds I P (get : Step σ σ) := fun _ hs => ⟨hs, nofun⟩

theorem upholds_modify {f : σ → σ} (h : ∀ s, I s → I (f s)) :
    Upholds I P (modify f : Step σ PUnit) := fun s hs => ⟨h s hs, nofun⟩

theorem upholds_ofExcept {r : Except Error α} (h : ∀ e, r = .error e → P e) :
    Upholds I P (ofExcept r) := by
  intro s hs
  rw [run_ofExcept]
  exact ⟨hs, h⟩

theorem Upholds.mono {x : Step σ α} (hx : Upholds I P x) (h : ∀ e, P e → Q e) : Upholds I Q x :=
  fun s hs => ⟨(hx s hs).1, fun e he => h e ((hx s hs).2 e he)⟩

theorem Upholds.bind {x : Step σ α} {f : α → Step σ β} (hx : Upholds I P x)
    (hf : ∀ a, Upholds I P (f a)) : Upholds I P (x >>= f) := by
  intro s hs
  obtain ⟨hkept, hfails⟩ := hx s hs
  rw [run_bind]
  cases h : run x s with
  | mk r t =>
    rw [h] at hkept hfails
    cases r with
    | ok a => exact hf a t hkept
    | error e => exact ⟨hkept, fun e' he => hfails e' (congrArg Except.error (Except.error.inj he))⟩

theorem Upholds.mapM {f : α → Step σ β} (hf : ∀ a, Upholds I P (f a)) :
    ∀ l : List α, Upholds I P (l.mapM f)
  | [] => upholds_pure _
  | a :: l => by
    rw [List.mapM_cons]
    exact (hf a).bind fun _ => (Upholds.mapM hf l).bind fun _ => upholds_pure _

/-- After an attempt the rest may count on how the step can fail. -/
theorem Upholds.attempt_bind {x : Step σ α} {f : Except Error α → Step σ β} (hx : Upholds I P x)
    (hok : ∀ a, Upholds I Q (f (.ok a))) (herror : ∀ e, P e → Upholds I Q (f (.error e))) :
    Upholds I Q (Step.attempt x >>= f) := by
  intro s hs
  obtain ⟨hkept, hfails⟩ := hx s hs
  rw [run_bind_ok (run_attempt x s)]
  cases h : (run x s).1 with
  | ok a => exact hok a _ hkept
  | error e => exact herror e (hfails e h) _ hkept

theorem Upholds.attempt {x : Step σ α} (hx : Upholds I P x) : Upholds I Q (Step.attempt x) :=
  fun s hs => ⟨(hx s hs).1, nofun⟩

theorem Upholds.discard {x : Step σ α} (hx : Upholds I P x) : Upholds I P (discard x) := by
  intro s hs
  obtain ⟨hkept, hfails⟩ := hx s hs
  rw [run_discard]
  refine ⟨hkept, fun e he => hfails e ?_⟩
  cases h : (run x s).1 with
  | ok a => rw [h] at he; cases he
  | error e' => rw [h] at he; exact congrArg Except.error (Except.error.inj he)

theorem Upholds.on {J : τ → Prop} {part : σ → τ} {put : τ → σ → σ} {x : Step τ α}
    (hx : Upholds J P x) (hpart : ∀ s, I s → J (part s)) (hput : ∀ t s, I s → J t → I (put t s)) :
    Upholds I P (Step.on part put x) := fun s hs =>
  have hran := hx (part s) (hpart s hs)
  ⟨hput _ s hs hran.1, hran.2⟩

end HeapTelemetry.Step
