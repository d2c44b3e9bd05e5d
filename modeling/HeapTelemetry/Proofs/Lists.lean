import Mathlib.Data.List.Nodup

/-! Lists in general: checks of every element, elements read one by one, lists
without repetition, and lists gathered by a key. -/

namespace HeapTelemetry
variable {α β ε : Type}

/-! ## Outcomes -/

theorem toOption_eq_some {r : Except ε α} {a : α} : r.toOption = some a ↔ r = .ok a := by
  cases r <;> simp [Except.toOption]

theorem bind_eq_ok {x : Except ε α} {f : α → Except ε β} {b : β} :
    (x >>= f) = .ok b ↔ ∃ a, x = .ok a ∧ f a = .ok b := by
  cases x with
  | error e =>
    constructor
    · intro h
      cases h
    · rintro ⟨_, h, _⟩
      cases h
  | ok a =>
    constructor
    · exact fun h => ⟨a, rfl, h⟩
    · rintro ⟨_, h, hf⟩
      cases h
      exact hf

theorem forM_eq_ok {f : α → Except ε Unit} {xs : List α} :
    xs.forM f = .ok () ↔ ∀ x ∈ xs, f x = .ok () := by
  induction xs with
  | nil => simp [List.forM, pure, Except.pure]
  | cons x rest ih =>
    rw [List.forall_mem_cons, ← ih]
    cases hx : f x with
    | error e => simp [List.forM, bind, Except.bind, hx]
    | ok u => simp [List.forM, bind, Except.bind, hx]

/-- A check of all elements that fails fails at one of them. -/
theorem exists_of_forM_error {f : α → Except ε Unit} {xs : List α} {e : ε}
    (h : xs.forM f = .error e) : ∃ x ∈ xs, f x = .error e := by
  induction xs with
  | nil => cases h
  | cons x rest ih =>
    cases hx : f x with
    | error e' =>
      simp only [List.forM, hx, bind, Except.bind] at h
      exact ⟨x, List.mem_cons_self, hx.trans h⟩
    | ok u =>
      simp only [List.forM, hx, bind, Except.bind] at h
      obtain ⟨y, hy, he⟩ := ih h
      exact ⟨y, List.mem_cons_of_mem x hy, he⟩

theorem exists_of_mapM_error {f : α → Except ε β} {xs : List α} {e : ε}
    (h : xs.mapM f = .error e) : ∃ x ∈ xs, f x = .error e := by
  induction xs with
  | nil => cases h
  | cons x rest ih =>
    rw [List.mapM_cons] at h
    cases hx : f x with
    | error e' =>
      simp only [hx, bind, Except.bind] at h
      exact ⟨x, List.mem_cons_self, hx.trans (congrArg Except.error (Except.error.inj h))⟩
    | ok y =>
      cases hrest : rest.mapM f with
      | error e' =>
        simp only [hx, hrest, bind, Except.bind] at h
        obtain ⟨z, hz, he⟩ := ih (hrest.trans (congrArg Except.error (Except.error.inj h)))
        exact ⟨z, List.mem_cons_of_mem x hz, he⟩
      | ok ys =>
        simp only [hx, hrest, bind, Except.bind] at h
        cases h

/-- What reads all elements that satisfy a condition, and no others, reads the
lists of them. -/
theorem mapM_eq_ok {f : α → Except ε β} {p : α → Prop} {g : α → β}
    (h : ∀ x y, f x = .ok y ↔ p x ∧ y = g x) {xs : List α} {ys : List β} :
    xs.mapM f = .ok ys ↔ (∀ x ∈ xs, p x) ∧ ys = xs.map g := by
  induction xs generalizing ys with
  | nil => simp [pure, Except.pure, eq_comm]
  | cons x rest ih =>
    rw [List.mapM_cons, List.forall_mem_cons, List.map_cons]
    cases hx : f x with
    | error e =>
      have hp : ¬ p x := fun hp => by
        have hok := (h x (g x)).2 ⟨hp, rfl⟩
        rw [hx] at hok
        cases hok
      simp [bind, Except.bind, hp]
    | ok y =>
      obtain ⟨hp, rfl⟩ := (h x y).1 hx
      cases hrest : rest.mapM f with
      | error e =>
        have hnot : ¬ ∀ y ∈ rest, p y := fun hall => by
          have hok : rest.mapM f = .ok (rest.map g) := ih.2 ⟨hall, rfl⟩
          rw [hrest] at hok
          cases hok
        simp [bind, Except.bind, hnot]
      | ok zs =>
        obtain ⟨hall, rfl⟩ := ih.1 hrest
        constructor
        · intro hys
          cases hys
          exact ⟨⟨hp, hall⟩, rfl⟩
        · rintro ⟨_, rfl⟩
          rfl

theorem mapM_ok {f : α → Except ε β} {g : α → β} {xs : List α} (h : ∀ x ∈ xs, f x = .ok (g x)) :
    xs.mapM f = .ok (xs.map g) := by
  induction xs with
  | nil => rfl
  | cons x rest ih =>
    rw [List.mapM_cons, h x List.mem_cons_self, ih fun y hy => h y (List.mem_cons_of_mem x hy)]
    rfl

/-- A list of values that can all be read gives the list of what they read as. -/
theorem mapM_eq_some {f : α → Option β} {g : α → β} {xs : List α}
    (h : ∀ x ∈ xs, f x = some (g x)) : xs.mapM f = some (xs.map g) := by
  induction xs with
  | nil => rfl
  | cons x rest ih =>
    rw [List.mapM_cons, h x List.mem_cons_self, ih fun y hy => h y (List.mem_cons_of_mem x hy)]
    rfl

theorem map_eq_of_mapM_eq_some {f : α → Option β} {xs : List α} {ys : List β}
    (h : xs.mapM f = some ys) : xs.map f = ys.map some := by
  induction xs generalizing ys with
  | nil =>
    obtain rfl := Option.some.inj h
    rfl
  | cons x rest ih =>
    rw [List.mapM_cons] at h
    obtain ⟨y, hy, h⟩ := Option.bind_eq_some_iff.1 h
    obtain ⟨zs, hzs, h⟩ := Option.bind_eq_some_iff.1 h
    obtain rfl := Option.some.inj h
    rw [List.map_cons, List.map_cons, hy, ih hzs]

theorem filterMap_cons_toList (f : α → Option β) (x : α) (xs : List α) :
    (x :: xs).filterMap f = (f x).toList ++ xs.filterMap f := by
  rw [List.filterMap_cons]
  cases f x <;> rfl

/-- What is read of a list changes with one element as that element is read. -/
theorem exists_perm_filterMap_set (f : α → Option β) {xs : List α} {i : Nat} {x : α}
    (h : xs[i]? = some x) : ∃ rest, (xs.filterMap f).Perm ((f x).toList ++ rest) ∧
      ∀ y, ((xs.set i y).filterMap f).Perm ((f y).toList ++ rest) := by
  obtain ⟨hi, rfl⟩ := List.getElem?_eq_some_iff.1 h
  have hset : ∀ y, ((xs.set i y).filterMap f).Perm
      ((f y).toList ++ ((xs.take i).filterMap f ++ (xs.drop (i + 1)).filterMap f)) := by
    intro y
    rw [List.set_eq_take_append_cons_drop, if_pos hi, List.filterMap_append,
      filterMap_cons_toList, ← List.append_assoc, ← List.append_assoc]
    exact List.perm_append_comm.append_right _
  refine ⟨_, ?_, hset⟩
  have hsame := hset xs[i]
  rwa [List.set_getElem_self] at hsame

/-- The count of a list changes with one element as that element counts. -/
theorem countP_set_add (p : α → Bool) {xs : List α} {i : Nat} {x : α} (h : xs[i]? = some x)
    (y : α) : (xs.set i y).countP p + (p x).toNat = xs.countP p + (p y).toNat := by
  obtain ⟨hi, rfl⟩ := List.getElem?_eq_some_iff.1 h
  have hpos : p xs[i] = true → 0 < xs.countP p := fun hx =>
    List.countP_pos_iff.2 ⟨_, List.getElem_mem hi, hx⟩
  rw [List.countP_set hi]
  cases hx : p xs[i] with
  | true =>
    have := hpos hx
    cases p y <;> simp <;> omega
  | false => cases p y <;> simp

/-- An element is still there, or it was the one at the place that was set. -/
theorem mem_set_or_eq {xs : List α} {i : Nat} {x : α} (h : xs[i]? = some x) (y : α) {z : α}
    (hz : z ∈ xs) : z ∈ xs.set i y ∨ z = x := by
  obtain ⟨j, hj⟩ := List.mem_iff_getElem?.1 hz
  by_cases hij : i = j
  · subst hij
    exact .inr (Option.some.inj (hj.symm.trans h))
  · exact .inl (List.mem_of_getElem? ((List.getElem?_set_ne hij).trans hj))

/-! ## Repetition and grouping -/

theorem nodup_concat_iff {xs : List α} {x : α} (h : xs.Nodup) :
    (xs ++ [x]).Nodup ↔ x ∉ xs := by
  rw [List.nodup_append]
  constructor
  · rintro ⟨_, _, hne⟩ hx
    exact hne x hx x List.mem_cons_self rfl
  · intro hx
    refine ⟨h, by simp, fun a ha b hb hab => hx ?_⟩
    exact List.mem_singleton.1 hb ▸ hab ▸ ha

/-- No key stands twice if no two elements have the same. -/
theorem nodup_map_iff [DecidableEq β] (f : α → β) (xs : List α) :
    (xs.map f).Nodup ↔ ∀ k, (xs.filter (f · = k)).length ≤ 1 := by
  rw [List.nodup_iff_count_le_one]
  refine forall_congr' fun k => ?_
  rw [List.count, List.countP_map, List.countP_eq_length_filter]
  rfl

/-- Without one of its elements a list has none of the same key. -/
theorem mem_eraseIdx_of_nodup {f : α → β} {xs : List α} (h : (xs.map f).Nodup) {i : Nat} {x y : α}
    (hx : xs[i]? = some x) (hy : y ∈ xs.eraseIdx i) : y ∈ xs ∧ f y ≠ f x := by
  obtain ⟨j, hne, hj⟩ := List.mem_eraseIdx_iff_getElem?.1 hy
  refine ⟨List.mem_of_getElem? hj, fun heq => hne ?_⟩
  have hlt : j < (xs.map f).length := by
    rw [List.length_map]
    exact (List.getElem?_eq_some_iff.1 hj).1
  refine (List.getElem?_inj hlt h).1 ?_
  rw [List.getElem?_map, List.getElem?_map, hj, hx, Option.map_some, Option.map_some, heq]

theorem nodup_eraseDups [BEq α] [LawfulBEq α] (xs : List α) : xs.eraseDups.Nodup := by
  match xs with
  | [] => exact List.nodup_nil
  | x :: rest =>
    rw [List.eraseDups_cons, List.nodup_cons, List.mem_eraseDups]
    have hlen : (rest.filter fun b => !b == x).length < (x :: rest).length :=
      Nat.lt_succ_of_le (List.length_filter_le _ rest)
    exact ⟨by simp, nodup_eraseDups _⟩
termination_by xs.length
decreasing_by exact hlen

theorem exists_map_eq (f : α → β) {ys : List β} (h : ∀ y ∈ ys, ∃ x, f x = y) :
    ∃ xs : List α, xs.map f = ys := by
  induction ys with
  | nil => exact ⟨[], rfl⟩
  | cons y ys ih =>
    obtain ⟨x, rfl⟩ := h y List.mem_cons_self
    obtain ⟨xs, rfl⟩ := ih fun z hz => h z (List.mem_cons_of_mem _ hz)
    exact ⟨x :: xs, rfl⟩

/-- Lists that agree under two functions are read side by side. -/
theorem exists_zip_of_map_eq {γ : Type} {f : α → γ} {g : β → γ} {xs : List α} {ys : List β}
    (h : ys.map g = xs.map f) : ∃ zs : List (α × β), zs.map Prod.fst = xs ∧ zs.map Prod.snd = ys ∧
      ∀ z ∈ zs, g z.2 = f z.1 := by
  induction xs generalizing ys with
  | nil => exact ⟨[], rfl, (List.map_eq_nil_iff.1 h).symm, fun z hz => absurd hz List.not_mem_nil⟩
  | cons x xs ih =>
    obtain ⟨y, ys, rfl, hy, hys⟩ := List.map_eq_cons_iff.1 h
    obtain ⟨zs, rfl, rfl, hzs⟩ := ih hys
    exact ⟨(x, y) :: zs, rfl, rfl, List.forall_mem_cons.2 ⟨hy, hzs⟩⟩

/-- Gathered by a key that all its elements have, a list keeps them all. -/
theorem perm_flatMap_filter [DecidableEq β] (f : α → β) {keys : List β}
    (hd : keys.Nodup) {xs : List α} (h : ∀ x ∈ xs, f x ∈ keys) :
    (keys.flatMap fun k => xs.filter (f · = k)).Perm xs := by
  induction keys generalizing xs with
  | nil =>
    rw [List.eq_nil_iff_forall_not_mem.2 fun x hx => List.not_mem_nil (h x hx)]
    rfl
  | cons k keys ih =>
    obtain ⟨hk, hd⟩ := List.nodup_cons.1 hd
    have hothers : keys.flatMap (fun k' => xs.filter (f · = k')) =
        keys.flatMap fun k' => (xs.filter fun x => !decide (f x = k)).filter (f · = k') := by
      apply List.flatMap_congr
      intro k' hk'
      have hne : k' ≠ k := fun heq => hk (heq ▸ hk')
      rw [List.filter_filter]
      apply List.filter_congr
      intro x _
      by_cases hx : f x = k' <;> simp [hx, hne]
    rw [List.flatMap_cons, hothers]
    refine List.Perm.trans ((ih hd fun x hx => ?_).append_left _)
      (List.filter_append_perm (f · = k) xs)
    obtain ⟨hx, hne⟩ := List.mem_filter.1 hx
    exact (List.mem_cons.1 (h x hx)).resolve_left (by simpa using hne)

/-! ## Beginnings and places -/

theorem prefix_append_cases {xs ys zs : List α} (h : xs <+: ys ++ zs) :
    xs <+: ys ∨ ∃ more, more ≠ [] ∧ xs = ys ++ more ∧ more <+: zs := by
  by_cases hwhole : ys <+: xs
  · obtain ⟨more, rfl⟩ := hwhole
    rw [List.prefix_append_right_inj] at h
    by_cases hmore : more = []
    · rw [hmore, List.append_nil]
      exact Or.inl List.prefix_rfl
    · exact Or.inr ⟨more, hmore, rfl, h⟩
  · exact Or.inl ((List.prefix_or_prefix_of_prefix h (List.prefix_append _ _)).resolve_right hwhole)

/-- What begins as a list between two brackets is nothing, the list as a whole, or the first
bracket before what begins as the inside. -/
theorem prefix_enclosed {xs ys : List α} {a b : α} (h : xs <+: a :: (ys ++ [b])) :
    xs = [] ∨ (∃ inner, xs = a :: inner ∧ inner <+: ys) ∨ xs = a :: (ys ++ [b]) := by
  rcases List.prefix_cons_iff.1 h with rfl | ⟨inner, rfl, hinner⟩
  · exact Or.inl rfl
  rcases prefix_append_cases hinner with hinside | ⟨more, hmore, rfl, hend⟩
  · exact Or.inr (Or.inl ⟨inner, rfl, hinside⟩)
  · obtain ⟨rest, rfl, hnil⟩ := (List.prefix_cons_iff.1 hend).resolve_left hmore
    rw [List.prefix_nil.1 hnil]
    exact Or.inr (Or.inr rfl)

/-- What holds at every place of a list holds at its first and at those of the rest. -/
theorem forall_places_cons {P : List α → α → Prop} {x : α} {xs : List α} :
    (∀ before y after, x :: xs = before ++ y :: after → P before y) ↔
      P [] x ∧ ∀ before y after, xs = before ++ y :: after → P (x :: before) y := by
  constructor
  · intro h
    refine ⟨h [] x xs rfl, fun before y after hy => h (x :: before) y after ?_⟩
    rw [hy, List.cons_append]
  · rintro ⟨hfirst, hrest⟩ before y after hy
    cases before with
    | nil =>
      obtain ⟨rfl, _⟩ := List.cons.inj hy
      exact hfirst
    | cons z before =>
      obtain ⟨rfl, hlater⟩ := List.cons.inj hy
      exact hrest before y after hlater

end HeapTelemetry
