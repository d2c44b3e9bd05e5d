import HeapTelemetry.Proofs.Series.Batches
import HeapTelemetry.Proofs.Tables
import HeapTelemetry.Series.Head

/-! The index of the series in memory. `Indexed` says what both tables hold; it
is kept by every change, and a selection through the index is the plain filter
of all series. -/

namespace HeapTelemetry.Head

/-- The positions of the label sets with this label, ascending. -/
def holding (names : List Labels) (e : Label) : List Nat :=
  (List.range names.length).filter fun i => (names[i]?).any fun l => e ∈ l.entries

/-- Every label set stands once, is found at its position, and is posted under
each of its labels and no other. -/
structure Indexed (h : Head) : Prop where
  distinct : Batch.Distinct h.series
  positions : ∀ l i, h.byLabels.get? l = some i ↔ (h.series.map Series.labels)[i]? = some l
  posted : ∀ e, (h.postings.get? e).getD [] = holding (h.series.map Series.labels) e

theorem indexed_empty : Indexed empty where
  distinct := List.nodup_nil
  positions := by simp [empty]
  posted := by simp [empty, holding]

/-! ## A new series -/

theorem getD_get?_post (n : Nat) (t : Table Label (List Nat)) (e f : Label) :
    ((post n t e).get? f).getD [] = (t.get? f).getD [] ++ if e = f then [n] else [] := by
  rw [post, Table.get?_set]
  by_cases h : e = f
  · simp [h]
  · simp [h]

theorem getD_get?_foldl_post (n : Nat) (es : List Label) (hd : es.Nodup)
    (t : Table Label (List Nat)) (f : Label) :
    ((es.foldl (post n) t).get? f).getD [] =
      (t.get? f).getD [] ++ if f ∈ es then [n] else [] := by
  induction es generalizing t with
  | nil => simp
  | cons e rest ih =>
    obtain ⟨he, hrest⟩ := List.nodup_cons.1 hd
    rw [List.foldl_cons, ih hrest, getD_get?_post, List.append_assoc]
    by_cases hf : e = f
    · subst hf; simp [he]
    · simp [hf, Ne.symm hf]

theorem holding_append_one (names : List Labels) (l : Labels) (e : Label) :
    holding (names ++ [l]) e =
      holding names e ++ if e ∈ l.entries then [names.length] else [] := by
  simp only [holding, List.length_append, List.length_singleton, List.range_succ,
    List.filter_append]
  congr 1
  · apply List.filter_congr
    intro i hi
    rw [List.getElem?_append_left (List.mem_range.1 hi)]
  · by_cases h : e ∈ l.entries <;> simp [h]

theorem Indexed.insertSeries {h : Head} (hi : Indexed h) {s : Series}
    (hs : s.labels ∉ h.series.map Series.labels) : Indexed (h.insertSeries s) where
  distinct := by
    rw [Batch.Distinct, Head.insertSeries, List.map_append, List.nodup_append]
    refine ⟨hi.distinct, by simp, ?_⟩
    rintro a ha b hb rfl
    rw [List.map_singleton, List.mem_singleton] at hb
    exact hs (hb ▸ ha)
  positions := by
    intro l i
    simp only [Head.insertSeries, Table.get?_set, List.map_append, List.map_singleton]
    by_cases hl : s.labels = l
    · subst hl
      rw [if_pos rfl, List.getElem?_append]
      have hno : (h.series.map Series.labels)[i]? ≠ some s.labels := fun he =>
        hs (List.mem_of_getElem? he)
      simp only [List.length_map]
      split
      · rename_i hlt
        simp only [hno, iff_false, Option.some.injEq]
        omega
      · rename_i hge
        rw [List.getElem?_singleton]
        split
        · simp only [Option.some.injEq, iff_true]; omega
        · simp only [Option.some.injEq, reduceCtorEq, iff_false]; omega
    · rw [if_neg hl, hi.positions, List.getElem?_append]
      split
      · rfl
      · rename_i hge
        rw [List.getElem?_eq_none (by omega), List.getElem?_singleton]
        split
        · simp [hl]
        · rfl
  posted := by
    intro e
    simp only [Head.insertSeries, List.map_append, List.map_singleton, holding_append_one,
      List.length_map]
    rw [getD_get?_foldl_post _ _ s.labels.nodup_entries, hi.posted]

/-! ## Appending and applying -/

theorem map_labels_modify (b : Batch) (i : Nat) (t : List Sample) :
    (b.modify i fun x => { x with samples := x.samples ++ t }).map Series.labels =
      b.map Series.labels := by
  induction b generalizing i with
  | nil => simp
  | cons x rest ih =>
    cases i with
    | zero => simp
    | succ i => simp [ih]

theorem samples_modify {b : Batch} (hd : Batch.Distinct b) {i : Nat} {l : Labels}
    (hi : (b.map Series.labels)[i]? = some l) (t : List Sample) (k : Labels) :
    Batch.samples (b.modify i fun x => { x with samples := x.samples ++ t }) k =
      Batch.samples b k ++ if l = k then t else [] := by
  induction b generalizing i with
  | nil => simp at hi
  | cons x rest ih =>
    obtain ⟨hx, hd'⟩ := List.nodup_cons.1 hd
    cases i with
    | zero =>
      simp only [List.map_cons, List.getElem?_cons_zero, Option.some.injEq] at hi
      subst hi
      by_cases hk : x.labels = k
      · subst hk
        have hr : Batch.samples rest x.labels = [] :=
          Batch.samples_eq_nil fun y hy hyx => hx (hyx ▸ List.mem_map_of_mem hy)
        simp [hr]
      · simp [hk]
    | succ i =>
      simp only [List.modify_succ_cons, Batch.samples_cons, List.append_assoc]
      rw [ih hd' (by simpa using hi)]

theorem Indexed.append {h : Head} (hi : Indexed h) (s : Series) : Indexed (h.append s) := by
  rw [Head.append]
  split
  · rename_i hn
    apply hi.insertSeries
    intro hm
    obtain ⟨i, hget⟩ := List.getElem?_of_mem hm
    rw [(hi.positions s.labels i).2 hget] at hn
    cases hn
  · exact ⟨by rw [Batch.Distinct, map_labels_modify]; exact hi.distinct,
      by simpa only [map_labels_modify] using hi.positions,
      by simpa only [map_labels_modify] using hi.posted⟩

theorem samples_append {h : Head} (hi : Indexed h) (s : Series) (l : Labels) :
    Batch.samples (h.append s).series l =
      Batch.samples h.series l ++ if s.labels = l then s.samples else [] := by
  rw [Head.append]
  split
  · simp [insertSeries]
  · rename_i i hget
    exact samples_modify hi.distinct ((hi.positions s.labels i).1 hget) s.samples l

theorem samples_ne_nil_append {h : Head} (hne : ∀ x ∈ h.series, x.samples ≠ []) {s : Series}
    (hs : s.samples ≠ []) : ∀ x ∈ (h.append s).series, x.samples ≠ [] := by
  rw [Head.append]
  split
  · intro x hx
    rcases List.mem_append.1 hx with hx | hx
    · exact hne x hx
    · rw [List.mem_singleton.1 hx]
      exact hs
  · intro x hx
    obtain ⟨j, hj⟩ := List.getElem?_of_mem hx
    rw [List.getElem?_modify] at hj
    obtain ⟨y, hy, hxy⟩ := Option.map_eq_some_iff.1 hj
    have hy' := hne y (List.mem_of_getElem? hy)
    split at hxy
    · subst hxy; simp [hy']
    · rwa [← hxy]

theorem Indexed.apply {h : Head} (hi : Indexed h) (b : Batch) : Indexed (h.apply b) := by
  induction b generalizing h with
  | nil => exact hi
  | cons s rest ih => exact ih (hi.append s)

/-- A batch lengthens every series of the head by what it has for it. -/
theorem samples_apply {h : Head} (hi : Indexed h) (b : Batch) (l : Labels) :
    Batch.samples (h.apply b).series l = Batch.samples h.series l ++ Batch.samples b l := by
  induction b generalizing h with
  | nil => simp [apply]
  | cons s rest ih =>
    have hih := ih (hi.append s)
    rw [apply, List.foldl_cons] at *
    rw [hih, samples_append hi, Batch.samples_cons, List.append_assoc]

theorem samples_ne_nil_apply {h : Head} (hne : ∀ x ∈ h.series, x.samples ≠ []) {b : Batch}
    (hb : ∀ x ∈ b, x.samples ≠ []) : ∀ x ∈ (h.apply b).series, x.samples ≠ [] := by
  induction b generalizing h with
  | nil => exact hne
  | cons s rest ih =>
    exact ih (samples_ne_nil_append hne (hb s List.mem_cons_self))
      fun x hx => hb x (List.mem_cons_of_mem s hx)

/-! ## Queries -/

theorem lastTime_eq {h : Head} (hi : Indexed h) (l : Labels) :
    h.lastTime l = ((Batch.samples h.series l).getLast?).map Sample.time := by
  rw [lastTime]
  cases hget : h.byLabels.get? l with
  | none =>
    rw [Batch.samples_eq_nil]
    · rfl
    · rintro x hx rfl
      obtain ⟨i, hxi⟩ := List.getElem?_of_mem hx
      rw [(hi.positions x.labels i).2 (by simp [hxi])] at hget
      cases hget
  | some i =>
    have hpos := (hi.positions l i).1 hget
    rw [List.getElem?_map] at hpos
    obtain ⟨x, hx, rfl⟩ := Option.map_eq_some_iff.1 hpos
    rw [Batch.samples_of_mem hi.distinct (List.mem_of_getElem? hx)]
    simp only [Option.bind_eq_bind, Option.bind_some, hx]
    cases x.samples.getLast? <;> rfl

/-- Choosing entries by position is filtering, if the positions are chosen by
what stands there. -/
theorem filterMap_getElem?_range {α : Type} (xs : List α) (p : Nat → Bool) (q : α → Bool)
    (hpq : ∀ i x, xs[i]? = some x → p i = q x) :
    (((List.range xs.length).filter p).filterMap fun i => xs[i]?) = xs.filter q := by
  induction xs generalizing p with
  | nil => rfl
  | cons x rest ih =>
    have hrest := ih (fun i => p (i + 1)) fun i y hy => hpq (i + 1) y (by simpa using hy)
    have hx : p 0 = q x := hpq 0 x rfl
    have hshift : ((((List.range rest.length).map Nat.succ).filter p).filterMap
        fun i => (x :: rest)[i]?) = rest.filter q := by
      rw [List.filter_map, List.filterMap_map]
      exact hrest
    rw [List.length_cons, List.range_succ_eq_map, List.filter_cons, List.filter_cons, hx]
    split
    · rw [List.filterMap_cons, hshift]
      rfl
    · exact hshift

/-- A selection through the index gives all series that the matchers accept, in
the order in which they are held. -/
theorem select_eq_filter {h : Head} (hi : Indexed h) (ms : List Matcher) :
    h.select ms = h.series.filter fun s => Matcher.allAccept ms s.labels := by
  cases ms with
  | nil =>
    have hall := filterMap_getElem?_range h.series (fun _ => true) (fun _ => true)
      fun _ _ _ => rfl
    rw [List.filter_eq_self.2 fun _ _ => rfl, List.filter_eq_self.2 fun _ _ => rfl] at hall
    simp only [select, hall]
  | cons m rest =>
    have hfirst := filterMap_getElem?_range h.series
      (fun i => ((h.series.map Series.labels)[i]?).any fun l => (m.name, m.value) ∈ l.entries)
      (fun s => m.accepts s.labels) (by
        intro i x hx
        rw [List.getElem?_map, hx, Option.map_some, Option.any_some, Bool.eq_iff_iff,
          decide_eq_true_iff, Matcher.accepts, beq_iff_eq, Labels.get?_eq_some_iff])
    rw [select]
    simp only [hi.posted, holding, List.length_map, hfirst, List.filter_filter]
    apply List.filter_congr
    intro s _
    simp only [Matcher.allAccept, List.all_cons, Bool.and_comm]
    cases m.accepts s.labels <;> simp

/-! ## Splitting off -/

theorem foldl_insertSeries {h : Head} (hi : Indexed h) (ks : List Series)
    (hd : Batch.Distinct (h.series ++ ks)) :
    Indexed (ks.foldl insertSeries h) ∧ (ks.foldl insertSeries h).series = h.series ++ ks := by
  induction ks generalizing h with
  | nil => exact ⟨hi, by simp⟩
  | cons s rest ih =>
    have hs : s.labels ∉ h.series.map Series.labels := by
      rw [Batch.Distinct, List.map_append, List.nodup_append] at hd
      intro hm
      exact hd.2.2 _ hm _ (by simp) rfl
    have hseries : (h.insertSeries s).series = h.series ++ [s] := rfl
    obtain ⟨hind, heq⟩ := ih (hi.insertSeries hs) (by rw [hseries]; simpa using hd)
    exact ⟨hind, by rw [List.foldl_cons, heq, hseries]; simp⟩

theorem take_fst (h : Head) (ms : List Matcher) :
    (h.take ms).1 = h.series.filter fun s => Matcher.allAccept ms s.labels := by
  simp [take, List.partition_eq_filter_filter]

theorem take_snd {h : Head} (hi : Indexed h) (ms : List Matcher) :
    Indexed (h.take ms).2 ∧
      (h.take ms).2.series = h.series.filter fun s => !Matcher.allAccept ms s.labels := by
  have hd : Batch.Distinct (empty.series ++
      h.series.filter fun s => !Matcher.allAccept ms s.labels) :=
    hi.distinct.sublist (List.filter_sublist.map _)
  have hfold := foldl_insertSeries indexed_empty _ hd
  have hkept : (h.take ms).2 =
      (h.series.filter fun s => !Matcher.allAccept ms s.labels).foldl insertSeries empty := by
    simp only [take, List.partition_eq_filter_filter]
    rfl
  rw [hkept]
  exact ⟨hfold.1, by simpa [empty] using hfold.2⟩

end HeapTelemetry.Head
