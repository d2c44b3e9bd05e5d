import HeapTelemetry.Proofs.Series.HeadIndex

/-! The index of the series in memory over whole runs. A run of batches and of series taken
out leaves the series that a plain list would hold, in the same order, and an index that fits
them. So a query that goes by the index misses nothing and finds nothing else. -/

namespace HeapTelemetry.Head

/-- A series added to a plain list: its samples go to the series of its label set, or it
comes at the end. -/
def grown (held : List Series) (s : Series) : List Series :=
  if s.labels ∈ held.map Series.labels then
    held.map fun x => if x.labels = s.labels then ⟨x.labels, x.samples ++ s.samples⟩ else x
  else held ++ [s]

/-- What is done to the series in memory. -/
inductive Change
  | apply (b : Batch)
  | take (ms : List Matcher)

def change (h : Head) : Change → Head
  | .apply b => h.apply b
  | .take ms => (h.take ms).2

def after (cs : List Change) : Head := cs.foldl change empty

/-- A change of a plain list without an index. -/
def changed (held : List Series) : Change → List Series
  | .apply b => b.foldl grown held
  | .take ms => held.filter fun s => !Matcher.allAccept ms s.labels

/-! ## One change -/

theorem labels_not_mem_of_get?_eq_none {h : Head} (hi : Indexed h) {l : Labels}
    (hnone : h.byLabels.get? l = none) : l ∉ h.series.map Series.labels := by
  intro hmem
  obtain ⟨i, hget⟩ := List.getElem?_of_mem hmem
  rw [(hi.positions l i).2 hget] at hnone
  cases hnone

/-- What is done at the one position of a label set is done to all series of that label set. -/
theorem modify_eq_map {held : List Series} (hd : Batch.Distinct held) {i : Nat} {l : Labels}
    (hl : (held.map Series.labels)[i]? = some l) (f : Series → Series) :
    held.modify i f = held.map fun x => if x.labels = l then f x else x := by
  induction held generalizing i with
  | nil => cases hl
  | cons x rest ih =>
    obtain ⟨hx, hrest⟩ := List.nodup_cons.1 hd
    cases i with
    | zero =>
      obtain rfl : x.labels = l := by simpa using hl
      have hothers : (rest.map fun y => if y.labels = x.labels then f y else y) = rest :=
        (List.map_congr_left fun y hy =>
          if_neg fun hyx : y.labels = x.labels => hx (hyx ▸ List.mem_map_of_mem hy)).trans
          (List.map_id' rest)
      rw [List.modify_zero_cons, List.map_cons, if_pos rfl, hothers]
    | succ i =>
      have hl : (rest.map Series.labels)[i]? = some l := by simpa using hl
      have hxl : x.labels ≠ l := fun he => hx (he ▸ List.mem_of_getElem? hl)
      rw [List.modify_succ_cons, List.map_cons, if_neg hxl, ih hrest hl]

theorem series_append {h : Head} (hi : Indexed h) (s : Series) :
    (h.append s).series = grown h.series s := by
  rw [append, grown]
  split
  · rename_i hnone
    rw [if_neg (labels_not_mem_of_get?_eq_none hi hnone)]
    rfl
  · rename_i i hget
    have hpos := (hi.positions s.labels i).1 hget
    rw [if_pos (List.mem_of_getElem? hpos)]
    exact modify_eq_map hi.distinct hpos _

theorem series_apply {h : Head} (hi : Indexed h) (b : Batch) :
    (h.apply b).series = b.foldl grown h.series := by
  induction b generalizing h with
  | nil => rfl
  | cons s rest ih =>
    rw [List.foldl_cons, ← series_append hi s]
    exact ih (hi.append s)

theorem Indexed.change {h : Head} (hi : Indexed h) (c : Change) : Indexed (h.change c) := by
  cases c with
  | apply b => exact hi.apply b
  | take ms => exact (take_snd hi ms).1

theorem series_change {h : Head} (hi : Indexed h) (c : Change) :
    (h.change c).series = changed h.series c := by
  cases c with
  | apply b => exact series_apply hi b
  | take ms => exact (take_snd hi ms).2

/-! ## Runs -/

theorem foldl_change {h : Head} (hi : Indexed h) (cs : List Change) :
    Indexed (cs.foldl Head.change h) ∧
      (cs.foldl Head.change h).series = cs.foldl changed h.series := by
  induction cs generalizing h with
  | nil => exact ⟨hi, rfl⟩
  | cons c rest ih =>
    rw [List.foldl_cons, List.foldl_cons, ← series_change hi c]
    exact ih (hi.change c)

theorem mem_holding {held : List Series} {e : Label} {i : Nat} :
    i ∈ holding (held.map Series.labels) e ↔ ∃ s, held[i]? = some s ∧ e ∈ s.labels.entries := by
  rw [holding, List.mem_filter, List.getElem?_map]
  constructor
  · rintro ⟨_, hany⟩
    cases hs : held[i]? with
    | none => simp [hs] at hany
    | some s => exact ⟨s, rfl, by simpa [hs] using hany⟩
  · rintro ⟨s, hs, he⟩
    obtain ⟨hlt, _⟩ := List.getElem?_eq_some_iff.1 hs
    exact ⟨by simpa using hlt, by simpa [hs] using he⟩

/-- After any run the positions by label set and the posting lists are those of the series
that are held, so that the index finds just what a scan of all series finds, and a split
divides them. -/
theorem index_fits_series (cs : List Change) :
    let h := after cs
    h.series = cs.foldl changed [] ∧
      (h.series.map Series.labels).Nodup ∧
      (∀ l i, h.byLabels.get? l = some i ↔ ∃ s, h.series[i]? = some s ∧ s.labels = l) ∧
      (∀ name value, let posted := (h.postings.get? (name, value)).getD []
        posted.Pairwise (· < ·) ∧
          ∀ i, i ∈ posted ↔ ∃ s, h.series[i]? = some s ∧ s.labels.get? name = some value) ∧
      ∀ ms, let accepted := fun s : Series => ms.all fun m => s.labels.get? m.name == some m.value
        h.select ms = h.series.filter accepted ∧
          (h.take ms).1 = h.series.filter accepted ∧
          (h.take ms).2.series = h.series.filter fun s => !accepted s := by
  intro h
  obtain ⟨hi, hseries⟩ : Indexed h ∧ h.series = cs.foldl changed [] :=
    foldl_change indexed_empty cs
  refine ⟨hseries, hi.distinct, fun l i => ?_, fun name value => ?_, fun ms => ?_⟩
  · rw [hi.positions, List.getElem?_map, Option.map_eq_some_iff]
  · intro posted
    have hposted : posted = holding (h.series.map Series.labels) (name, value) :=
      hi.posted (name, value)
    rw [hposted]
    refine ⟨List.pairwise_lt_range.filter _, fun i => ?_⟩
    rw [mem_holding]
    simp only [Labels.get?_eq_some_iff]
  · exact ⟨select_eq_filter hi ms, take_fst h ms, (take_snd hi ms).2⟩

/-- Two series, one of them with two batches, and one taken out: the other moves to the
front, and is found there. -/
example :
    let eu : Labels := .ofList [("zone", "eu")]
    let us : Labels := .ofList [("zone", "us")]
    let h := after [.apply [⟨eu, [⟨1, ⟨0⟩⟩]⟩, ⟨us, [⟨1, ⟨0⟩⟩]⟩], .apply [⟨us, [⟨2, ⟨0⟩⟩]⟩],
      .take [⟨"zone", "eu"⟩]]
    h.byLabels.get? us = some 0 ∧ h.postings.get? ("zone", "us") = some [0] ∧
      h.select [⟨"zone", "us"⟩] = [⟨us, [⟨1, ⟨0⟩⟩, ⟨2, ⟨0⟩⟩]⟩] := by
  decide +kernel

end HeapTelemetry.Head
