import HeapTelemetry.Proofs.Lists
import HeapTelemetry.Proofs.Series.Recovery

/-! The invariant of a series database: what its head, its index of sealed
series, its blocks and its log hold fits together. Under it a query answers from
memory and blocks as if from one map of label sets to samples. -/

namespace HeapTelemetry.Database
open Step

/-- A database on its disk, with the blocks by number and the batches in the log.
Block numbers stay below the bound. -/
structure Sound [Compressor] (blocks : Table Nat (List Series)) (logNumber : Nat)
    (batches : List Batch) (bound : Nat) (db : Database) (d : Disk) : Prop where
  stored : Stored db.dir blocks logNumber batches d
  granting : d.verdicts = []
  numbered : blocks.keys.Nodup
  below : ∀ id series, blocks.get? id = some series → id < db.nextBlock
  bounded : db.nextBlock ≤ bound
  distinct : ∀ id series, blocks.get? id = some series → Batch.Distinct series
  filled : ∀ id series, blocks.get? id = some series → ∀ x ∈ series, x.samples ≠ []
  indexes : Indexes db.sealedIn blocks
  head : db.head.Indexed
  headFilled : ∀ x ∈ db.head.series, x.samples ≠ []
  headOpen : ∀ x ∈ db.head.series, db.sealedIn.contains x.labels = false
  logFilled : Filled batches
  logged : ∀ l, db.sealedIn.contains l = false →
    Batch.samples batches.flatten l = Batch.samples db.head.series l
  log : ∀ log, db.log = some log → OpenOn db.dir logNumber log

/-- The series in memory and those in the blocks. -/
def contents (db : Database) (blocks : Table Nat (List Series)) : List Series :=
  db.head.series ++ blocks.flatMap Prod.snd

/-- The answer to a query over these samples: every series that all matchers
accept, each label set once, in label order. -/
structure Answers (samples : Labels → List Sample) (ms : List Matcher) (found : List Series) :
    Prop where
  sorted : Batch.Sorted found
  mem : ∀ x, x ∈ found ↔
    x.samples ≠ [] ∧ x.samples = samples x.labels ∧ Matcher.allAccept ms x.labels = true

variable {blocks : Table Nat (List Series)} {logNumber : Nat} {batches : List Batch}
  {bound : Nat} {db : Database} {d : Disk}

/-! ## Blocks -/

theorem Indexes.disjoint {table : Table Labels Nat} (h : Indexes table blocks) :
    Disjoint blocks := by
  intro i j l hi hj
  have hget := (h.blockOf l i).2 hi
  rw [(h.blockOf l j).2 hj] at hget
  exact (Option.some.inj hget).symm

theorem Indexes.contains_iff {table : Table Labels Nat} (h : Indexes table blocks) (l : Labels) :
    table.contains l = true ↔ ∃ id, l ∈ labelSets blocks id := by
  rw [Table.contains_iff]
  simp only [h.blockOf]

theorem mem_flatMap_blocks (hk : blocks.keys.Nodup) (x : Series) :
    x ∈ blocks.flatMap Prod.snd ↔ ∃ id series, blocks.get? id = some series ∧ x ∈ series := by
  rw [List.mem_flatMap]
  constructor
  · rintro ⟨⟨id, series⟩, he, hx⟩
    exact ⟨id, series, (Table.mem_iff_get? hk id series).1 he, hx⟩
  · rintro ⟨id, series, hs, hx⟩
    exact ⟨(id, series), Table.mem_of_get? hs, hx⟩

section
variable [Compressor]

theorem Sound.contains_of_mem (h : Sound blocks logNumber batches bound db d) {x : Series}
    (hx : x ∈ blocks.flatMap Prod.snd) : db.sealedIn.contains x.labels = true := by
  obtain ⟨id, series, hs, hxs⟩ := (mem_flatMap_blocks h.numbered x).1 hx
  have hmem : x.labels ∈ labelSets blocks id := by
    rw [labelSets_of_get? hs]
    exact List.mem_map_of_mem hxs
  exact (h.indexes.contains_iff x.labels).2 ⟨id, hmem⟩

/-- A label set that is not sealed has no samples in the blocks. -/
theorem Sound.samples_blocks (h : Sound blocks logNumber batches bound db d) {l : Labels}
    (hl : db.sealedIn.contains l = false) : Batch.samples (blocks.flatMap Prod.snd) l = [] := by
  apply Batch.samples_eq_nil
  rintro x hx rfl
  rw [h.contains_of_mem hx] at hl
  cases hl

/-- A sealed label set has no samples in memory. -/
theorem Sound.samples_head (h : Sound blocks logNumber batches bound db d) {l : Labels}
    (hl : db.sealedIn.contains l = true) : Batch.samples db.head.series l = [] := by
  apply Batch.samples_eq_nil
  rintro x hx rfl
  rw [h.headOpen x hx] at hl
  cases hl

theorem Sound.distinct_contents (h : Sound blocks logNumber batches bound db d) :
    Batch.Distinct (contents db blocks) := by
  rw [Batch.Distinct, contents, List.map_append, List.nodup_append]
  refine ⟨h.head.distinct, ?_, ?_⟩
  · rw [List.map_flatMap, List.Nodup, List.pairwise_flatMap]
    constructor
    · rintro ⟨id, series⟩ he
      exact h.distinct id series ((Table.mem_iff_get? h.numbered id series).1 he)
    · have hpairs : blocks.Pairwise fun e f => e.1 ≠ f.1 := List.pairwise_map.1 h.numbered
      refine hpairs.imp_of_mem ?_
      rintro ⟨i, s⟩ ⟨j, t⟩ hi hj hne l hl _ hl' rfl
      have hi' := labelSets_of_get? ((Table.mem_iff_get? h.numbered i s).1 hi)
      have hj' := labelSets_of_get? ((Table.mem_iff_get? h.numbered j t).1 hj)
      exact hne (h.indexes.disjoint i j l (hi' ▸ hl) (hj' ▸ hl'))
  · rintro l hl _ hl' rfl
    obtain ⟨x, hx, rfl⟩ := List.mem_map.1 hl
    obtain ⟨y, hy, hxy⟩ := List.mem_map.1 hl'
    have hsealed := h.contains_of_mem hy
    rw [hxy, h.headOpen x hx] at hsealed
    cases hsealed

theorem Sound.filled_contents (h : Sound blocks logNumber batches bound db d) :
    ∀ x ∈ contents db blocks, x.samples ≠ [] := by
  intro x hx
  rcases List.mem_append.1 hx with hx | hx
  · exact h.headFilled x hx
  · obtain ⟨id, series, hs, hxs⟩ := (mem_flatMap_blocks h.numbered x).1 hx
    exact h.filled id series hs x hxs

end

/-! ## Queries -/

/-- What the blocks of these numbers have that all matchers accept. -/
def accepted (blocks : Table Nat (List Series)) (ms : List Matcher) (id : Nat) : List Series :=
  ((blocks.get? id).getD []).filter fun s => Matcher.allAccept ms s.labels

/-- The blocks that hold a series which all matchers accept. -/
def involved (db : Database) (ms : List Matcher) : List Nat :=
  ((db.sealedIn.filter fun e => Matcher.allAccept ms e.1).map Prod.snd).mergeSort.eraseDups

theorem Sound.mem_involved [Compressor] (h : Sound blocks logNumber batches bound db d)
    (ms : List Matcher) (id : Nat) : id ∈ involved db ms ↔
      ∃ l, l ∈ labelSets blocks id ∧ Matcher.allAccept ms l = true := by
  rw [involved, List.mem_eraseDups, List.mem_mergeSort, List.mem_map]
  constructor
  · rintro ⟨⟨l, i⟩, he, rfl⟩
    obtain ⟨hm, ha⟩ := List.mem_filter.1 he
    exact ⟨l, (h.indexes.blockOf l i).1 ((Table.mem_iff_get? h.indexes.keys l i).1 hm), ha⟩
  · rintro ⟨l, hl, ha⟩
    have hm := Table.mem_of_get? ((h.indexes.blockOf l id).2 hl)
    exact ⟨(l, id), List.mem_filter.2 ⟨hm, ha⟩, rfl⟩

theorem Sound.run_selectSealed [Compressor] (h : Sound blocks logNumber batches bound db d)
    (ms : List Matcher) : run (selectSealed ms) (db, d) =
      (.ok ((involved db ms).flatMap (accepted blocks ms)), db, d) := by
  have hread : ∀ id ∈ involved db ms, run (do
      let bytes ← onDisk (Disk.read (Block.path (blocksDir db.dir) id))
      let series ← Step.ofExcept (Block.series bytes)
      return series.filter fun s => Matcher.allAccept ms s.labels) (db, d) =
        (.ok (accepted blocks ms id), db, d) := by
    intro id hid
    obtain ⟨l, hl, _⟩ := (h.mem_involved ms id).1 hid
    obtain ⟨series, hs⟩ := mem_keys_of_mem_labelSets hl
    obtain ⟨bytes, hbytes, _, hseries⟩ := h.stored.read_block hs
    have hon : run (onDisk (Disk.read (Block.path (blocksDir db.dir) id))) (db, d) =
        (.ok bytes, db, d) := by
      rw [onDisk, run_on, hbytes]
    rw [run_bind_ok hon, hseries, run_bind_ok (run_ofExcept _ _), accepted, hs]
    rfl
  rw [selectSealed, run_bind_ok (run_get _)]
  exact run_bind_ok (run_mapM_pure hread)

theorem Sound.mem_sealed [Compressor] (h : Sound blocks logNumber batches bound db d)
    (ms : List Matcher) (x : Series) : x ∈ (involved db ms).flatMap (accepted blocks ms) ↔
      x ∈ blocks.flatMap Prod.snd ∧ Matcher.allAccept ms x.labels = true := by
  rw [List.mem_flatMap, mem_flatMap_blocks h.numbered]
  constructor
  · rintro ⟨id, _, hx⟩
    obtain ⟨hm, ha⟩ := List.mem_filter.1 hx
    cases hs : blocks.get? id with
    | none => simp [hs] at hm
    | some series => exact ⟨⟨id, series, hs, by simpa [hs] using hm⟩, ha⟩
  · rintro ⟨⟨id, series, hs, hx⟩, ha⟩
    refine ⟨id, (h.mem_involved ms id).2 ⟨x.labels, ?_, ha⟩, List.mem_filter.2 ⟨?_, ha⟩⟩
    · rw [labelSets_of_get? hs]
      exact List.mem_map_of_mem hx
    · rw [hs]
      exact hx

theorem Sound.distinct_sealed [Compressor] (h : Sound blocks logNumber batches bound db d)
    (ms : List Matcher) : Batch.Distinct ((involved db ms).flatMap (accepted blocks ms)) := by
  rw [Batch.Distinct, List.map_flatMap, List.Nodup, List.pairwise_flatMap]
  constructor
  · intro id _
    cases hs : blocks.get? id with
    | none => simp [accepted, hs]
    | some series =>
      have hsub : (accepted blocks ms id).Sublist series := by
        rw [accepted, hs]
        exact List.filter_sublist
      exact (h.distinct id series hs).sublist (hsub.map _)
  · have hmem : ∀ id l, l ∈ (accepted blocks ms id).map Series.labels →
        l ∈ labelSets blocks id := by
      intro id l hl
      exact (List.filter_sublist.map _).subset hl
    refine (nodup_eraseDups _).imp ?_
    rintro i j hne l hi _ hj rfl
    exact hne (h.indexes.disjoint i j l (hmem i l hi) (hmem j l hj))

theorem sorted_mergeSort {found : List Series} (hd : Batch.Distinct found) :
    Batch.Sorted (found.mergeSort fun a b => a.labels.le b.labels) := by
  have hle := List.pairwise_mergeSort
    (fun a b c : Series => Labels.le_trans a.labels b.labels c.labels)
    (fun a b => Labels.le_total a.labels b.labels) found
  have hne : (found.mergeSort fun a b => a.labels.le b.labels).Pairwise
      fun a b => a.labels ≠ b.labels :=
    List.pairwise_map.1 (((List.mergeSort_perm found _).map Series.labels).nodup_iff.2 hd)
  exact hle.imp₂ (fun a b hab hab' => (Labels.le_iff.1 hab).resolve_right hab') hne

/-- A query answers from the samples of memory and blocks, and changes nothing. -/
theorem Sound.run_select [Compressor] (h : Sound blocks logNumber batches bound db d)
    (ms : List Matcher) : ∃ found, run (select ms) (db, d) = (.ok found, db, d) ∧
      Answers (Batch.samples (contents db blocks)) ms found := by
  have hhead : ∀ x, x ∈ db.head.select ms ↔
      x ∈ db.head.series ∧ Matcher.allAccept ms x.labels = true := by
    intro x
    rw [Head.select_eq_filter h.head, List.mem_filter]
  have hdistinct : Batch.Distinct
      (db.head.select ms ++ (involved db ms).flatMap (accepted blocks ms)) := by
    rw [Batch.Distinct, List.map_append, List.nodup_append]
    refine ⟨?_, h.distinct_sealed ms, ?_⟩
    · rw [Head.select_eq_filter h.head]
      exact h.head.distinct.sublist (List.filter_sublist.map _)
    · rintro l hl _ hl' rfl
      obtain ⟨x, hx, rfl⟩ := List.mem_map.1 hl
      obtain ⟨y, hy, hxy⟩ := List.mem_map.1 hl'
      have hsealed := h.contains_of_mem ((h.mem_sealed ms y).1 hy).1
      rw [hxy, h.headOpen x ((hhead x).1 hx).1] at hsealed
      cases hsealed
  refine ⟨_, ?_, sorted_mergeSort hdistinct, fun x => ?_⟩
  · rw [select, run_bind_ok (run_get _), run_bind_ok (h.run_selectSealed ms)]
    rfl
  · rw [List.mem_mergeSort, List.mem_append, hhead, h.mem_sealed, ← or_and_right,
      ← List.mem_append]
    have hcontents := Batch.mem_iff_samples h.distinct_contents h.filled_contents x
    rw [contents] at hcontents
    rw [hcontents, and_assoc, contents]
    simp only [eq_comm]

/-- There is one answer. -/
theorem Answers.unique {samples : Labels → List Sample} {ms : List Matcher}
    {xs ys : List Series} (hx : Answers samples ms xs) (hy : Answers samples ms ys) :
    xs = ys := by
  have hsame : ∀ x, x ∈ xs ↔ x ∈ ys := by
    intro x
    rw [hx.mem, hy.mem]
  have hne : ∀ {zs : List Series}, Batch.Sorted zs → zs.Nodup := by
    intro zs hz
    refine hz.imp ?_
    rintro a _ hlt rfl
    exact Labels.compare_ne_of_lt hlt rfl
  have hperm : xs.Perm ys := (List.perm_ext_iff_of_nodup (hne hx.sorted) (hne hy.sorted)).2 hsame
  refine hperm.eq_of_pairwise ?_ hx.sorted hy.sorted
  intro a b _ _ hab hba
  exact absurd rfl (Labels.compare_ne_of_lt (Labels.compare_lt_trans hab hba))

end HeapTelemetry.Database
