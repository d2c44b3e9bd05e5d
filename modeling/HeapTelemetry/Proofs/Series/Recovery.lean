import HeapTelemetry.Proofs.Series.HeadIndex
import HeapTelemetry.Proofs.Series.StoredFiles

/-! Opening a database. The index names the block of every stored label set, the
replay of the log holds the other series, and both come out of any stored
directory, and out of one that holds nothing yet. -/

namespace HeapTelemetry.Database
open Step

/-! ## The index of the blocks -/

/-- The label sets of a block. -/
def labelSets (blocks : Table Nat (List Series)) (id : Nat) : List Labels :=
  ((blocks.get? id).getD []).map Series.labels

/-- No label set is in two blocks. -/
def Disjoint (blocks : Table Nat (List Series)) : Prop :=
  ∀ i j l, l ∈ labelSets blocks i → l ∈ labelSets blocks j → i = j

/-- The table gives the block of every label set that is in one. -/
structure Indexes (table : Table Labels Nat) (blocks : Table Nat (List Series)) : Prop where
  keys : table.keys.Nodup
  blockOf : ∀ l id, table.get? l = some id ↔ l ∈ labelSets blocks id

variable {dir : Path} {blocks : Table Nat (List Series)} {logNumber : Nat}
  {batches : List Batch} {d d' : Disk}

theorem labelSets_of_get? {id : Nat} {series : List Series} (h : blocks.get? id = some series) :
    labelSets blocks id = series.map Series.labels := by
  rw [labelSets, h]
  rfl

theorem mem_keys_of_mem_labelSets {id : Nat} {l : Labels} (h : l ∈ labelSets blocks id) :
    ∃ series, blocks.get? id = some series := by
  cases hs : blocks.get? id with
  | none => simp [labelSets, hs] at h
  | some series => exact ⟨series, rfl⟩

/-- One block after the other is read into the table. -/
theorem run_index_from [Compressor] (hst : Stored dir blocks logNumber batches d)
    (hdis : Disjoint blocks)
    (ids : List Nat) (hids : ∀ id ∈ ids, ∃ series, blocks.get? id = some series)
    (table : Table Labels Nat) (hk : table.keys.Nodup) :
    ∃ table', run (ids.foldlM (fun table id => do
        let labels ← Step.ofExcept (Block.labels (← Disk.read (Block.path (blocksDir dir) id)))
        return labels.foldl (fun t l => t.set l id) table) table) d = (.ok table', d) ∧
      table'.keys.Nodup ∧ ∀ l id, table'.get? l = some id ↔
        (id ∈ ids ∧ l ∈ labelSets blocks id) ∨
          ((∀ j ∈ ids, l ∉ labelSets blocks j) ∧ table.get? l = some id) := by
  induction ids generalizing table with
  | nil => exact ⟨table, rfl, hk, fun l id => by simp⟩
  | cons i ids ih =>
    obtain ⟨series, hs⟩ := hids i List.mem_cons_self
    obtain ⟨bytes, hread, hlabels, _⟩ := hst.read_block hs
    have hnext := Table.get?_foldl_set (fun l : Labels => l) i (series.map Series.labels) table
    have hkeys := Table.nodup_keys_foldl_set (fun l : Labels => l) i (series.map Series.labels) hk
    obtain ⟨table', hrun, hk', hget⟩ :=
      ih (fun id hid => hids id (List.mem_cons_of_mem i hid)) _ hkeys
    refine ⟨table', ?_, hk', fun l id => ?_⟩
    · rw [List.foldlM_cons]
      have hstep : run (do
          let labels ← Step.ofExcept (Block.labels (← Disk.read (Block.path (blocksDir dir) i)))
          return labels.foldl (fun t l => t.set l i) table) d =
            (.ok ((series.map Series.labels).foldl (fun t l => t.set l i) table), d) := by
        rw [run_bind_ok hread, hlabels]
        rfl
      rw [run_bind_ok hstep]
      exact hrun
    · rw [hget, hnext, List.map_id', ← labelSets_of_get? hs]
      by_cases hi : l ∈ labelSets blocks i
      · -- a label set of this block is in no other
        have honly : ∀ j, l ∈ labelSets blocks j ↔ j = i := by
          intro j
          constructor
          · intro hj
            exact hdis j i l hj hi
          · rintro rfl
            exact hi
        simp only [honly, List.mem_cons, ↓reduceIte, Option.some.injEq]
        constructor
        · rintro (⟨_, h⟩ | ⟨_, h⟩)
          · exact Or.inl ⟨Or.inl h, h⟩
          · exact Or.inl ⟨Or.inl h.symm, h.symm⟩
        · rintro (⟨_, h⟩ | ⟨hno, _⟩)
          · by_cases hm : i ∈ ids
            · exact Or.inl ⟨h ▸ hm, h⟩
            · exact Or.inr ⟨fun j hj hji => hm (hji ▸ hj), h.symm⟩
          · exact absurd rfl (hno i (Or.inl rfl))
      · simp only [hi, ↓reduceIte, List.mem_cons, forall_eq_or_imp, not_false_eq_true, true_and]
        constructor
        · rintro (⟨hm, h⟩ | h)
          · exact Or.inl ⟨Or.inr hm, h⟩
          · exact Or.inr h
        · rintro (⟨rfl | hm, h⟩ | h)
          · exact absurd h hi
          · exact Or.inl ⟨hm, h⟩
          · exact Or.inr h

theorem run_index [Compressor] (hst : Stored dir blocks logNumber batches d)
    (hdis : Disjoint blocks)
    {ids : List Nat} (hids : ∀ id, id ∈ ids ↔ ∃ series, blocks.get? id = some series) :
    ∃ table, run (index (blocksDir dir) ids) d = (.ok table, d) ∧ Indexes table blocks := by
  obtain ⟨table, hrun, hk, hget⟩ :=
    run_index_from hst hdis ids (fun id hid => (hids id).1 hid) [] List.nodup_nil
  refine ⟨table, hrun, hk, fun l id => ?_⟩
  rw [hget]
  constructor
  · rintro (⟨_, h⟩ | ⟨_, h⟩)
    · exact h
    · cases h
  · intro h
    exact Or.inl ⟨(hids id).2 (mem_keys_of_mem_labelSets h), h⟩

/-! ## The replay of the log -/

/-- No batch of the log has a series without samples. -/
def Filled (batches : List Batch) : Prop := ∀ b ∈ batches, ∀ x ∈ b, x.samples ≠ []

theorem replay_from (sealedIn : Table Labels Nat) {h : Head} (hi : h.Indexed)
    (hne : ∀ x ∈ h.series, x.samples ≠ []) (hf : Filled batches) :
    let h' := batches.foldl
      (fun h b => h.apply (b.filter fun s => !sealedIn.contains s.labels)) h
    h'.Indexed ∧ (∀ x ∈ h'.series, x.samples ≠ []) ∧
      ∀ l, Batch.samples h'.series l = Batch.samples h.series l ++
        if sealedIn.contains l then [] else Batch.samples batches.flatten l := by
  induction batches generalizing h with
  | nil => exact ⟨hi, hne, fun l => by simp⟩
  | cons b rest ih =>
    have hfilled : ∀ x ∈ b.filter (fun s => !sealedIn.contains s.labels), x.samples ≠ [] :=
      fun x hx => hf b List.mem_cons_self x (List.mem_filter.1 hx).1
    have hih := ih (hi.apply (b.filter fun s => !sealedIn.contains s.labels))
      (Head.samples_ne_nil_apply hne hfilled) fun c hc => hf c (List.mem_cons_of_mem b hc)
    refine ⟨hih.1, hih.2.1, fun l => ?_⟩
    rw [List.foldl_cons, hih.2.2, Head.samples_apply hi,
      Batch.samples_filter b (fun l => !sealedIn.contains l), List.flatten_cons,
      Batch.samples_append, List.append_assoc]
    by_cases hs : sealedIn.contains l = true <;> simp [hs]

/-- The replayed head holds what was logged for the series that are not sealed. -/
theorem replay_spec (sealedIn : Table Labels Nat) (hf : Filled batches) :
    (replay sealedIn batches).Indexed ∧
      (∀ x ∈ (replay sealedIn batches).series, x.samples ≠ []) ∧
      ∀ l, Batch.samples (replay sealedIn batches).series l =
        if sealedIn.contains l then [] else Batch.samples batches.flatten l := by
  have h := replay_from sealedIn Head.indexed_empty (by simp [Head.empty]) hf
  exact ⟨h.1, h.2.1, fun l => by rw [replay, h.2.2]; rfl⟩

/-! ## Opening -/

/-- The number of the next block after those found. -/
def numberAfter (ids : List Nat) : Nat :=
  match ids.getLast? with
  | some id => id + 1
  | none => 0

theorem lt_numberAfter {ids : List Nat} (hs : ids.Pairwise (· ≤ ·)) {id : Nat} (h : id ∈ ids) :
    id < numberAfter ids := by
  rw [numberAfter]
  split
  · rename_i last hlast
    obtain ⟨front, rfl⟩ := List.getLast?_eq_some_iff.1 hlast
    rcases List.mem_append.1 h with hm | hm
    · exact Nat.lt_succ_of_le ((List.pairwise_append.1 hs).2.2 id hm last (by simp))
    · rw [List.mem_singleton.1 hm]
      exact Nat.lt_succ_self last
  · rename_i hnone
    rw [List.getLast?_eq_none_iff.1 hnone] at h
    cases h

theorem numberAfter_le {ids : List Nat} {n : Nat} (h : ∀ id ∈ ids, id < n) :
    numberAfter ids ≤ n := by
  rw [numberAfter]
  split
  · rename_i last hlast
    exact h last (List.mem_of_getLast? hlast)
  · exact Nat.zero_le n

/-- The log is open on the log file of the directory and intact. -/
structure OpenOn (dir : Path) (logNumber : Nat) (log : Log) : Prop where
  path : log.path = logPath dir
  handle : log.handle = ⟨logPath dir, logNumber⟩
  intact : log.torn = false

theorem openAt_eq {dir : Path} {sync : Bool} {d d1 d2 d3 d4 : Disk} {ids : List Nat}
    {table : Table Labels Nat} {log : Log} {batches : List Batch}
    (h1 : run (Disk.makeDirs dir) d = (.ok ⟨⟩, d1))
    (h2 : run (Disk.makeDirs (blocksDir dir)) d1 = (.ok ⟨⟩, d2))
    (h3 : run (Block.scan (blocksDir dir)) d2 = (.ok ids, d3))
    (h4 : run (index (blocksDir dir) ids) d3 = (.ok table, d3))
    (h5 : run (Log.openAt (logPath dir) sync) d3 = (.ok (log, batches), d4)) :
    run (openAt dir sync) d =
      (.ok ⟨dir, replay table batches, table, numberAfter ids, some log⟩, d4) := by
  rw [openAt, run_bind_ok h1, run_bind_ok h2, run_bind_ok h3, run_bind_ok h4, run_bind_ok h5]
  rfl

/-- Making directories that are there already changes nothing. -/
theorem Stored.makeDirs [Compressor] (hst : Stored dir blocks logNumber batches d)
    (hv : d.verdicts = []) {p : Path} (hp : ∀ q, q <+: p → q <+: blocksDir dir) :
    ∃ d', run (Disk.makeDirs p) d = (.ok ⟨⟩, d') ∧ d'.verdicts = [] ∧
      Stored dir blocks logNumber batches d' := by
  have hfree : d.blocked p = false := by
    rw [Disk.blocked_eq_false]
    intro q hq number content hf
    have hdir := hst.directories q (hp q hq)
    rw [Disk.not_directory_of_file hf] at hdir
    cases hdir
  obtain ⟨d', hrun, hv', hd', hfind⟩ := Disk.run_makeDirs hv hfree
  refine ⟨d', hrun, hv', hst.congr (hd' hst.distinct) fun q => ?_⟩
  rw [hfind]
  split
  · rename_i hq
    have hdir := hst.directories q (hp q hq)
    rw [Disk.isDirectory, decide_eq_true_eq] at hdir
    exact hdir.symm
  · rfl

theorem prefix_ne_entry {q : Path} (hq : q <+: blocksDir dir) (name : String) :
    q ≠ blocksDir dir ++ [name] := by
  rintro rfl
  have hlen := hq.length_le
  simp only [List.length_append, List.length_singleton] at hlen
  omega

/-- A disk that has lost temporary files only. -/
theorem Stored.cleared [Compressor] (hst : Stored dir blocks logNumber batches d) (hd : d'.Distinct)
    (hgone : ∀ name, Block.isTemporary name = true → d'.find? (blocksDir dir ++ [name]) = none)
    (hothers : ∀ q, (∀ name, Block.isTemporary name = true → q ≠ blocksDir dir ++ [name]) →
      d'.find? q = d.find? q) : Stored dir blocks logNumber batches d' where
  distinct := hd
  directories := by
    intro q hq
    rw [Disk.isDirectory, hothers q fun name _ => prefix_ne_entry hq name]
    exact hst.directories q hq
  log := by
    rw [hothers _ fun name _ => logPath_ne_block dir name]
    exact hst.log
  numbers := hst.numbers
  block := by
    intro id series hs
    rw [hothers]
    · exact hst.block id series hs
    · intro name ht he
      have hname : Block.fileName id "blk" = name := by simpa [Block.path] using he
      rw [← hname, Block.not_temporary_block] at ht
      cases ht
  entries := by
    intro name hn
    by_cases ht : Block.isTemporary name = true
    · exact absurd (hgone name ht) hn
    · have hq : ∀ other, Block.isTemporary other = true →
          blocksDir dir ++ [name] ≠ blocksDir dir ++ [other] := by
        intro other ho he
        have hname : name = other := by simpa using he
        exact ht (hname ▸ ho)
      rw [hothers _ hq] at hn
      rw [Disk.isDirectory, hothers _ hq]
      exact hst.entries name hn

/-- The scan finds just the numbers of the blocks. -/
theorem Stored.scan [Compressor] (hst : Stored dir blocks logNumber batches d)
    (hv : d.verdicts = []) :
    ∃ ids d', run (Block.scan (blocksDir dir)) d = (.ok ids, d') ∧ d'.verdicts = [] ∧
      Stored dir blocks logNumber batches d' ∧ ids.Pairwise (· ≤ ·) ∧
      ∀ id, id ∈ ids ↔ ∃ series, blocks.get? id = some series := by
  have htemporary : ∀ name, Block.isTemporary name = true →
      d.find? (blocksDir dir ++ [name]) ≠ none →
      ∃ number content, d.find? (blocksDir dir ++ [name]) = some (.file number content) := by
    intro name ht hn
    cases hf : d.find? (blocksDir dir ++ [name]) with
    | none => exact absurd hf hn
    | some node =>
      cases node with
      | directory => exact absurd hf (Disk.isDirectory_eq_false.1 (hst.temporary_file ht))
      | file number content => exact ⟨number, content, rfl⟩
  obtain ⟨ids, d', hrun, hv', hd', hsorted, hids, hgone, hothers⟩ :=
    Block.run_scan hv hst.distinct htemporary
  refine ⟨ids, d', hrun, hv', hst.cleared hd' hgone hothers, hsorted, fun id => ?_⟩
  rw [hids]
  constructor
  · rintro ⟨name, hn, hid⟩
    rcases hst.entries name hn with ⟨ht, _⟩ | ⟨i, series, hs, rfl⟩
    · rw [Block.id?_of_temporary ht] at hid
      cases hid
    · rw [Block.id?_block (hst.numbers i series hs)] at hid
      cases hid
      exact ⟨series, hs⟩
  · rintro ⟨series, hs⟩
    obtain ⟨number, bytes, _, hfile⟩ := hst.block id series hs
    have hn : d.find? (Block.path (blocksDir dir) id) ≠ none := by
      rw [hfile]
      simp
    exact ⟨Block.fileName id "blk", hn, Block.id?_block (hst.numbers id series hs)⟩

/-- Opening a stored directory gives back its blocks and its logged batches. -/
theorem run_openAt [Compressor] (hst : Stored dir blocks logNumber batches d) (hv : d.verdicts = [])
    (hdis : Disjoint blocks) (sync : Bool) : ∃ table ids log d', run (openAt dir sync) d =
        (.ok ⟨dir, replay table batches, table, numberAfter ids, some log⟩, d') ∧
      d'.verdicts = [] ∧ Stored dir blocks logNumber batches d' ∧ Indexes table blocks ∧
      ids.Pairwise (· ≤ ·) ∧ (∀ id, id ∈ ids ↔ ∃ series, blocks.get? id = some series) ∧
      OpenOn dir logNumber log := by
  obtain ⟨d1, h1, hv1, hst1⟩ := hst.makeDirs hv fun q hq => prefix_blocksDir hq
  obtain ⟨d2, h2, hv2, hst2⟩ := hst1.makeDirs hv1 fun q hq => hq
  obtain ⟨ids, d3, h3, hv3, hst3, hsorted, hids⟩ := hst2.scan hv2
  obtain ⟨table, h4, hindexes⟩ := run_index hst3 hdis hids
  obtain ⟨content, hfile, hholds⟩ := hst3.log
  exact ⟨table, ids, _, d3, openAt_eq h1 h2 h3 h4 (Log.run_openAt hv3 hfile hholds), hv3, hst3,
    hindexes, hsorted, hids, ⟨rfl, rfl, rfl⟩⟩

/-- Nothing stands at the path but a directory at most, and nothing below it. -/
structure Vacant (dir : Path) (d : Disk) : Prop where
  distinct : d.Distinct
  granting : d.verdicts = []
  free : d.blocked dir = false
  nothing : ∀ q, dir <+: q → q ≠ dir → d.find? q = none

theorem vacant_empty (dir : Path) : Vacant dir Disk.empty where
  distinct := List.nodup_nil
  granting := rfl
  free := by
    rw [Disk.blocked_eq_false]
    intro q _ number content hf
    by_cases hq : q = []
    · rw [hq, Disk.find?_root] at hf
      cases hf
    · rw [Disk.find?_of_ne hq] at hf
      cases hf
  nothing := by
    intro q hp hne
    have hq : q ≠ [] := by
      rintro rfl
      exact hne (List.prefix_nil.1 hp).symm
    rw [Disk.find?_of_ne hq]
    rfl

theorem Vacant.find?_below (h : Vacant dir d) {names : List String} (hn : names ≠ []) :
    d.find? (dir ++ names) = none :=
  h.nothing _ (List.prefix_append dir names) (by simpa using hn)

/-- Both directories can be made, and nothing else is there then. -/
theorem Vacant.makeDirs (h : Vacant dir d) : ∃ d1 d2,
    run (Disk.makeDirs dir) d = (.ok ⟨⟩, d1) ∧
    run (Disk.makeDirs (blocksDir dir)) d1 = (.ok ⟨⟩, d2) ∧ d2.verdicts = [] ∧ d2.Distinct ∧
    (∀ q, q <+: blocksDir dir → d2.isDirectory q = true) ∧
    ∀ names, names ≠ [] → ¬ dir ++ names <+: blocksDir dir → d2.find? (dir ++ names) = none := by
  obtain ⟨d1, h1, hv1, hd1, hfind1⟩ := Disk.run_makeDirs h.granting h.free
  have hfree : d1.blocked (blocksDir dir) = false := by
    rw [Disk.blocked_eq_false]
    intro q hq number content hf
    rw [hfind1] at hf
    split at hf
    · cases hf
    · rename_i hno
      rcases List.prefix_concat_iff.1 hq with rfl | hp
      · rw [h.find?_below (by simp)] at hf
        cases hf
      · exact hno hp
  obtain ⟨d2, h2, hv2, hd2, hfind2⟩ := Disk.run_makeDirs hv1 hfree
  refine ⟨d1, d2, h1, h2, hv2, hd2 (hd1 h.distinct), fun q hq => ?_, fun names hn hp => ?_⟩
  · rw [Disk.isDirectory, hfind2, if_pos hq]
    rfl
  · have hp1 : ¬ dir ++ names <+: dir := fun hp1 => hp (prefix_blocksDir hp1)
    rw [hfind2, if_neg hp, hfind1, if_neg hp1, h.find?_below hn]

theorem not_prefix_entry (name : String) : ¬ dir ++ ["blocks", name] <+: blocksDir dir := by
  intro hp
  have hlen := hp.length_le
  simp [blocksDir] at hlen

theorem not_prefix_log : ¬ dir ++ ["wal.log"] <+: blocksDir dir := by
  intro hp
  have heq := hp.eq_of_length (by simp [blocksDir])
  simp [blocksDir] at heq

/-- Opening a vacant directory gives an empty database. -/
theorem run_openAt_vacant [Compressor] (h : Vacant dir d) (sync : Bool) :
    ∃ logNumber log d', run (openAt dir sync) d =
        (.ok ⟨dir, Head.empty, [], 0, some log⟩, d') ∧
      d'.verdicts = [] ∧ Stored dir [] logNumber [] d' ∧ OpenOn dir logNumber log := by
  obtain ⟨d1, d2, h1, h2, hv2, hd2, hdir2, hempty⟩ := h.makeDirs
  have hnoblock : ∀ name, d2.find? (blocksDir dir ++ [name]) = none := by
    intro name
    rw [blocksDir, List.append_assoc]
    exact hempty _ (by simp) (not_prefix_entry name)
  obtain ⟨ids, d3, h3, hv3, hd3, _, hids, hgone, hothers⟩ :=
    Block.run_scan hv2 hd2 fun name _ hn => absurd (hnoblock name) hn
  have hnone : ids = [] := by
    apply List.eq_nil_iff_forall_not_mem.2
    intro id hid
    obtain ⟨name, hn, _⟩ := (hids id).1 hid
    exact hn (hnoblock name)
  subst hnone
  have hlog3 : d3.find? (logPath dir) = none := by
    rw [hothers _ fun name _ => logPath_ne_block dir name]
    exact hempty _ (by simp) not_prefix_log
  have hdir3 : ∀ q, q <+: blocksDir dir → d3.isDirectory q = true := by
    intro q hq
    rw [Disk.isDirectory, hothers q fun name _ => prefix_ne_entry hq name]
    exact hdir2 q hq
  have hparent : d3.isDirectory (logPath dir).dropLast = true :=
    hdir3 _ (by simpa [logPath] using prefix_blocksDir (List.prefix_refl dir))
  have hput := Disk.find?_put d3 (p := logPath dir) (by simp [logPath])
    (.file d3.nextNumber [])
  refine ⟨d3.nextNumber, _, _,
    openAt_eq h1 h2 h3 rfl (Log.run_openAt_missing hv3 hlog3 hparent), hv3, ?_, ⟨rfl, rfl, rfl⟩⟩
  refine ⟨Disk.distinct_put hd3 _ _, fun q hq => ?_, ⟨[], ?_, Log.Holds.nil⟩, ?_, ?_, ?_⟩
  · rw [← hdir3 q hq]
    exact (Disk.kept_put (Disk.isDirectory_eq_false.2 (by rw [hlog3]; simp)) _ _).directories q
  · show (d3.put (logPath dir) (.file d3.nextNumber [])).find? (logPath dir) = _
    rw [hput, if_pos rfl]
  · intro id series hs
    cases hs
  · intro id series hs
    cases hs
  · intro name hn
    exfalso
    apply hn
    show (d3.put (logPath dir) (.file d3.nextNumber [])).find? (blocksDir dir ++ [name]) = none
    rw [hput, if_neg (logPath_ne_block dir name).symm]
    by_cases ht : Block.isTemporary name = true
    · exact hgone name ht
    · rw [hothers, hnoblock]
      intro other ho he
      have hname : name = other := by simpa using he
      exact ht (hname ▸ ho)

end HeapTelemetry.Database
