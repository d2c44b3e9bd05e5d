import HeapTelemetry.Proofs.Series.BlockFiles
import HeapTelemetry.Proofs.Series.LogFiles
import HeapTelemetry.Proofs.Tables
import HeapTelemetry.Series.Database

/-! What the directory of a database holds on disk. `Stored` relates it to the
blocks and the logged batches; it outlives every step that touches temporary
files only, and opening the directory reads exactly these blocks and batches. -/

namespace HeapTelemetry.Database
open Step

/-! ## Paths -/

theorem logPath_ne_block (dir : Path) (name : String) : logPath dir ≠ blocksDir dir ++ [name] := by
  intro h
  have hlen := congrArg List.length h
  simp [logPath, blocksDir] at hlen

theorem logTemporary_eq (dir : Path) : Log.temporary (logPath dir) = dir ++ ["wal.log.tmp"] := by
  simp [Log.temporary, logPath]

theorem logTemporary_ne_block (dir : Path) (name : String) :
    Log.temporary (logPath dir) ≠ blocksDir dir ++ [name] := by
  intro h
  have hlen := congrArg List.length h
  simp [logTemporary_eq, blocksDir] at hlen

theorem path_inj {dir : Path} {i j : Nat} (h : Block.path dir i = Block.path dir j) : i = j := by
  have hname : Block.fileName i "blk" = Block.fileName j "blk" := by
    simpa [Block.path] using h
  exact Block.fileName_injective hname

theorem prefix_blocksDir {dir q : Path} (h : q <+: dir) : q <+: blocksDir dir :=
  h.trans (List.prefix_append dir ["blocks"])

/-! ## Blocks and log on disk -/

variable [Compressor]

/-- The files of a database with these blocks by number, and with a log of these
batches. -/
structure Stored (dir : Path) (blocks : Table Nat (List Series)) (logNumber : Nat)
    (batches : List Batch) (d : Disk) : Prop where
  distinct : d.Distinct
  directories : ∀ q, q <+: blocksDir dir → d.isDirectory q = true
  log : ∃ content, d.find? (logPath dir) = some (.file logNumber content) ∧
    Log.Holds content batches
  numbers : ∀ id series, blocks.get? id = some series → id < UInt64.size
  block : ∀ id series, blocks.get? id = some series → ∃ number bytes,
    Block.encode series = .ok bytes ∧
      d.find? (Block.path (blocksDir dir) id) = some (.file number bytes)
  entries : ∀ name, d.find? (blocksDir dir ++ [name]) ≠ none →
    (Block.isTemporary name = true ∧ d.isDirectory (blocksDir dir ++ [name]) = false) ∨
      ∃ id series, blocks.get? id = some series ∧ name = Block.fileName id "blk"

variable {dir : Path} {blocks : Table Nat (List Series)} {logNumber : Nat}
  {batches : List Batch} {d d' : Disk}

/-- A temporary name in the directory of blocks is free or that of a file. -/
theorem Stored.temporary_file (h : Stored dir blocks logNumber batches d) {name : String}
    (ht : Block.isTemporary name = true) : d.isDirectory (blocksDir dir ++ [name]) = false := by
  by_cases hf : d.find? (blocksDir dir ++ [name]) = none
  · exact Disk.isDirectory_eq_false.2 (by rw [hf]; simp)
  · rcases h.entries name hf with ⟨_, hdir⟩ | ⟨id, _, _, rfl⟩
    · exact hdir
    · rw [Block.not_temporary_block] at ht
      cases ht

/-- Changes of temporary files leave the blocks, and the log may be another. -/
theorem Stored.kept (h : Stored dir blocks logNumber batches d) {ps : List Path}
    (hk : Disk.Kept ps d d')
    (hps : ∀ name, blocksDir dir ++ [name] ∈ ps → Block.isTemporary name = true)
    {logNumber' : Nat} {batches' : List Batch}
    (hlog : ∃ content, d'.find? (logPath dir) = some (.file logNumber' content) ∧
      Log.Holds content batches') : Stored dir blocks logNumber' batches' d' where
  distinct := hk.distinct h.distinct
  directories := by
    intro q hq
    rw [hk.directories]
    exact h.directories q hq
  log := hlog
  numbers := h.numbers
  block := by
    intro id series hs
    obtain ⟨number, bytes, henc, hfile⟩ := h.block id series hs
    refine ⟨number, bytes, henc, ?_⟩
    rw [hk.others _ ?_, hfile]
    intro hm
    have ht := hps _ hm
    rw [Block.not_temporary_block] at ht
    cases ht
  entries := by
    intro name hf
    by_cases hm : blocksDir dir ++ [name] ∈ ps
    · have ht := hps name hm
      rw [hk.directories]
      exact Or.inl ⟨ht, h.temporary_file ht⟩
    · rw [hk.others _ hm] at hf
      rw [hk.directories]
      exact h.entries name hf

theorem Stored.kept_temporary (h : Stored dir blocks logNumber batches d) {id : Nat}
    (hk : Disk.Kept [Block.temporary (blocksDir dir) id] d d') :
    Stored dir blocks logNumber batches d' := by
  obtain ⟨content, hfile, hholds⟩ := h.log
  refine h.kept hk ?_ ⟨content, ?_, hholds⟩
  · intro name hm
    have hname : name = Block.fileName id "tmp" := by simpa [Block.temporary] using hm
    rw [hname]
    exact Block.isTemporary_temporary id
  · rw [hk.others _ ?_, hfile]
    rw [List.mem_singleton]
    exact logPath_ne_block dir _

/-- Any change of the log and its temporary leaves the blocks. -/
theorem Stored.kept_log (h : Stored dir blocks logNumber batches d)
    (hk : Disk.Kept [Log.temporary (logPath dir), logPath dir] d d') {logNumber' : Nat}
    {batches' : List Batch}
    (hlog : ∃ content, d'.find? (logPath dir) = some (.file logNumber' content) ∧
      Log.Holds content batches') : Stored dir blocks logNumber' batches' d' := by
  refine h.kept hk ?_ hlog
  intro name hm
  rcases List.mem_cons.1 hm with he | hm
  · exact absurd he.symm (logTemporary_ne_block dir name)
  · exact absurd (List.mem_singleton.1 hm).symm (logPath_ne_block dir name)

/-- A disk with the same nodes stores the same. -/
theorem Stored.congr (h : Stored dir blocks logNumber batches d) (hd : d'.Distinct)
    (hf : ∀ q, d'.find? q = d.find? q) : Stored dir blocks logNumber batches d' := by
  have hdir : ∀ q, d'.isDirectory q = d.isDirectory q := by
    intro q
    rw [Disk.isDirectory, Disk.isDirectory, hf]
  refine ⟨hd, ?_, ?_, h.numbers, ?_, ?_⟩
  · intro q hq
    rw [hdir]
    exact h.directories q hq
  · rw [hf]
    exact h.log
  · intro id series hs
    rw [hf]
    exact h.block id series hs
  · intro name hn
    rw [hf] at hn
    rw [hdir]
    exact h.entries name hn

theorem Stored.facing (h : Stored dir blocks logNumber batches d) (vs : List Verdict) :
    Stored dir blocks logNumber batches (d.facing vs) :=
  h.congr h.distinct fun q => d.find?_facing vs q

/-- A written block is stored beside the others. -/
theorem Stored.add_block (h : Stored dir blocks logNumber batches d) {id : Nat}
    (hid : id < UInt64.size) {series : List Series} {bytes : Bytes} {number : Nat}
    (henc : Block.encode series = .ok bytes)
    (hfile : d'.find? (Block.path (blocksDir dir) id) = some (.file number bytes))
    (hk : Disk.Kept [Block.temporary (blocksDir dir) id, Block.path (blocksDir dir) id] d d') :
    Stored dir (blocks.set id series) logNumber batches d' where
  distinct := hk.distinct h.distinct
  directories := by
    intro q hq
    rw [hk.directories]
    exact h.directories q hq
  log := by
    obtain ⟨content, hlog, hholds⟩ := h.log
    refine ⟨content, ?_, hholds⟩
    rw [hk.others _ ?_, hlog]
    intro hm
    rcases List.mem_cons.1 hm with he | hm
    · exact logPath_ne_block dir _ he
    · exact logPath_ne_block dir _ (List.mem_singleton.1 hm)
  numbers := by
    intro i s hs
    rw [Table.get?_set] at hs
    split at hs
    · rename_i he
      exact he ▸ hid
    · exact h.numbers i s hs
  block := by
    intro i s hs
    rw [Table.get?_set] at hs
    split at hs
    · rename_i he
      subst he
      cases hs
      exact ⟨number, bytes, henc, hfile⟩
    · rename_i hne
      obtain ⟨number', bytes', henc', hfile'⟩ := h.block i s hs
      refine ⟨number', bytes', henc', ?_⟩
      rw [hk.others _ ?_, hfile']
      intro hm
      rcases List.mem_cons.1 hm with he | hm
      · exact Block.temporary_ne_path _ id i he.symm
      · exact hne (path_inj (List.mem_singleton.1 hm).symm)
  entries := by
    intro name hf
    by_cases ht : Block.isTemporary name = true
    · rw [hk.directories]
      exact Or.inl ⟨ht, h.temporary_file ht⟩
    by_cases hname : name = Block.fileName id "blk"
    · exact Or.inr ⟨id, series, by rw [Table.get?_set, if_pos rfl], hname⟩
    · rw [hk.others _ ?_] at hf
      · rcases h.entries name hf with ⟨ht', _⟩ | ⟨i, s, hs, rfl⟩
        · exact absurd ht' ht
        · refine Or.inr ⟨i, s, ?_, rfl⟩
          rw [Table.get?_set, if_neg, hs]
          rintro rfl
          exact hname rfl
      · intro hm
        rcases List.mem_cons.1 hm with he | hm
        · have he : name = Block.fileName id "tmp" := by simpa [Block.temporary] using he
          exact ht (he ▸ Block.isTemporary_temporary id)
        · have he : name = Block.fileName id "blk" := by
            simpa [Block.path] using List.mem_singleton.1 hm
          exact hname he

/-- The block of a number reads back from its file. -/
theorem Stored.read_block (h : Stored dir blocks logNumber batches d) {id : Nat}
    {series : List Series} (hs : blocks.get? id = some series) :
    ∃ bytes, run (Disk.read (Block.path (blocksDir dir) id)) d = (.ok bytes, d) ∧
      Block.labels bytes = .ok (series.map Series.labels) ∧ Block.series bytes = .ok series := by
  obtain ⟨number, bytes, henc, hfile⟩ := h.block id series hs
  exact ⟨bytes, Disk.run_read hfile, Block.labels_of_encode henc, Block.series_of_encode henc⟩

end HeapTelemetry.Database
