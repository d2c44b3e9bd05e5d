import HeapTelemetry.Proofs.DiskLaws
import HeapTelemetry.Proofs.Series.BlockNames
import HeapTelemetry.Proofs.Series.PackedForm

/-! Block files: what was encoded reads back, a block has its name only with all
its bytes behind it, and a scan finds the blocks and clears away what unfinished
writes left. -/

namespace HeapTelemetry.Block
open Step Packed

/-! ## Content -/

theorem frame_append {α : Type} {write : α → Bytes} {reader : Reader α} (hr : Reads write reader)
    {x : α} {bytes : Bytes} (h : FileFrame.Carries (write x) bytes) (rest : Bytes) :
    frame reader (bytes ++ rest) = .ok (x, rest) := by
  obtain ⟨payload, hnext, hraw⟩ := h.next_append rest
  have hread : read? reader (write x) = some x :=
    read?_of_reads hr (Nat.lt_trans h.length_lt (by decide))
  rw [frame, hnext]
  simp only [hraw, Option.bind_some, hread]

/-- The two frames of a block of these series, however they were compressed. -/
structure Framed (series : List Series) (labelFrame sampleFrame : Bytes) : Prop where
  labels : FileFrame.Carries (ofList ofLabels (series.map Series.labels)) labelFrame
  samples : FileFrame.Carries (ofList ofSamples (series.map Series.samples)) sampleFrame

theorem framed_of_encode [Compressor] {series : List Series} {bytes : Bytes}
    (h : encode series = .ok bytes) :
    ∃ labelFrame sampleFrame, Framed series labelFrame sampleFrame ∧
      bytes = labelFrame ++ sampleFrame := by
  rw [encode] at h
  cases hl : FileFrame.encode "block frame" (ofList ofLabels (series.map Series.labels)) with
  | error e => rw [hl] at h; cases h
  | ok ls =>
    cases hs : FileFrame.encode "block frame" (ofList ofSamples (series.map Series.samples)) with
    | error e => rw [hl, hs] at h; cases h
    | ok ss =>
      rw [hl, hs] at h
      cases h
      exact ⟨ls, ss, ⟨FileFrame.carries_of_encode hl, FileFrame.carries_of_encode hs⟩, rfl⟩

theorem zipWith_mk (series : List Series) :
    (series.map Series.labels).zipWith Series.mk (series.map Series.samples) = series := by
  induction series with
  | nil => rfl
  | cons s rest ih => rw [List.map_cons, List.map_cons, List.zipWith_cons_cons, ih]

section
variable {series : List Series} {labelFrame sampleFrame bytes : Bytes}

/-- The labels are read whatever stands behind their frame. -/
theorem Framed.labels_append (h : Framed series labelFrame sampleFrame) (rest : Bytes) :
    Block.labels (labelFrame ++ rest) = .ok (series.map Series.labels) := by
  rw [Block.labels, frame_append reads_labelSets h.labels]
  rfl

theorem Framed.series_append (h : Framed series labelFrame sampleFrame) :
    Block.series (labelFrame ++ sampleFrame) = .ok series := by
  have hsecond := frame_append reads_sampleLists h.samples []
  rw [List.append_nil] at hsecond
  have hlen : (series.map Series.labels).length = (series.map Series.samples).length := by simp
  rw [Block.series, frame_append reads_labelSets h.labels]
  simp only [bind, Except.bind, hsecond, if_pos hlen, zipWith_mk]
  rfl

theorem labels_of_encode [Compressor] (h : encode series = .ok bytes) :
    labels bytes = .ok (series.map Series.labels) := by
  obtain ⟨labelFrame, sampleFrame, hframed, rfl⟩ := framed_of_encode h
  exact hframed.labels_append sampleFrame

theorem series_of_encode [Compressor] (h : encode series = .ok bytes) :
    Block.series bytes = .ok series := by
  obtain ⟨labelFrame, sampleFrame, hframed, rfl⟩ := framed_of_encode h
  exact hframed.series_append

end

/-! ## Writing -/

/-- Where a block is written before it has its name. -/
def temporary (dir : Path) (id : Nat) : Path := dir ++ [fileName id "tmp"]

theorem temporary_ne_path (dir : Path) (i j : Nat) : temporary dir i ≠ path dir j := by
  intro h
  have hname : fileName i "tmp" = fileName j "blk" := by
    have hl := congrArg List.getLast? h
    simpa [temporary, path] using hl
  have ht := isTemporary_temporary i
  rw [hname, not_temporary_block j] at ht
  cases ht

theorem keeps_write [Compressor] (dir : Path) (id : Nat) (series : List Series) :
    Disk.Keeps [temporary dir id, path dir id] (write dir id series) :=
  (Disk.keeps_ofExcept _ _).bind fun _ =>
    ((Disk.keeps_writeFile _ _).mono (by simp [temporary])).bind fun _ =>
      (Disk.keeps_sync _).bind fun _ => Disk.keeps_rename _ _

/-- A write that fails leaves at most the unfinished file behind. -/
theorem write_ifFailing [Compressor] (dir : Path) (id : Nat) (series : List Series) :
    Disk.KeepsIfFailing [temporary dir id] (write dir id series) :=
  .bind (Disk.keeps_ofExcept _ _) fun _ => .bind (Disk.keeps_writeFile _ _) fun _ =>
    .bind (Disk.keeps_sync _) fun _ => Disk.rename_ifFailing _ _ _

/-- A block that was written has its name and all its bytes. -/
theorem find?_of_write [Compressor] {dir : Path} {id : Nat} {series : List Series} {d d' : Disk}
    (h : run (write dir id series) d = (.ok ⟨⟩, d')) :
    ∃ bytes number, encode series = .ok bytes ∧
      d'.find? (path dir id) = some (.file number bytes) := by
  rw [write, run_bind_eq_ok] at h
  obtain ⟨bytes, d0, henc, h⟩ := h
  rw [run_ofExcept] at henc
  obtain ⟨hok, rfl⟩ := Prod.mk.inj henc
  obtain ⟨_, d1, hwrite, h⟩ := run_bind_eq_ok.1 h
  obtain ⟨number, hfile⟩ := Disk.find?_of_writeFile hwrite
  obtain ⟨_, d2, hsync, hrename⟩ := run_bind_eq_ok.1 h
  have hsynced := (Disk.keeps_sync [] d1).others (temporary dir id) (by simp)
  rw [hsync] at hsynced
  have hnamed := (Disk.find?_of_rename (temporary_ne_path dir id id) hrename).1
  exact ⟨bytes, number, hok, hnamed.trans (hsynced.trans hfile)⟩

/-! ## Scanning -/

/-- Removing files one by one removes them all. -/
theorem run_forM_remove {dir : Path} {names : List String} {d : Disk} (hv : d.verdicts = [])
    (hn : names.Nodup)
    (hf : ∀ name ∈ names, ∃ number content, d.find? (dir ++ [name]) = some (.file number content)) :
    ∃ d', run (names.forM fun name => Disk.remove (dir ++ [name])) d = (.ok ⟨⟩, d') ∧
      d'.verdicts = [] ∧ (d.Distinct → d'.Distinct) ∧
      ∀ q, d'.find? q = if ∃ name ∈ names, q = dir ++ [name] then none else d.find? q := by
  induction names generalizing d with
  | nil => exact ⟨d, rfl, hv, id, by simp⟩
  | cons name names ih =>
    obtain ⟨hname, hn⟩ := List.nodup_cons.1 hn
    obtain ⟨number, content, hfile⟩ := hf name List.mem_cons_self
    have hroot : dir ++ [name] ≠ [] := by simp
    have hrest : ∀ other ∈ names, ∃ number content,
        (d.drop (dir ++ [name])).find? (dir ++ [other]) = some (.file number content) := by
      intro other ho
      rw [Disk.find?_drop d hroot, if_neg]
      · exact hf other (List.mem_cons_of_mem name ho)
      · intro he
        have heq : other = name := by simpa using he
        exact hname (heq ▸ ho)
    obtain ⟨d', hrun, hv', hd', hfind⟩ := ih (d := d.drop (dir ++ [name])) hv hn hrest
    refine ⟨d', ?_, hv', fun hd => hd' (Disk.distinct_drop hd _), fun q => ?_⟩
    · show run (Disk.remove (dir ++ [name]) >>= fun _ =>
        names.forM fun name => Disk.remove (dir ++ [name])) d = _
      rw [run_bind_ok (Disk.run_remove_of_granting hv hfile)]
      exact hrun
    · rw [hfind, Disk.find?_drop d hroot]
      by_cases hq : q = dir ++ [name]
      · simp [hq]
      · simp [hq]

theorem pairwise_le_mergeSort (ids : List Nat) : ids.mergeSort.Pairwise (· ≤ ·) := by
  have htrans : ∀ a b c : Nat, decide (a ≤ b) = true → decide (b ≤ c) = true →
      decide (a ≤ c) = true := by
    intro a b c hab hbc
    rw [decide_eq_true_eq] at *
    omega
  have htotal : ∀ a b : Nat, (decide (a ≤ b) || decide (b ≤ a)) = true := by
    intro a b
    rw [Bool.or_eq_true, decide_eq_true_eq, decide_eq_true_eq]
    omega
  exact (List.pairwise_mergeSort htrans htotal ids).imp of_decide_eq_true

/-- What a scan finds where every temporary name is that of a file. -/
theorem run_scan {dir : Path} {d : Disk} (hv : d.verdicts = []) (hd : d.Distinct)
    (hf : ∀ name, isTemporary name = true → d.find? (dir ++ [name]) ≠ none →
      ∃ number content, d.find? (dir ++ [name]) = some (.file number content)) :
    ∃ ids d', run (scan dir) d = (.ok ids, d') ∧ d'.verdicts = [] ∧ d'.Distinct ∧
      ids.Pairwise (· ≤ ·) ∧
      (∀ id, id ∈ ids ↔ ∃ name, d.find? (dir ++ [name]) ≠ none ∧ id? name = some id) ∧
      (∀ name, isTemporary name = true → d'.find? (dir ++ [name]) = none) ∧
      ∀ q, (∀ name, isTemporary name = true → q ≠ dir ++ [name]) → d'.find? q = d.find? q := by
  have htemporary : ∀ name ∈ (d.list dir).filter isTemporary,
      ∃ number content, d.find? (dir ++ [name]) = some (.file number content) := by
    intro name hm
    obtain ⟨hl, ht⟩ := List.mem_filter.1 hm
    exact hf name ht (Disk.mem_list_iff.1 hl)
  obtain ⟨d', hrun, hv', hd', hfind⟩ :=
    run_forM_remove hv ((Disk.nodup_list hd dir).filter _) htemporary
  refine ⟨((d.list dir).filterMap id?).mergeSort, d', ?_, hv', hd' hd,
    pairwise_le_mergeSort _, fun id => ?_, fun name ht => ?_, fun q hq => ?_⟩
  · rw [scan, run_bind_ok (run_get d)]
    exact run_bind_ok hrun
  · rw [List.mem_mergeSort, List.mem_filterMap]
    simp only [Disk.mem_list_iff]
  · rw [hfind]
    split
    · rfl
    · rename_i hno
      apply Decidable.byContradiction
      intro hne
      exact hno ⟨name, List.mem_filter.2 ⟨Disk.mem_list_iff.2 hne, ht⟩, rfl⟩
  · rw [hfind, if_neg]
    rintro ⟨name, hm, rfl⟩
    exact hq name (List.mem_filter.1 hm).2 rfl

end HeapTelemetry.Block
