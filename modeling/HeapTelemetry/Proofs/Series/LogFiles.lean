import HeapTelemetry.Proofs.DiskLaws
import HeapTelemetry.Proofs.Series.PackedForm
import HeapTelemetry.Series.Log

/-! Log files: the frames of batches replay to these batches, and what opening,
appending to and replacing a log does to it and its file. -/

namespace HeapTelemetry.Log
open Step Packed

/-! ## Content -/

section
variable [Compressor]

/-- The bytes are the frames of the batches, one after the other. -/
inductive Holds : Bytes → List Batch → Prop
  | nil : Holds [] []
  | cons {b : Batch} {bytes rest : Bytes} {batches : List Batch} :
      frame b = .ok bytes → Holds rest batches → Holds (bytes ++ rest) (b :: batches)

theorem Holds.append {content bytes : Bytes} {batches : List Batch} {b : Batch}
    (h : Holds content batches) (hb : frame b = .ok bytes) :
    Holds (content ++ bytes) (batches ++ [b]) := by
  induction h with
  | nil =>
    have hone := Holds.cons hb Holds.nil
    rw [List.append_nil] at hone
    exact hone
  | cons hframe _ ih =>
    rw [List.append_assoc]
    exact Holds.cons hframe ih

/-- The batch is not too large for a frame. -/
def Fits (b : Batch) : Prop := FileFrame.Fits (ofList ofSeries b)

instance (b : Batch) : Decidable (Fits b) :=
  inferInstanceAs (Decidable ((Compressor.compress (ofList ofSeries b)).length < UInt32.size))

theorem exists_frame_iff (b : Batch) : (∃ bytes, frame b = .ok bytes) ↔ Fits b :=
  FileFrame.exists_encode_iff _ _

theorem batch?_of_frame {b : Batch} {bytes : Bytes} (h : frame b = .ok bytes) (rest : Bytes) :
    ∃ payload, FileFrame.next (bytes ++ rest) = .frame payload rest ∧
      batch? payload = some b := by
  have hcarries := FileFrame.carries_of_encode h
  obtain ⟨payload, hnext, hraw⟩ := hcarries.next_append rest
  have hread : read? (list? series?) (ofList ofSeries b) = some b :=
    read?_of_reads reads_batch (Nat.lt_trans hcarries.length_lt (by decide))
  refine ⟨payload, hnext, ?_⟩
  rw [batch?, hraw, Option.bind_eq_bind, Option.bind_some, hread]

/-- The scan takes a frame that is whole, and goes on behind it. -/
theorem scan_frame {b : Batch} {bytes : Bytes} (h : frame b = .ok bytes) (fuel : Nat)
    (rest : Bytes) : scan (fuel + 1) (bytes ++ rest) =
      (b :: (scan fuel rest).1, bytes.length + (scan fuel rest).2) := by
  obtain ⟨payload, hnext, hbatch⟩ := batch?_of_frame h rest
  rw [scan, hnext]
  simp only [hbatch, List.length_append, Nat.add_sub_cancel]

/-- Every frame takes a byte, so as much fuel as bytes is enough. -/
theorem scan_of_holds {content : Bytes} {batches : List Batch} (h : Holds content batches)
    (fuel : Nat) (hf : content.length ≤ fuel) : scan fuel content = (batches, content.length) := by
  induction h generalizing fuel with
  | nil => cases fuel <;> rfl
  | cons hframe _ ih =>
    have hpos := (FileFrame.carries_of_encode hframe).length_pos
    rw [List.length_append] at hf
    cases fuel with
    | zero => omega
    | succ fuel => rw [scan_frame hframe, ih fuel (by omega), List.length_append]

/-- A log gives back all batches that were written to it. -/
theorem replay_of_holds {content : Bytes} {batches : List Batch} (h : Holds content batches) :
    replay content = (batches, content.length) :=
  scan_of_holds h content.length (Nat.le_refl _)

/-! ## Opening -/

theorem run_openAt {path : Path} {sync : Bool} {d : Disk} {number : Nat} {content : Bytes}
    {batches : List Batch} (hv : d.verdicts = []) (hf : d.find? path = some (.file number content))
    (h : Holds content batches) :
    run (openAt path sync) d =
      (.ok (⟨path, ⟨path, number⟩, sync, content.length, false⟩, batches), d) := by
  have hdir := Disk.not_directory_of_file hf
  have hcontent : (d.content? path).getD [] = content := by rw [Disk.content?, hf]; rfl
  rw [openAt, run_bind_ok (run_get d)]
  simp only [hdir, Bool.false_eq_true, ↓reduceIte, hcontent, replay_of_holds h]
  rw [run_bind_ok (Disk.run_openFile_of_granting hv hf)]
  simp

theorem run_openAt_missing {path : Path} {sync : Bool} {d : Disk} (hv : d.verdicts = [])
    (hf : d.find? path = none) (hdir : d.isDirectory path.dropLast = true) :
    run (openAt path sync) d =
      (.ok (⟨path, ⟨path, d.nextNumber⟩, sync, 0, false⟩, []),
        { d.put path (.file d.nextNumber []) with nextNumber := d.nextNumber + 1 }) := by
  have hno : d.isDirectory path = false := Disk.isDirectory_eq_false.2 (by rw [hf]; simp)
  have hcontent : (d.content? path).getD [] = [] := by rw [Disk.content?, hf]; rfl
  rw [openAt, run_bind_ok (run_get d)]
  simp only [hno, Bool.false_eq_true, ↓reduceIte, hcontent, replay_of_holds Holds.nil]
  rw [run_bind_ok (Disk.run_openFile_missing hv hf hdir)]
  simp

end

/-! ## Appending -/

theorem run_write {log : Log} {d : Disk} (hv : d.verdicts = []) (bytes : Bytes) :
    run (write bytes) (log, d) = (.ok ⟨⟩, log, d.change log.handle (· ++ bytes)) := by
  have happend : run (Disk.append log.handle bytes) d =
      (.ok ⟨⟩, d.change log.handle (· ++ bytes)) := Disk.run_append_of_granting hv
  have hv' : (d.change log.handle (· ++ bytes)).verdicts = [] :=
    (Disk.kept_change log.handle _).granting hv
  rw [write, run_bind_ok (run_get _)]
  simp only [onDisk, run_on]
  rw [run_bind_ok happend]
  split
  · rw [Disk.run_sync_of_granting hv']
  · rfl

/-- An append to an intact log that meets no failure. -/
theorem run_append [Compressor] {log : Log} {d : Disk} {b : Batch} {bytes : Bytes}
    (hv : d.verdicts = []) (ht : log.torn = false) (hb : frame b = .ok bytes) :
    run (append b) (log, d) = (.ok ⟨⟩, { log with length := log.length + bytes.length },
      d.change log.handle (· ++ bytes)) := by
  have hrepair : run repair (log, d) = (.ok ⟨⟩, log, d) := by
    rw [repair, run_bind_ok (run_get _)]
    simp only [ht, Bool.false_eq_true, ↓reduceIte]
    rfl
  rw [append, hb, run_bind_ok (run_ofExcept _ _), run_bind_ok hrepair,
    run_bind_ok (run_attempt _ _), run_write hv]
  rfl

theorem run_append_oversized [Compressor] {log : Log} {d : Disk} {b : Batch} {e : Error}
    (hb : frame b = .error e) : run (append b) (log, d) = (.error e, log, d) := by
  rw [append, hb]
  exact run_bind_error (run_ofExcept _ _)

/-! ## Replacing -/

theorem temporary_ne (path : Path) : temporary path ≠ path := by
  intro h
  have hl := congrArg List.getLast? h
  rw [temporary, List.getLast?_concat] at hl
  rw [← hl] at hl
  have hlen := congrArg String.length (Option.some.inj hl)
  simp at hlen

theorem renew_ifFailing (path : Path) (bytes : Bytes) :
    Disk.KeepsIfFailing [temporary path] (renew path bytes) :=
  .bind (Disk.keeps_writeFile _ _) fun _ => .bind (Disk.keeps_openFile _) fun _ =>
    .bind (Disk.keeps_sync _) fun _ => by
      intro d e he
      rw [run_bind] at he ⊢
      split at he
      · cases he
      · rename_i e' t h
        have hr := Disk.rename_ifFailing [temporary path] (temporary path) path d e'
        rw [h] at hr
        exact hr rfl

theorem keeps_renew (path : Path) (bytes : Bytes) :
    Disk.Keeps [temporary path, path] (renew path bytes) :=
  ((Disk.keeps_writeFile _ _).mono (by simp)).bind fun _ =>
    ((Disk.keeps_openFile _).mono (by simp)).bind fun _ =>
      (Disk.keeps_sync _).bind fun _ => (Disk.keeps_rename _ _).bind fun _ => Disk.keeps_pure _ _

/-- A file that was renewed is open under its name with the new bytes. -/
theorem find?_of_renew {path : Path} {bytes : Bytes} {d d' : Disk} {handle : Handle}
    (h : run (renew path bytes) d = (.ok handle, d')) :
    handle.path = path ∧ d'.find? path = some (.file handle.number bytes) := by
  rw [renew] at h
  obtain ⟨_, d1, hwrite, h⟩ := run_bind_eq_ok.1 h
  obtain ⟨number, hfile⟩ := Disk.find?_of_writeFile hwrite
  obtain ⟨opened, d2, hopen, h⟩ := run_bind_eq_ok.1 h
  obtain ⟨_, d3, hsync, h⟩ := run_bind_eq_ok.1 h
  obtain ⟨_, d4, hrename, h⟩ := run_bind_eq_ok.1 h
  have hsynced := (Disk.keeps_sync [] d2).others (temporary path) (by simp)
  rw [hsync] at hsynced
  have hnamed := (Disk.find?_of_rename (temporary_ne path) hrename).1
  rw [run_pure] at h
  cases h
  rcases Disk.run_openFile hfile with hfail | hok
  · rw [hopen] at hfail
    cases hfail
  · rw [hopen] at hok
    cases hok
    exact ⟨rfl, hnamed.trans (hsynced.trans hfile)⟩

/-- The batches of a log that was replaced. -/
def renewed (b : Batch) : List Batch := if b.isEmpty then [] else [b]

theorem holds_renewed [Compressor] {b : Batch} {bytes : Bytes}
    (h : (if b.isEmpty then .ok [] else frame b) = .ok bytes) : Holds bytes (renewed b) := by
  cases b with
  | nil =>
    cases h
    exact Holds.nil
  | cons s rest =>
    have hone := Holds.cons h Holds.nil
    rw [List.append_nil] at hone
    exact hone

theorem flatten_renewed (b : Batch) : (renewed b).flatten = b := by
  rw [renewed]
  split
  · rename_i hb
    rw [List.isEmpty_iff.1 hb]
    rfl
  · simp

theorem replace_eq [Compressor] (b : Batch) : replace b = (do
    let bytes ← Step.ofExcept (if b.isEmpty then .ok [] else frame b)
    let (log, _) ← get
    let handle ← onDisk (renew log.path bytes)
    modify fun (log, d) => ({ log with handle, length := bytes.length, torn := false }, d)) := by
  rw [replace]
  cases b <;> rfl

/-- A replacement fails and changes nothing that counts, or the log holds just
the new batch. -/
theorem replace_cases [Compressor] (b : Batch) (log : Log) (d : Disk) :
    (∃ e d', run (replace b) (log, d) = (.error e, log, d') ∧
      Disk.Kept [temporary log.path] d d') ∨
    (∃ number bytes d', run (replace b) (log, d) = (.ok ⟨⟩,
        { log with handle := ⟨log.path, number⟩, length := bytes.length, torn := false }, d') ∧
      Holds bytes (renewed b) ∧ d'.find? log.path = some (.file number bytes) ∧
      Disk.Kept [temporary log.path, log.path] d d') := by
  rw [replace_eq]
  cases hbytes : (if b.isEmpty then .ok [] else frame b) with
  | error e =>
    rw [run_bind_error (run_ofExcept _ _)]
    exact Or.inl ⟨e, d, rfl, Disk.Kept.refl _ d⟩
  | ok bytes =>
    rw [run_bind_ok (run_ofExcept _ _), run_bind_ok (run_get _)]
    simp only
    have hkept := keeps_renew log.path bytes d
    have hfailed := renew_ifFailing log.path bytes d
    cases hrun : run (renew log.path bytes) d with
    | mk r d' =>
      rw [hrun] at hkept hfailed
      have hon : run (onDisk (renew log.path bytes)) (log, d) = (r, log, d') := by
        rw [onDisk, run_on, hrun]
      cases r with
      | error e =>
        rw [run_bind_error hon]
        exact Or.inl ⟨e, d', rfl, hfailed e rfl⟩
      | ok handle =>
        obtain ⟨hpath, hfile⟩ := find?_of_renew hrun
        rw [run_bind_ok hon]
        obtain ⟨path, number⟩ := handle
        cases hpath
        exact Or.inr ⟨number, bytes, d', rfl, holds_renewed hbytes, hfile, hkept⟩

end HeapTelemetry.Log
