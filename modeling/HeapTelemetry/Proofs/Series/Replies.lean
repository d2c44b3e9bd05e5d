import HeapTelemetry.Proofs.Series.Refinement
import Mathlib.Data.List.Nodup

/-! What a database replies is fixed by the ledger that it follows. Two databases with one
ledger cannot be told apart, however their samples are spread over memory, log and blocks,
and however a device fails that both of them meet. -/

namespace HeapTelemetry
open Step

/-! ## Lengths of frames -/

/-- Without copies it depends on how much is packed whether a frame is too long, and how long
it is. -/
theorem FileFrame.encode_length (what : String) {raw raw' : Bytes}
    (h : raw.length = raw'.length) :
    (encode what raw).map List.length = (encode what raw').map List.length := by
  have hpayload : (Compressor.compress raw).length = (Compressor.compress raw').length := by
    show (Compressed.compress raw).length = (Compressed.compress raw').length
    rw [Compressed.length_compress, Compressed.length_compress, h]
  simp only [encode, hpayload]
  split
  · simp [Except.map, hpayload]
  · rfl

theorem Packed.ofList_length {α : Type} (write : α → Bytes) {xs ys : List α} (h : xs.Perm ys) :
    (ofList write xs).length = (ofList write ys).length := by
  rw [ofList, ofList, h.length_eq, List.length_append, List.length_append,
    (h.flatMap_right write).length_eq]

/-- A block is as long as its two frames. -/
theorem Block.length_encode [Compressor] (series : List Series) : (encode series).map List.length =
    ((FileFrame.encode "block frame" (Packed.ofList Packed.ofLabels
        (series.map Series.labels))).map List.length).bind fun n =>
      ((FileFrame.encode "block frame" (Packed.ofList Packed.ofSamples
        (series.map Series.samples))).map List.length).map (n + ·) := by
  rw [encode]
  cases FileFrame.encode "block frame"
    (Packed.ofList Packed.ofLabels (series.map Series.labels)) with
  | error e => rfl
  | ok ls =>
    cases FileFrame.encode "block frame"
        (Packed.ofList Packed.ofSamples (series.map Series.samples)) with
    | error e => rfl
    | ok ss => exact congrArg Except.ok List.length_append

/-- It takes the same room in whatever order it holds its series. -/
theorem Block.encode_length {series series' : List Series} (h : series.Perm series') :
    (encode series).map List.length = (encode series').map List.length := by
  rw [length_encode, length_encode,
    FileFrame.encode_length _ (Packed.ofList_length Packed.ofLabels (h.map Series.labels)),
    FileFrame.encode_length _ (Packed.ofList_length Packed.ofSamples (h.map Series.samples))]

/-! ## Steps on files -/

/-- What a step replies that is made or refused. -/
def Verdict.permits : Verdict → Except Error Unit
  | .refuse => .error .io
  | _ => .ok ()

/-- What a write of so many bytes replies. -/
def Verdict.writes (length : Nat) : Verdict → Except Error Unit
  | .grant => .ok ()
  | .room n => if n < length then .error .io else .ok ()
  | .refuse => .error .io

namespace Disk
variable {d : Disk} {p : Path}

theorem reply_granted (d : Disk) :
    run granted d = ((d.verdicts.headD .grant).permits, d.answered) := by
  rw [run_granted]
  cases d.verdicts.headD .grant <;> rfl

theorem reply_writeFile (bytes : Bytes) (hp : d.isDirectory p = false)
    (hdir : d.isDirectory p.dropLast = true) :
    (run (writeFile p bytes) d).1 = (d.verdicts.headD .grant).writes bytes.length ∧
      (run (writeFile p bytes) d).2.verdicts = d.verdicts.tail := by
  rw [writeFile, run_bind_ok (run_verdict d), run_bind_ok (run_get _)]
  simp only [isDirectory_answered, hp, hdir]
  cases d.verdicts.headD .grant with
  | grant => exact ⟨rfl, rfl⟩
  | refuse => exact ⟨rfl, rfl⟩
  | room n =>
    rw [if_neg (by simp), run_bind_ok (run_set _ _), Verdict.writes]
    split <;> exact ⟨rfl, rfl⟩

theorem reply_rename {old new : Path} {number : Nat} {content : Bytes}
    (hold : d.find? old = some (.file number content)) (hnew : d.isDirectory new = false)
    (hdir : d.isDirectory new.dropLast = true) :
    (run (rename old new) d).1 = (d.verdicts.headD .grant).permits := by
  rw [rename, run_bind, reply_granted]
  cases (d.verdicts.headD .grant).permits with
  | error e => rfl
  | ok u =>
    simp only
    rw [run_bind_ok (run_get _), find?_answered, hold]
    simp only [isDirectory_answered, hnew, hdir]
    rfl

end Disk

/-- What these answers of the device make of writing a block of so many bytes. -/
def Block.replied (vs : List Verdict) (length : Nat) : Except Error Unit := do
  (vs.headD .grant).writes length
  (vs.tail.headD .grant).permits
  (vs.tail.tail.headD .grant).permits

/-- Writing a block replies as its length and the answers of the device have it. -/
theorem Block.reply_write [Compressor] {dir : Path} {id : Nat} {series : List Series} {d : Disk}
    (htemporary : d.isDirectory (temporary dir id) = false)
    (hpath : d.isDirectory (path dir id) = false) (hdir : d.isDirectory dir = true) :
    (run (write dir id series) d).1 =
      ((encode series).map List.length).bind (replied d.verdicts) := by
  rw [write, run_bind, run_ofExcept]
  cases hencode : encode series with
  | error e => rfl
  | ok bytes =>
    have hbelow : ∀ name, (dir ++ [name]).dropLast = dir := fun name => List.dropLast_concat
    obtain ⟨hreply, hverdicts⟩ := Disk.reply_writeFile bytes htemporary
      (by rw [temporary, hbelow, hdir])
    have hkept := Disk.keeps_writeFile (temporary dir id) bytes d
    simp only [Except.map, Except.bind, replied]
    show (run (Disk.writeFile (temporary dir id) bytes >>= fun _ => Disk.sync >>= fun _ =>
      Disk.rename (temporary dir id) (path dir id)) d).1 = _
    rw [← hreply]
    cases hwrite : run (Disk.writeFile (temporary dir id) bytes) d with
    | mk r d1 =>
      rw [hwrite] at hverdicts hkept
      cases r with
      | error e =>
        rw [run_bind_error hwrite]
        rfl
      | ok u =>
        obtain ⟨number, hfile⟩ := Disk.find?_of_writeFile hwrite
        have hsync : run Disk.sync d1 = _ := Disk.reply_granted d1
        have hlast : d1.answered.verdicts = d.verdicts.tail.tail := congrArg List.tail hverdicts
        have hrename : (run (Disk.rename (temporary dir id) (path dir id)) d1.answered).1 = _ :=
          Disk.reply_rename hfile ((hkept.directories _).trans hpath)
            ((hkept.directories _).trans (by rw [path, hbelow, hdir]))
        rw [run_bind_ok hwrite, run_bind, hsync, hverdicts]
        rw [hlast] at hrename
        cases (d.verdicts.tail.headD .grant).permits with
        | error e => rfl
        | ok u => exact hrename

/-! ## Databases of one ledger -/

namespace Database
variable {ledger : Ledger} {bound bound' : Nat} {db db' : Database} {d d' : Disk}

/-- In memory are the series that have samples and are not sealed. -/
theorem Follows.mem_head (h : Follows ledger bound db d) (x : Series) : x ∈ db.head.series ↔
    x.samples ≠ [] ∧ ledger.samples x.labels = x.samples ∧ ledger.isSealed x.labels = false := by
  obtain ⟨blocks, logNumber, batches, hs, hheld⟩ := h.sound
  rw [Batch.mem_iff_samples hs.head.distinct hs.headFilled, ← hheld, ← h.isSealed, held_eq]
  refine and_congr_right fun hne => ?_
  cases hsealed : db.sealedIn.contains x.labels with
  | true =>
    rw [hs.samples_head hsealed]
    exact ⟨fun hx => absurd hx.symm hne, fun hx => nomatch hx.2⟩
  | false =>
    rw [hs.samples_blocks hsealed, List.append_nil]
    exact ⟨fun hx => ⟨hx, rfl⟩, And.left⟩

theorem Follows.nodup_head (h : Follows ledger bound db d) : db.head.series.Nodup := by
  obtain ⟨_, _, _, hs, _⟩ := h.sound
  exact List.Nodup.of_map _ hs.head.distinct

theorem Follows.perm_head (h : Follows ledger bound db d) (h' : Follows ledger bound' db' d') :
    db.head.series.Perm db'.head.series :=
  (List.perm_ext_iff_of_nodup h.nodup_head h'.nodup_head).2 fun x => by
    rw [h.mem_head, h'.mem_head]

theorem Follows.lastTime (h : Follows ledger bound db d) {l : Labels}
    (hl : ledger.isSealed l = false) :
    db.head.lastTime l = (ledger.samples l).getLast?.map Sample.time := by
  obtain ⟨blocks, logNumber, batches, hs, hheld⟩ := h.sound
  rw [← h.isSealed] at hl
  rw [Head.lastTime_eq hs.head, ← hheld, held_eq, hs.samples_blocks hl, List.append_nil]

/-- A batch is refused for one reason. -/
theorem Follows.check_congr (h : Follows ledger bound db d) (h' : Follows ledger bound' db' d')
    (b : Batch) : db.check b = db'.check b := by
  have hseries : db.checkSeries = db'.checkSeries := by
    funext s
    rw [checkSeries, checkSeries, h.isSealed, h'.isSealed]
    cases hl : ledger.isSealed s.labels with
    | true => rfl
    | false => rw [h.lastTime hl, h'.lastTime hl]
  rw [check, check, hseries]

/-! ## Replies -/

/-- Both are closed, or both have a log. -/
theorem Follows.logs (h : Follows ledger bound db d) (h' : Follows ledger bound' db' d') :
    db.log = none ∧ db'.log = none ∨ ∃ log log', db.log = some log ∧ db'.log = some log' := by
  have hopen : db.log.isSome = db'.log.isSome := h.isOpen.trans h'.isOpen.symm
  cases hlog : db.log with
  | none =>
    rw [hlog] at hopen
    exact Or.inl ⟨rfl, Option.not_isSome_iff_eq_none.1 (by simp [← hopen])⟩
  | some log =>
    rw [hlog] at hopen
    obtain ⟨log', hlog'⟩ := Option.isSome_iff_exists.1 hopen.symm
    exact Or.inr ⟨log, log', rfl, hlog'⟩

theorem Follows.reply_commit (h : Follows ledger bound db d) (h' : Follows ledger bound' db' d')
    (b : Batch) : (Step.run (commit b) (db, d)).1 = (Step.run (commit b) (db', d')).1 := by
  by_cases hb : b.size = 0
  · rw [run_commit_empty hb, run_commit_empty hb]
  obtain ⟨_, _, _, hs, _⟩ := h.sound
  obtain ⟨_, _, _, hs', _⟩ := h'.sound
  rcases h.logs h' with ⟨hlog, hlog'⟩ | ⟨log, log', hlog, hlog'⟩
  · rw [run_commit_closed hb hlog, run_commit_closed hb hlog']
  · have hsame := h.check_congr h' b
    cases hcheck : db.check b with
    | error e =>
      rw [run_commit_rejected hb hlog hcheck, run_commit_rejected hb hlog' (hsame ▸ hcheck)]
    | ok u =>
      cases hframe : Log.frame b with
      | error e =>
        rw [run_commit_oversized hb hlog hcheck hframe,
          run_commit_oversized hb hlog' (hsame ▸ hcheck) hframe]
      | ok bytes =>
        rw [run_commit_accepted hb hlog (hs.log log hlog).intact hs.granting hcheck hframe,
          run_commit_accepted hb hlog' (hs'.log log' hlog').intact hs'.granting (hsame ▸ hcheck)
            hframe]

/-- The place of the next block is free, in the directory of blocks. -/
theorem Sound.reply_write {blocks : Table Nat (List Series)} {logNumber : Nat}
    {batches : List Batch} (h : Sound blocks logNumber batches bound db d)
    (series : List Series) (answers : List Verdict) :
    (run (Block.write (blocksDir db.dir) db.nextBlock series) (d.facing answers)).1 =
      ((Block.encode series).map List.length).bind (Block.replied answers) := by
  have hst := h.stored.facing answers
  refine Block.reply_write (hst.temporary_file (Block.isTemporary_temporary _)) ?_
    (hst.directories _ (List.prefix_refl _))
  rw [Disk.isDirectory_eq_false]
  intro hdirectory
  have hfound : (d.facing answers).find? (blocksDir db.dir ++ [Block.fileName db.nextBlock "blk"]) ≠
      none := by
    rw [← Block.path, hdirectory]
    exact Option.some_ne_none _
  rcases hst.entries _ hfound with ⟨htemporary, _⟩ | ⟨id, series', hget, hname⟩
  · rw [Block.not_temporary_block] at htemporary
    cases htemporary
  · rw [← Block.fileName_injective hname, h.next_free] at hget
    cases hget

/-- A seal replies as the length of its block and the answers of the device have it. -/
theorem Sound.reply_seal {blocks : Table Nat (List Series)} {logNumber : Nat}
    {batches : List Batch} (h : Sound blocks logNumber batches bound db d) {log : Log}
    (hlog : db.log = some log) (ms : List Matcher) (answers : List Verdict) :
    (run (sealMatching ms) (db, d.facing answers)).1 =
      if (db.head.take ms).1.isEmpty then .ok 0
      else (((Block.encode (db.head.take ms).1).map List.length).bind (Block.replied answers)).map
        fun _ => (db.head.take ms).1.length := by
  rw [run_sealMatching hlog, ← h.reply_write]
  split
  · rfl
  · cases run (Block.write (blocksDir db.dir) db.nextBlock (db.head.take ms).1)
        (d.facing answers) with
    | mk r d1 => cases r <;> rfl

theorem Follows.reply_seal (h : Follows ledger bound db d) (h' : Follows ledger bound' db' d')
    (ms : List Matcher) (answers : List Verdict) :
    (Step.run (sealMatching ms) (db, d.facing answers)).1 =
      (Step.run (sealMatching ms) (db', d'.facing answers)).1 := by
  obtain ⟨_, _, _, hs, _⟩ := h.sound
  obtain ⟨_, _, _, hs', _⟩ := h'.sound
  rcases h.logs h' with ⟨hlog, hlog'⟩ | ⟨log, log', hlog, hlog'⟩
  · rw [run_seal_closed hlog, run_seal_closed hlog']
  · have htaken : (db.head.take ms).1.Perm (db'.head.take ms).1 := by
      rw [Head.take_fst, Head.take_fst]
      exact (h.perm_head h').filter _
    rw [hs.reply_seal hlog, hs'.reply_seal hlog', htaken.isEmpty_eq, htaken.length_eq,
      Block.encode_length htaken]

/-- Databases of one ledger give a call one reply. -/
theorem Follows.reply (h : Follows ledger bound db d) (h' : Follows ledger bound' db' d')
    (call : Call) :
    (Step.run (perform call) (db, d)).1 = (Step.run (perform call) (db', d')).1 := by
  cases call with
  | commit adds =>
    rw [run_perform_commit, run_perform_commit, h.reply_commit h']
  | rollback adds => rfl
  | sealing ms answers =>
    exact congrArg (Except.map fun _ => ()) (h.reply_seal h' ms answers)
  | close =>
    obtain ⟨_, hrun, _⟩ := h.closing
    obtain ⟨_, hrun', _⟩ := h'.closing
    rw [hrun, hrun']
  | reopen syncWrite =>
    obtain ⟨_, _, _, hrun, _⟩ := h.reopening syncWrite
    obtain ⟨_, _, _, hrun', _⟩ := h'.reopening syncWrite
    rw [hrun, hrun']

/-! ## Runs -/

/-- Makes the calls one after the other: what they reply, and the database after them. -/
def callAll : List Call → Database × Disk → List (Except Error Unit) × (Database × Disk)
  | [], s => ([], s)
  | call :: calls, s =>
    let r := run (perform call) s
    let rest := callAll calls r.2
    (r.1 :: rest.1, rest.2)

end Database
end HeapTelemetry
