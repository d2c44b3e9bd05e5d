import HeapTelemetry.Proofs.Series.LogFiles
import Mathlib.Algebra.GroupWithZero.Nat

/-! Logs that lost their end. Of a file that was cut anywhere the batches come back whose
frames are whole, in order; the rest of a broken frame is cut away, and what is appended
then stands right behind the last whole one. -/

namespace HeapTelemetry.Log
open Step

/-! ## Places in a log -/

def frameLength [Compressor] (b : Batch) : Nat := (frame b).toOption.elim 0 List.length

/-- The batches, each with the place where its frame ends; the first frame starts here. -/
def ends [Compressor] (start : Nat) : List Batch → List (Batch × Nat)
  | [] => []
  | b :: rest => (b, start + frameLength b) :: ends (start + frameLength b) rest

/-- The batches whose frames end at or before a place. -/
def endedBy [Compressor] (k : Nat) (batches : List Batch) : List (Batch × Nat) :=
  (ends 0 batches).filter (·.2 ≤ k)

/-- Where the last of these frames ends. -/
def lastEnd (start : Nat) (placed : List (Batch × Nat)) : Nat :=
  (placed.getLast?.map Prod.snd).getD start

theorem lastEnd_cons (start : Nat) (e : Batch × Nat) (placed : List (Batch × Nat)) :
    lastEnd start (e :: placed) = lastEnd e.2 placed := by
  rw [lastEnd, lastEnd, List.getLast?_cons]
  cases placed.getLast? <;> rfl

section
variable [Compressor]

theorem frameLength_eq {b : Batch} {bytes : Bytes} (h : frame b = .ok bytes) :
    frameLength b = bytes.length := by
  rw [frameLength, h]
  rfl

/-- The frames fill the log. -/
theorem Holds.length_eq {content : Bytes} {batches : List Batch} (h : Holds content batches) :
    content.length = (batches.map frameLength).sum := by
  induction h with
  | nil => rfl
  | cons hframe _ ih =>
    rw [List.length_append, ih, List.map_cons, List.sum_cons, frameLength_eq hframe]

theorem le_of_mem_ends {start : Nat} {batches : List Batch} :
    ∀ e ∈ ends start batches, start ≤ e.2 := by
  induction batches generalizing start with
  | nil => exact fun e he => absurd he List.not_mem_nil
  | cons b rest ih =>
    intro e he
    rcases List.mem_cons.1 he with rfl | he
    · exact Nat.le_add_right _ _
    · exact Nat.le_trans (Nat.le_add_right _ _) (ih e he)

/-! ## Replaying what is left -/

/-- The scan stops at a frame that lost its end. -/
theorem scan_broken {b : Batch} {bytes : Bytes} (h : frame b = .ok bytes) {k : Nat}
    (hk : k < bytes.length) (rest : Bytes) (fuel : Nat) :
    scan fuel ((bytes ++ rest).take k) = ([], 0) := by
  rw [List.take_append_of_le_length (Nat.le_of_lt hk)]
  cases fuel with
  | zero => rfl
  | succ fuel =>
    rw [scan, (FileFrame.carries_of_encode h).next_take hk]
    by_cases hheader : k < 4
    · rw [if_pos hheader]
    · rw [if_neg hheader]

/-- Of a log cut at `k` the scan finds the frames that end there or before, and takes just
their bytes. Induction on the frames: each is whole, or it is the one that was broken. -/
theorem scan_take {content : Bytes} {batches : List Batch} (h : Holds content batches)
    (start : Nat) {k fuel : Nat} (hk : k ≤ content.length) (hf : k ≤ fuel) :
    let left := (ends start batches).filter (·.2 ≤ start + k)
    ∃ n, scan fuel (content.take k) = (left.map Prod.fst, n) ∧ n ≤ k ∧
      start + n = lastEnd start left ∧ Holds (content.take n) (left.map Prod.fst) := by
  induction h generalizing start k fuel with
  | nil =>
    refine ⟨0, ?_, Nat.zero_le k, rfl, Holds.nil⟩
    rw [List.take_nil]
    cases fuel <;> rfl
  | @cons b bytes rest batches hframe hrest ih =>
    have hlength := frameLength_eq hframe
    have hpos := (FileFrame.carries_of_encode hframe).length_pos
    rw [List.length_append] at hk
    by_cases hwhole : bytes.length ≤ k
    · obtain ⟨fuel, rfl⟩ : ∃ n, fuel = n + 1 := ⟨fuel - 1, by omega⟩
      obtain ⟨n, hscan, hn, hend, hholds⟩ := ih (start + bytes.length)
        (show k - bytes.length ≤ rest.length by omega) (show k - bytes.length ≤ fuel by omega)
      have hplace : start + bytes.length + (k - bytes.length) = start + k := by omega
      rw [hplace] at hscan hend hholds
      have hleft : (ends start (b :: batches)).filter (·.2 ≤ start + k) =
          (b, start + bytes.length) ::
            (ends (start + bytes.length) batches).filter (·.2 ≤ start + k) := by
        rw [ends, hlength, List.filter_cons_of_pos (by simpa using hwhole)]
      have htake : ∀ j, (bytes ++ rest).take (bytes.length + j) = bytes ++ rest.take j := fun j =>
        List.take_length_add_append j
      have hcut : (bytes ++ rest).take k = bytes ++ rest.take (k - bytes.length) := by
        rw [← htake, Nat.add_sub_of_le hwhole]
      rw [hleft]
      refine ⟨bytes.length + n, ?_, by omega, ?_, ?_⟩
      · rw [hcut, scan_frame hframe, hscan, List.map_cons]
      · rw [lastEnd_cons, ← hend, Nat.add_assoc]
      · rw [htake]
        exact Holds.cons hframe hholds
    · have hnone : (ends start (b :: batches)).filter (·.2 ≤ start + k) = [] := by
        rw [List.filter_eq_nil_iff]
        intro e he hle
        have hend : start + bytes.length ≤ e.2 := by
          rw [← hlength]
          rcases List.mem_cons.1 he with rfl | he
          · exact Nat.le_refl _
          · exact le_of_mem_ends e he
        have hle : e.2 ≤ start + k := of_decide_eq_true hle
        omega
      rw [hnone]
      exact ⟨0, scan_broken hframe (Nat.not_le.1 hwhole) rest fuel, Nat.zero_le k, rfl, Holds.nil⟩

theorem replay_take {content : Bytes} {batches : List Batch} (h : Holds content batches) {k : Nat}
    (hk : k ≤ content.length) : let left := endedBy k batches
    replay (content.take k) = (left.map Prod.fst, lastEnd 0 left) ∧ lastEnd 0 left ≤ k ∧
      Holds (content.take (lastEnd 0 left)) (left.map Prod.fst) := by
  obtain ⟨n, hscan, hn, hend, hholds⟩ :=
    scan_take h 0 hk (Nat.le_of_eq (List.length_take_of_le hk).symm)
  simp only [Nat.zero_add] at hscan hend hholds
  subst hend
  exact ⟨hscan, hn, hholds⟩

end

/-! ## Open logs -/

/-- The file of the log has the frames of these batches and nothing behind them. -/
structure Intact [Compressor] (batches : List Batch) (log : Log) (d : Disk) : Prop where
  granting : d.verdicts = []
  repaired : log.torn = false
  path : log.handle.path = log.path
  file : ∃ content, d.find? log.path = some (.file log.handle.number content) ∧
    Holds content batches

variable {batches : List Batch} {log : Log} {d : Disk} {path : Path}

/-- Opening a file cuts it to what was replayed. -/
theorem run_openAt_replayed {number : Nat} {content : Bytes} (hv : d.verdicts = [])
    (hf : d.find? path = some (.file number content)) (sync : Bool) :
    ∃ log d', run (openAt path sync) d = (.ok (log, (replay content).1), d') ∧
      log.path = path ∧ log.handle.path = path ∧ log.torn = false ∧ d'.verdicts = [] ∧
      d'.find? path = some (.file log.handle.number (content.take (replay content).2)) := by
  have hdir := Disk.not_directory_of_file hf
  have hcontent : (d.content? path).getD [] = content := by rw [Disk.content?, hf]; rfl
  rw [openAt, run_bind_ok (run_get d)]
  simp only [hdir, Bool.false_eq_true, ↓reduceIte, hcontent]
  rw [run_bind_ok (Disk.run_openFile_of_granting hv hf)]
  generalize replay content = replayed
  obtain ⟨batches, length⟩ := replayed
  by_cases hlt : length < content.length
  · have hfile := Disk.find?_change (h := ⟨path, number⟩) hf (·.take length)
    have hv' : (d.change ⟨path, number⟩ (·.take length)).verdicts = [] :=
      (Disk.kept_change _ _).granting hv
    have hcut : run (Disk.truncate ⟨path, number⟩ length) d =
        (.ok ⟨⟩, d.change ⟨path, number⟩ (·.take length)) := by
      rw [Disk.truncate, run_bind_ok (Disk.run_granted_of_granting hv), run_modify]
    simp only [hlt, ↓reduceIte]
    rw [run_bind_ok hcut, run_bind_ok (Disk.run_sync_of_granting hv')]
    exact ⟨_, _, rfl, rfl, rfl, rfl, hv', hfile⟩
  · have hsame : content.take length = content := List.take_of_length_le (Nat.not_lt.1 hlt)
    simp only [hlt, ↓reduceIte, hsame]
    exact ⟨_, _, rfl, rfl, rfl, rfl, hv, hf⟩

section
variable [Compressor]

/-- An append adds its batch, unless that is too large for a frame. -/
theorem Intact.append (h : Intact batches log d) (b : Batch) : ∃ r log' d',
    run (append b) (log, d) = (r, log', d') ∧ log'.path = log.path ∧ (r = .ok () ↔ Fits b) ∧
      Intact (batches ++ [b].filter (Fits ·)) log' d' := by
  cases hframe : frame b with
  | error e =>
    have hlarge : ¬ Fits b := fun hfits => by
      obtain ⟨bytes, hbytes⟩ := (exists_frame_iff b).2 hfits
      cases hframe.symm.trans hbytes
    refine ⟨.error e, log, d, run_append_oversized hframe, rfl, by simp [hlarge], ?_⟩
    simpa [hlarge] using h
  | ok bytes =>
    have hfits : Fits b := (exists_frame_iff b).1 ⟨bytes, hframe⟩
    obtain ⟨content, hfile, hholds⟩ := h.file
    have hfile' := hfile
    rw [← h.path] at hfile'
    have hlonger := Disk.find?_change hfile' (· ++ bytes)
    rw [h.path] at hlonger
    refine ⟨.ok (), _, _, run_append h.granting h.repaired hframe, rfl, by simp [hfits], ?_⟩
    have hkept : [b].filter (Fits ·) = [b] := by simp [hfits]
    rw [hkept]
    exact ⟨(Disk.kept_change log.handle _).granting h.granting, h.repaired, h.path, _, hlonger,
      hholds.append hframe⟩

/-- Appends batches one after the other; one that is refused is passed over. -/
def appendAll (bs : List Batch) : Step (Log × Disk) Unit :=
  bs.forM fun b => discard (Step.attempt (append b))

theorem Intact.appendAll (h : Intact batches log d) (bs : List Batch) : ∃ log' d',
    run (appendAll bs) (log, d) = (.ok (), log', d') ∧ log'.path = log.path ∧
      Intact (batches ++ bs.filter (Fits ·)) log' d' := by
  induction bs generalizing batches log d with
  | nil => exact ⟨log, d, rfl, rfl, by simpa using h⟩
  | cons b bs ih =>
    obtain ⟨r, log₁, d₁, hrun, hpath, hone⟩ := h.append b
    obtain ⟨log₂, d₂, hrest, hpath', hall⟩ := ih hone.2
    refine ⟨log₂, d₂, ?_, hpath'.trans hpath, ?_⟩
    · have hstep : run (discard (Step.attempt (Log.append b))) (log, d) = (.ok ⟨⟩, log₁, d₁) := by
        rw [run_discard, run_attempt, hrun]
        rfl
      have hcons : Log.appendAll (b :: bs) =
          (discard (Step.attempt (Log.append b)) >>= fun _ => Log.appendAll bs) := rfl
      rw [hcons, run_bind_ok hstep]
      exact hrest
    · rw [List.append_assoc, ← List.filter_append, List.singleton_append] at hall
      exact hall

/-- Whoever opens an intact log finds its batches and changes nothing. -/
theorem Intact.reopen (h : Intact batches log d) (sync : Bool) : ∃ log',
    run (openAt log.path sync) d = (.ok (log', batches), d) := by
  obtain ⟨content, hfile, hholds⟩ := h.file
  exact ⟨_, run_openAt h.granting hfile hholds⟩

/-- Batches are appended to a new log, its file loses everything behind its first `k` bytes,
and the log is opened again. Then exactly the batches come back whose frames end at or
before `k`, in the order of their appends; the file ends with the last of these frames; and
whatever is appended from there on is found behind them by who opens the log next. -/
theorem whole_frames_recovered (hv : d.verdicts = []) (hfree : d.find? path = none)
    (hdir : d.isDirectory path.dropLast = true) (sync : Bool) (batches : List Batch) :
    ∃ log₀ d₀ log d' content, run (openAt path sync) d = (.ok (log₀, []), d₀) ∧
      run (appendAll batches) (log₀, d₀) = (.ok (), log, d') ∧
      d'.content? path = some content ∧ Holds content (batches.filter (Fits ·)) ∧
      ∀ k ≤ content.length, ∀ again,
        let left := endedBy k (batches.filter (Fits ·))
        ∃ log₁ d₁, run (openAt path again) (d'.change log.handle (·.take k)) =
            (.ok (log₁, left.map Prod.fst), d₁) ∧
          d₁.content? path = some (content.take (lastEnd 0 left)) ∧
          ∀ more once, ∃ log₂ d₂ log₃, run (appendAll more) (log₁, d₁) = (.ok (), log₂, d₂) ∧
            run (openAt path once) d₂ =
              (.ok (log₃, left.map Prod.fst ++ more.filter (Fits ·)), d₂) := by
  have hroot : path ≠ [] := by
    rintro rfl
    rw [Disk.find?_root] at hfree
    cases hfree
  have hnew : Intact [] ⟨path, ⟨path, d.nextNumber⟩, sync, 0, false⟩
      { d.put path (.file d.nextNumber []) with nextNumber := d.nextNumber + 1 } := by
    refine ⟨hv, rfl, rfl, [], ?_, Holds.nil⟩
    have hput := d.find?_put hroot (.file d.nextNumber []) path
    rw [if_pos rfl] at hput
    exact hput
  obtain ⟨log, d', happend, hpath, hlog⟩ := hnew.appendAll batches
  rw [List.nil_append] at hlog
  obtain ⟨content, hfile, hholds⟩ := hlog.file
  have hplace : log.path = path := hpath
  refine ⟨_, _, log, d', content, run_openAt_missing hv hfree hdir, happend, ?_, hholds, ?_⟩
  · rw [Disk.content?, ← hplace, hfile]
  intro k hk again left
  obtain ⟨hreplay, hle, hleft⟩ := replay_take hholds hk
  have hcut := hfile
  rw [← hlog.path] at hcut
  replace hcut := Disk.find?_change hcut (·.take k)
  rw [hlog.path, hplace] at hcut
  have htwice : (content.take k).take (lastEnd 0 left) = content.take (lastEnd 0 left) := by
    rw [List.take_take, Nat.min_eq_left hle]
  obtain ⟨log₁, d₁, hopen, hpath₁, hhandle, hrepaired, hgranting, hfound⟩ := run_openAt_replayed
    ((Disk.kept_change log.handle _).granting hlog.granting) hcut again
  rw [hreplay] at hopen hfound
  rw [htwice] at hfound
  have hintact : Intact (left.map Prod.fst) log₁ d₁ :=
    ⟨hgranting, hrepaired, hhandle.trans hpath₁.symm, _, hpath₁.symm ▸ hfound, hleft⟩
  refine ⟨log₁, d₁, hopen, by rw [Disk.content?, hfound], fun more once => ?_⟩
  obtain ⟨log₂, d₂, hmore, hpath₂, hafter⟩ := hintact.appendAll more
  obtain ⟨log₃, hreopen⟩ := hafter.reopen once
  rw [hpath₂, hpath₁] at hreopen
  exact ⟨log₂, d₂, log₃, hmore, hreopen⟩

end

/-- A sample of each of two jobs, one batch after the other. -/
def twoJobs : List Batch :=
  [[⟨Labels.ofList [("job", "a")], [⟨5, Binary64.zero⟩]⟩],
    [⟨Labels.ofList [("job", "b")], [⟨7, Binary64.zero⟩]⟩]]

/-- The second frame lost its last byte; its batch is appended once more. -/
theorem whole_frames_recovered_short :
    (Disk.empty.verdicts = [] ∧ Disk.empty.find? ["log"] = none ∧
      Disk.empty.isDirectory [] = true) ∧
    ∃ log₀ d₀ log d' content, run (openAt ["log"] true) Disk.empty = (.ok (log₀, []), d₀) ∧
      run (appendAll twoJobs) (log₀, d₀) = (.ok (), log, d') ∧
      d'.content? ["log"] = some content ∧
      ∃ log₁ d₁ log₂ d₂ log₃,
        run (openAt ["log"] true) (d'.change log.handle (·.take (content.length - 1))) =
          (.ok (log₁, twoJobs.take 1), d₁) ∧
        run (appendAll (twoJobs.drop 1)) (log₁, d₁) = (.ok (), log₂, d₂) ∧
        run (openAt ["log"] true) d₂ = (.ok (log₃, twoJobs), d₂) := by
  have hvacant : Disk.empty.verdicts = [] ∧ Disk.empty.find? ["log"] = none ∧
      Disk.empty.isDirectory [] = true := by decide
  obtain ⟨log₀, d₀, log, d', content, hopen, happend, hcontent, hholds, hcut⟩ :=
    whole_frames_recovered hvacant.1 hvacant.2.1 hvacant.2.2 true twoJobs
  have hfits : twoJobs.filter (Fits ·) = twoJobs := by decide +kernel
  have hfits' : (twoJobs.drop 1).filter (Fits ·) = twoJobs.drop 1 := by decide +kernel
  rw [hfits] at hholds hcut
  have hleft : (endedBy (content.length - 1) twoJobs).map Prod.fst = twoJobs.take 1 := by
    rw [hholds.length_eq]
    decide +kernel
  obtain ⟨log₁, d₁, hagain, _, hmore⟩ := hcut (content.length - 1) (Nat.sub_le _ _) true
  obtain ⟨log₂, d₂, log₃, happend', hlast⟩ := hmore (twoJobs.drop 1) true
  rw [hleft] at hagain hlast
  rw [hfits'] at hlast
  exact ⟨hvacant, log₀, d₀, log, d', content, hopen, happend, hcontent, log₁, d₁, log₂, d₂, log₃,
    hagain, happend', hlast⟩

end HeapTelemetry.Log
