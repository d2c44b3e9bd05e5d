import HeapTelemetry.Proofs.Series.TornLogs

/-! Logs on a device that fails. A write may stop anywhere, and waiting for the device,
cutting and renaming may fail, in any pattern. What was acknowledged stays at the front of
the file, whole and in order. Behind it stands no more than a piece of one failed append,
and the log knows where to cut. -/

namespace HeapTelemetry

namespace FileFrame

/-- What reads as a frame is a header with the length of its payload, and the payload. -/
theorem next_eq_frame {b payload rest : Bytes} (h : next b = .frame payload rest) :
    ∃ header : Bytes, header.length = 4 ∧ Bytes.ofWord header = payload.length ∧
      b = header ++ (payload ++ rest) := by
  rw [next, Bytes.readWord, Bytes.take?_eq] at h
  split at h
  · cases h
  rename_i n behind hword
  split at hword
  case isFalse => cases hword
  rename_i hheader
  cases hword
  rw [Bytes.take?_eq] at h
  split at h
  · cases h
  rename_i payload' rest' htake
  split at htake
  case isFalse => cases htake
  rename_i hfits
  cases htake
  cases h
  refine ⟨b.take 4, List.length_take_of_le hheader, ?_, ?_⟩
  · exact (List.length_take_of_le hfits).symm
  · rw [List.take_append_drop, List.take_append_drop]

theorem next_of_header {header payload : Bytes} (hheader : header.length = 4)
    (hlength : Bytes.ofWord header = payload.length) (rest : Bytes) :
    next (header ++ (payload ++ rest)) = .frame payload rest := by
  have hword := Bytes.take?_append header (payload ++ rest)
  rw [hheader] at hword
  rw [next, Bytes.readWord, hword]
  simp only [Option.map_some, hlength, Bytes.take?_append]

end FileFrame

namespace Log
open Step

variable {content tail : Bytes} {batches failed : List Batch} {log : Log} {d d' : Disk}
  {path : Path}

/-! ## Readable frames -/

/-- The bytes read as frames of these batches, whoever wrote them. -/
inductive Framed : Bytes → List Batch → Prop
  | nil : Framed [] []
  | cons {piece rest : Bytes} {b : Batch} {batches : List Batch} :
      (∀ more, ∃ payload, FileFrame.next (piece ++ more) = .frame payload more ∧
        batch? payload = some b) →
      Framed rest batches → Framed (piece ++ rest) (b :: batches)

theorem Holds.framed [Compressor] (h : Holds content batches) : Framed content batches := by
  induction h with
  | nil => exact .nil
  | cons hframe _ ih => exact .cons (batch?_of_frame hframe) ih

theorem Framed.append [Compressor] (h : Framed content batches) {b : Batch} {bytes : Bytes}
    (hb : frame b = .ok bytes) : Framed (content ++ bytes) (batches ++ [b]) := by
  induction h with
  | nil =>
    have hone := Framed.cons (batch?_of_frame hb) Framed.nil
    rwa [List.append_nil] at hone
  | cons hpiece _ ih =>
    rw [List.append_assoc]
    exact Framed.cons hpiece ih

/-- The scan takes the frames that are whole, and goes on behind them. -/
theorem Framed.scan (h : Framed content batches) (tail : Bytes) {fuel : Nat}
    (hf : content.length + tail.length ≤ fuel) : ∃ left, tail.length ≤ left ∧
      Log.scan fuel (content ++ tail) =
        (batches ++ (Log.scan left tail).1, content.length + (Log.scan left tail).2) := by
  induction h generalizing fuel with
  | nil =>
    refine ⟨fuel, by simpa using hf, ?_⟩
    rw [List.nil_append, List.nil_append, List.length_nil, Nat.zero_add]
  | @cons piece rest b batches hpiece _ ih =>
    obtain ⟨payload, hnext, hbatch⟩ := hpiece (rest ++ tail)
    have hpos : piece ≠ [] := by
      rintro rfl
      obtain ⟨_, hnone, _⟩ := hpiece []
      cases hnone
    have hpos := List.length_pos_iff.2 hpos
    rw [List.length_append] at hf
    obtain ⟨fuel, rfl⟩ : ∃ n, fuel = n + 1 := ⟨fuel - 1, by omega⟩
    obtain ⟨left, hleft, hscan⟩ := ih (show rest.length + tail.length ≤ fuel by omega)
    refine ⟨left, hleft, ?_⟩
    rw [List.append_assoc, Log.scan, hnext]
    simp only [hbatch, hscan, List.cons_append, List.length_append, Prod.mk.injEq, true_and]
    omega

theorem Framed.replay (h : Framed content batches) :
    Log.replay content = (batches, content.length) := by
  obtain ⟨left, _, hscan⟩ := h.scan [] (Nat.le_of_eq (Nat.add_zero content.length))
  have hnothing : Log.scan left [] = ([], 0) := by cases left <;> rfl
  rwa [List.append_nil, hnothing, List.append_nil] at hscan

/-- Every file is frames that are whole, and then something else. -/
theorem exists_framed (fuel : Nat) (content : Bytes) : ∃ front tail, content = front ++ tail ∧
    Framed front (scan fuel content).1 ∧ front.length = (scan fuel content).2 := by
  induction fuel generalizing content with
  | zero => exact ⟨[], content, rfl, .nil, rfl⟩
  | succ fuel ih =>
    rw [scan]
    split
    case h_2 => exact ⟨[], content, rfl, .nil, rfl⟩
    rename_i payload rest hnext
    split
    case h_2 => exact ⟨[], content, rfl, .nil, rfl⟩
    rename_i b hbatch
    obtain ⟨header, hheader, hlength, rfl⟩ := FileFrame.next_eq_frame hnext
    obtain ⟨front, tail, rfl, hfront, hend⟩ := ih rest
    refine ⟨header ++ payload ++ front, tail, by simp, ?_, ?_⟩
    · refine Framed.cons (fun more => ⟨payload, ?_, hbatch⟩) hfront
      rw [List.append_assoc]
      exact FileFrame.next_of_header hheader hlength more
    · simp only [List.length_append, ← hend]
      omega

theorem exists_replayed (content : Bytes) : ∃ front tail, content = front ++ tail ∧
    Framed front (replay content).1 ∧ front.length = (replay content).2 :=
  exists_framed content.length content

/-! ## What a failed append leaves -/

section
variable [Compressor]

/-- A part of the frame of one failed append at most. -/
def Leftover (failed : List Batch) (tail : Bytes) : Prop :=
  tail = [] ∨ ∃ b ∈ failed, ∃ bytes n, frame b = .ok bytes ∧ tail = bytes.take n

theorem Leftover.more (h : Leftover failed tail) (b : Batch) : Leftover (failed ++ [b]) tail := by
  rcases h with rfl | ⟨b', hb', hpiece⟩
  · exact Or.inl rfl
  · exact Or.inr ⟨b', List.mem_append_left _ hb', hpiece⟩

/-- A part reads as nothing, and a frame that was written in full as its batch. -/
theorem Leftover.scan (h : Leftover failed tail) {fuel : Nat} (hf : tail.length ≤ fuel) :
    ∃ further : List Batch, further.length ≤ 1 ∧ (∀ b ∈ further, b ∈ failed) ∧
      (Log.scan fuel tail).1 = further := by
  rcases h with rfl | ⟨b, hb, bytes, n, hframe, rfl⟩
  · refine ⟨[], Nat.zero_le _, nofun, ?_⟩
    cases fuel <;> rfl
  · by_cases hn : n < bytes.length
    · have hbroken := scan_broken hframe hn [] fuel
      rw [List.append_nil] at hbroken
      exact ⟨[], Nat.zero_le _, nofun, by rw [hbroken]⟩
    · have hwhole := scan_of_holds (Holds.cons hframe .nil) fuel
      rw [List.append_nil] at hwhole
      rw [List.take_of_length_le (Nat.not_lt.1 hn)] at hf ⊢
      exact ⟨[b], Nat.le_refl _, fun x hx => List.mem_singleton.1 hx ▸ hb, by rw [hwhole hf]⟩

/-! ## Logs that have failed -/

/-- The file has the frames of these batches, as long as the log remembers, and behind them
what one of the failed appends left; nothing, if the log is not torn. -/
structure Standing (batches failed : List Batch) (log : Log) (d : Disk) : Prop where
  path : log.handle.path = log.path
  file : ∃ content tail, d.find? log.path = some (.file log.handle.number (content ++ tail)) ∧
    content.length = log.length ∧ Framed content batches ∧ Leftover failed tail ∧
    (log.torn = false → tail = [])

theorem Standing.more (h : Standing batches failed log d) (b : Batch) :
    Standing batches (failed ++ [b]) log d := by
  obtain ⟨content, tail, hfile, hlength, hframed, hleft, htorn⟩ := h.file
  exact ⟨h.path, content, tail, hfile, hlength, hframed, hleft.more b, htorn⟩

theorem Standing.of_find? (h : Standing batches failed log d)
    (hsame : d'.find? log.path = d.find? log.path) : Standing batches failed log d' :=
  ⟨h.path, hsame ▸ h.file⟩

/-- A repair cuts what is behind the frames, or leaves everything as it is. -/
theorem Standing.repair (h : Standing batches failed log d) : ∃ r log' d',
    run repair (log, d) = (r, log', d') ∧ log'.path = log.path ∧
      Standing batches failed log' d' ∧ (r = .ok ⟨⟩ → log'.torn = false) ∧
      (d.verdicts = [] → r = .ok ⟨⟩ ∧ d'.verdicts = []) := by
  rw [Log.repair, run_bind_ok (run_get _)]
  cases htorn : log.torn with
  | false =>
    simp only [htorn, Bool.false_eq_true, ↓reduceIte]
    exact ⟨.ok ⟨⟩, log, d, rfl, rfl, h, fun _ => htorn, fun hv => ⟨rfl, hv⟩⟩
  | true =>
    simp only [htorn, ↓reduceIte]
    by_cases hv : d.verdicts.headD .grant = .refuse
    · have hcut : run (onDisk (Disk.truncate log.handle log.length)) (log, d) =
          (.error .io, log, d.answered) := by
        rw [onDisk, run_on, Disk.run_truncate, if_pos hv]
      refine ⟨.error .io, log, d.answered, run_bind_error hcut, rfl, h.of_find? rfl, by simp,
        fun hnone => ?_⟩
      rw [hnone] at hv
      cases hv
    · have hcut : run (onDisk (Disk.truncate log.handle log.length)) (log, d) =
          (.ok ⟨⟩, log, d.answered.change log.handle (·.take log.length)) := by
        rw [onDisk, run_on, Disk.run_truncate, if_neg hv]
      refine ⟨.ok ⟨⟩, { log with torn := false }, _, (run_bind_ok hcut).trans (run_modify _ _), rfl,
        ⟨h.path, ?_⟩, fun _ => rfl, fun hnone => ⟨rfl, ?_⟩⟩
      · obtain ⟨content, tail, hfile, hlength, hframed, _⟩ := h.file
        have hshort : (content ++ tail).take log.length = content := by
          rw [← hlength, List.take_left]
        have hopen : d.answered.find? log.handle.path =
            some (.file log.handle.number (content ++ tail)) := h.path ▸ hfile
        have hchanged := Disk.find?_change hopen (·.take log.length)
        rw [hshort, h.path] at hchanged
        exact ⟨content, [], (List.append_nil content).symm ▸ hchanged, hlength, hframed,
          Or.inl rfl, fun _ => rfl⟩
      · exact (Disk.kept_change log.handle _).granting
          ((Disk.kept_answered [] d).granting hnone)

end

/-- Writing adds a part of the bytes to the file, and all of them if it succeeds. -/
theorem write_cases {content : Bytes} (hpath : log.handle.path = log.path)
    (hfile : d.find? log.path = some (.file log.handle.number content)) (bytes : Bytes) :
    ∃ r n d', run (write bytes) (log, d) = (r, log, d') ∧
      d'.find? log.path = some (.file log.handle.number (content ++ bytes.take n)) ∧
      (r = .ok ⟨⟩ → n = bytes.length) ∧ (d.verdicts = [] → r = .ok ⟨⟩ ∧ d'.verdicts = []) := by
  obtain ⟨r, n, d', hrun, hwritten, hall, hgranted⟩ := Disk.append_sync_cases
    (hpath ▸ hfile : d.find? log.handle.path = _) bytes log.syncWrite
  rw [hpath] at hwritten
  refine ⟨r, n, d', ?_, hwritten, hall, hgranted⟩
  rw [write, run_bind_ok (run_get _)]
  simp only [onDisk, run_on, hrun]

/-- An append that succeeds puts its frame behind the others. One that fails puts nothing
there, or a part of its frame behind nothing else. -/
theorem Standing.append [Compressor] (h : Standing batches failed log d) (b : Batch) : ∃ r log' d',
    run (append b) (log, d) = (r, log', d') ∧ log'.path = log.path ∧
      (r = .ok ⟨⟩ → Standing (batches ++ [b]) [] log' d') ∧
      (∀ e, r = .error e → Standing batches (failed ++ [b]) log' d') ∧
      (d.verdicts = [] → Fits b → r = .ok ⟨⟩) := by
  cases hframe : frame b with
  | error e =>
    refine ⟨.error e, log, d, run_append_oversized hframe, rfl, by simp, fun _ _ => h.more b,
      fun _ hfits => ?_⟩
    obtain ⟨bytes, hbytes⟩ := (exists_frame_iff b).2 hfits
    cases hframe.symm.trans hbytes
  | ok bytes =>
    obtain ⟨r₁, log₁, d₁, hrepair, hpath₁, hstanding, htorn, hgranted₁⟩ := h.repair
    rw [Log.append, hframe, run_bind_ok (run_ofExcept _ _)]
    cases r₁ with
    | error e =>
      rw [run_bind_error hrepair]
      exact ⟨.error e, log₁, d₁, rfl, hpath₁, by simp, fun _ _ => hstanding.more b,
        fun hnone _ => absurd (hgranted₁ hnone).1 (by simp)⟩
    | ok _ =>
      obtain ⟨content, tail, hfile, hlength, hframed, _, hwhole⟩ := hstanding.file
      rw [hwhole (htorn rfl), List.append_nil] at hfile
      obtain ⟨r₂, n, d₂, hwrite, hwritten, hall, hgranted₂⟩ :=
        write_cases hstanding.path hfile bytes
      rw [run_bind_ok hrepair, run_bind_ok (run_attempt _ _), hwrite]
      cases r₂ with
      | ok _ =>
        refine ⟨.ok ⟨⟩, _, d₂, rfl, hpath₁, fun _ => ⟨hstanding.path, ?_⟩, by simp,
          fun _ _ => rfl⟩
        rw [hall rfl, List.take_length] at hwritten
        exact ⟨content ++ bytes, [], (List.append_nil _).symm ▸ hwritten,
          by rw [List.length_append, hlength], hframed.append hframe, Or.inl rfl, fun _ => rfl⟩
      | error e =>
        -- What the write left is a part of this frame alone, so the log stands torn.
        have hleft : Standing batches (failed ++ [b]) { log₁ with torn := true } d₂ :=
          ⟨hstanding.path, content, bytes.take n, hwritten, hlength, hframed,
            Or.inr ⟨b, List.mem_append_right _ List.mem_cons_self, bytes, n, hframe, rfl⟩,
            by simp⟩
        obtain ⟨r₃, log₃, d₃, hcut, hpath₃, hstanding₃, _⟩ := hleft.repair
        have hattempt : run (discard (Step.attempt Log.repair)) ({ log₁ with torn := true }, d₂) =
            (.ok ⟨⟩, log₃, d₃) := by
          rw [run_discard, run_attempt, hcut]
          rfl
        simp only
        rw [run_bind_ok (run_modify _ _), run_bind_ok hattempt, run_throw]
        exact ⟨.error e, log₃, d₃, rfl, hpath₃.trans hpath₁, by simp, fun _ _ => hstanding₃,
          fun hnone _ => absurd (hgranted₂ (hgranted₁ hnone).2).1 (by simp)⟩

/-- A replacement that succeeds leaves the new batch alone, one that fails the log as it is. -/
theorem Standing.replace [Compressor] (h : Standing batches failed log d) (b : Batch) : ∃ r log' d',
    run (replace b) (log, d) = (r, log', d') ∧ log'.path = log.path ∧
      (r = .ok ⟨⟩ → Standing (renewed b) [] log' d') ∧
      (∀ e, r = .error e → Standing batches failed log' d') := by
  rcases replace_cases b log d with ⟨e, d', hrun, hkept⟩ | ⟨number, bytes, d', hrun, hholds, hfile, _⟩
  · have hsame := hkept.others log.path (by simpa using (temporary_ne log.path).symm)
    exact ⟨.error e, log, d', hrun, rfl, nofun, fun _ _ => h.of_find? hsame⟩
  · exact ⟨.ok ⟨⟩, _, d', hrun, rfl, fun _ => ⟨rfl, bytes, [], (List.append_nil bytes).symm ▸ hfile,
      rfl, hholds.framed, Or.inl rfl, fun _ => rfl⟩, nofun⟩

/-! ## Opening -/

/-- What is found in a log are the batches of its file as it was, whatever the device answers,
and the file is cut behind them. -/
theorem openAt_eq_ok [Compressor] {sync : Bool} {found : List Batch}
    (h : run (openAt path sync) d = (.ok (log, found), d')) :
    found = (replay ((d.content? path).getD [])).1 ∧ log.path = path ∧
      Standing found [] log d' := by
  rw [openAt, run_bind_ok (run_get d)] at h
  split at h
  · cases h
  generalize hcontent : (d.content? path).getD [] = content at h
  obtain ⟨front, tail, rfl, hframed, hend⟩ := exists_replayed content
  simp only at h
  generalize hreplay : replay (front ++ tail) = replayed at h hframed hend ⊢
  obtain ⟨batches, length⟩ := replayed
  obtain ⟨handle, d₁, hopen, h⟩ := run_bind_eq_ok.1 h
  obtain ⟨hpath, hfile⟩ := Disk.find?_of_openFile hopen
  rw [hcontent] at hfile
  simp only at hframed hend
  split at h
  · obtain ⟨_, d₂, hcut, h⟩ := run_bind_eq_ok.1 h
    obtain ⟨_, d₃, hsync, h⟩ := run_bind_eq_ok.1 h
    cases h
    rw [Disk.run_truncate] at hcut
    split at hcut
    · cases hcut
    cases hcut
    have hsynced := (Disk.keeps_sync [] (d₁.answered.change handle (·.take length))).others path
      List.not_mem_nil
    rw [hsync] at hsynced
    have hopened : d₁.answered.find? handle.path = some (.file handle.number (front ++ tail)) :=
      hpath ▸ hfile
    have hchanged := Disk.find?_change hopened (·.take length)
    have hshort : (front ++ tail).take length = front := by rw [← hend, List.take_left]
    rw [hshort, hpath] at hchanged
    refine ⟨rfl, rfl, hpath, front, [], ?_, hend, hframed, Or.inl rfl, fun _ => rfl⟩
    rw [List.append_nil]
    exact hsynced.trans hchanged
  · rename_i hwhole
    cases h
    have htail : tail = [] := by
      rw [List.length_append, ← hend] at hwhole
      exact List.length_eq_zero_iff.1 (by omega)
    subst htail
    exact ⟨rfl, rfl, hpath, front, [], hfile, hend, hframed, Or.inl rfl, fun _ => rfl⟩

/-! ## Logs in use -/

inductive Call where
  | append (b : Batch)
  | replace (b : Batch)

namespace Call

def step [Compressor] : Call → Step (Log × Disk) Unit
  | append b => Log.append b
  | replace b => Log.replace b

/-- What is acknowledged once the call has succeeded. -/
def acknowledge (batches : List Batch) : Call → List Batch
  | append b => batches ++ [b]
  | replace b => if b.isEmpty then [] else [b]

def appended? : Call → Option Batch
  | append b => some b
  | replace _ => none

end Call

/-- A log in use, with the batches that were acknowledged, and those whose append has failed
since. -/
structure Course where
  log : Log
  disk : Disk
  acknowledged : List Batch
  failed : List Batch

namespace Course
variable [Compressor]

def call (c : Course) (call : Call) : Course :=
  match run call.step (c.log, c.disk) with
  | (.ok _, log, disk) => ⟨log, disk, call.acknowledge c.acknowledged, []⟩
  | (.error _, log, disk) => ⟨log, disk, c.acknowledged, c.failed ++ call.appended?.toList⟩

def callAll (c : Course) (calls : List Call) : Course := calls.foldl call c

/-- The log is where it was opened, and its file has what was acknowledged. -/
structure Sound (path : Path) (c : Course) : Prop where
  path : c.log.path = path
  standing : Standing c.acknowledged c.failed c.log c.disk

theorem Sound.call {c : Course} (h : c.Sound path) (call : Call) : (c.call call).Sound path := by
  cases call with
  | append b =>
    obtain ⟨r, log, d, hrun, hpath, hok, herror, _⟩ := h.standing.append b
    rw [Course.call, Call.step, hrun]
    cases r with
    | ok _ => exact ⟨hpath.trans h.path, hok rfl⟩
    | error e => exact ⟨hpath.trans h.path, herror e rfl⟩
  | replace b =>
    obtain ⟨r, log, d, hrun, hpath, hok, herror⟩ := h.standing.replace b
    rw [Course.call, Call.step, hrun]
    cases r with
    | ok _ => exact ⟨hpath.trans h.path, hok rfl⟩
    | error e => exact ⟨hpath.trans h.path, (List.append_nil c.failed).symm ▸ herror e rfl⟩

theorem Sound.callAll {c : Course} (h : c.Sound path) (calls : List Call) :
    (c.callAll calls).Sound path := by
  induction calls generalizing c with
  | nil => exact h
  | cons call calls ih => exact ih (h.call call)

/-- Once the device grants what is asked of it, an append is acknowledged again. -/
theorem Sound.append_granted {c : Course} (h : c.Sound path) (hv : c.disk.verdicts = [])
    {b : Batch} (hfits : Fits b) :
    (c.call (.append b)).acknowledged = c.acknowledged ++ [b] := by
  obtain ⟨r, log, d, hrun, _, _, _, hgranted⟩ := h.standing.append b
  rw [Course.call, Call.step, hrun, hgranted hv hfits]
  rfl

/-- What is found in the file as it stands: what was acknowledged, and at most one batch
more, whose append had failed. -/
theorem Sound.replayed {c : Course} (h : c.Sound path) : ∃ content tail further,
    c.disk.find? path = some (.file c.log.handle.number (content ++ tail)) ∧
      content.length = c.log.length ∧ replay content = (c.acknowledged, content.length) ∧
      (replay (content ++ tail)).1 = c.acknowledged ++ further ∧
      further.length ≤ 1 ∧ ∀ b ∈ further, b ∈ c.failed := by
  obtain ⟨content, tail, hfile, hlength, hframed, hleft, _⟩ := h.standing.file
  obtain ⟨left, hfuel, hscan⟩ := hframed.scan tail
    (Nat.le_of_eq List.length_append.symm : _ ≤ (content ++ tail).length)
  obtain ⟨further, hone, hfailed, hfurther⟩ := hleft.scan hfuel
  refine ⟨content, tail, further, h.path ▸ hfile, hlength, hframed.replay, ?_, hone, hfailed⟩
  rw [replay, hscan, hfurther]

end Course

/-- However the device fails, the front of the file holds the batch of the last replacement
and the batches acknowledged since, and ends where the log says. A log that is opened finds
these in order, and at most one batch more, whose append had failed. Once the device grants
what it is asked for, the log takes batches again. -/
theorem acknowledged_batches_recovered [Compressor] {sync : Bool} {found : List Batch}
    (hopen : run (openAt path sync) d = (.ok (log, found), d')) (calls : List Call) :
    found = (replay ((d.content? path).getD [])).1 ∧
    ∃ content tail further,
      let c := Course.callAll ⟨log, d', found, []⟩ calls
      c.disk.content? path = some (content ++ tail) ∧ content.length = c.log.length ∧
      replay content = (c.acknowledged, content.length) ∧
      further.length ≤ 1 ∧ (∀ b ∈ further, b ∈ c.failed) ∧
      (∀ again, ∃ log₁ d₁, run (openAt path again) (c.disk.facing []) =
        (.ok (log₁, c.acknowledged ++ further), d₁)) ∧
      (∀ verdicts again log₁ found₁ d₁,
        run (openAt path again) (c.disk.facing verdicts) = (.ok (log₁, found₁), d₁) →
        found₁ = c.acknowledged ++ further) ∧
      (c.disk.verdicts = [] → ∀ b, Fits b →
        (c.call (.append b)).acknowledged = c.acknowledged ++ [b]) := by
  obtain ⟨hfound, hpath, hstanding⟩ := openAt_eq_ok hopen
  have hsound := (Course.Sound.mk hpath hstanding : Course.Sound path ⟨log, d', found, []⟩).callAll
    calls
  obtain ⟨content, tail, further, hfile, hlength, hcontent, hreplay, hone, hfailed⟩ :=
    hsound.replayed
  refine ⟨hfound, content, tail, further, ?_, hlength, hcontent, hone, hfailed, fun again => ?_,
    fun verdicts again log₁ found₁ d₁ hagain => ?_, fun hv b => hsound.append_granted hv⟩
  · rw [Disk.content?, hfile]
  · obtain ⟨log₁, d₁, hrun, _⟩ :=
      run_openAt_replayed rfl ((Disk.find?_facing _ _ _).trans hfile) again
    exact ⟨log₁, d₁, hreplay ▸ hrun⟩
  · have hsame : ((Course.callAll ⟨log, d', found, []⟩ calls).disk.facing verdicts).content? path =
        some (content ++ tail) := by rw [Disk.content?, Disk.find?_facing, hfile]
    rw [(openAt_eq_ok hagain).1, hsame, Option.getD_some, hreplay]

/-- An empty log on a device that grants one append, and of the next one only the write. -/
def unsynced : Course where
  log := ⟨["log"], ⟨["log"], 0⟩, true, 0, false⟩
  disk := ⟨[(["log"], .file 0 [])], 1, [.grant, .grant, .grant, .refuse, .refuse]⟩
  acknowledged := []
  failed := []

/-- The frame of the second batch is written in full, but neither waiting for the device nor
cutting succeeds; the batch shows up behind the first. -/
theorem acknowledged_batches_recovered_unsynced :
    run (openAt ["log"] true)
        (Disk.empty.facing [.grant, .grant, .grant, .grant, .refuse, .refuse]) =
          (.ok (unsynced.log, []), unsynced.disk) ∧
      (unsynced.callAll (twoJobs.map .append)).acknowledged = twoJobs.take 1 ∧
      (unsynced.callAll (twoJobs.map .append)).failed = twoJobs.drop 1 ∧
      ∀ again, ∃ log₁ d₁,
        run (openAt ["log"] again) ((unsynced.callAll (twoJobs.map .append)).disk.facing []) =
          (.ok (log₁, twoJobs), d₁) := by
  have hopen : run (openAt ["log"] true)
      (Disk.empty.facing [.grant, .grant, .grant, .grant, .refuse, .refuse]) =
        (.ok (unsynced.log, []), unsynced.disk) := by rfl
  have hfound : (run (openAt ["log"] true)
      ((unsynced.callAll (twoJobs.map .append)).disk.facing [])).1.toOption.map Prod.snd =
        some twoJobs := by decide +kernel
  obtain ⟨_, _, _, further, _, _, _, _, _, hagain, _⟩ :=
    acknowledged_batches_recovered hopen (twoJobs.map .append)
  have hboth : (unsynced.callAll (twoJobs.map .append)).acknowledged ++ further = twoJobs := by
    obtain ⟨log₁, d₁, hrun⟩ := hagain true
    exact Option.some.inj ((congrArg (·.1.toOption.map Prod.snd) hrun).symm.trans hfound)
  refine ⟨hopen, by decide +kernel, by decide +kernel, fun again => ?_⟩
  obtain ⟨log₁, d₁, hrun⟩ := hagain again
  exact ⟨log₁, d₁, hrun.trans (congrArg (fun found => (Except.ok (log₁, found), d₁)) hboth)⟩

end Log
end HeapTelemetry
