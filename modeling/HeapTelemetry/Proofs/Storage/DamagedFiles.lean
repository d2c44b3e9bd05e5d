import HeapTelemetry.Proofs.Json.Endings
import HeapTelemetry.Proofs.Storage.SessionFiles

/-! Session files with damage. Whatever lines get between the lines of a saver, and even if
the last newline is gone, a reader that goes from line to line returns every measurement as
it was saved, and for every other line that is not blank what the line decodes to. -/

namespace HeapTelemetry
open Step

namespace Bytes

theorem isBlank_newline (line : Bytes) : isBlank (line ++ [newline]) = isBlank line := by
  rw [isBlank, List.all_append]
  exact Bool.and_true _

theorem lines_of_not_mem {line : Bytes} (h : newline ∉ line) (hne : line ≠ []) :
    lines line = [line] := by
  induction line with
  | nil => exact absurd rfl hne
  | cons b rest ih =>
    obtain ⟨hb, hrest⟩ := not_or.1 (mt List.mem_cons.2 h)
    rw [lines, if_neg (Ne.symm hb)]
    cases rest with
    | nil => rfl
    | cons c rest => rw [ih hrest (List.cons_ne_nil c rest)]

end Bytes

namespace SessionFiles

/-! ## Lines -/

/-- A line of a session file: a measurement that was saved, or any other bytes. -/
inductive Line where
  | saved (m : Measurement)
  | other (bytes : Bytes) (complete : Bytes.newline ∉ bytes)

namespace Line

/-- The line without its newline. -/
def bytes : Line → Bytes
  | saved m => (Record.ofMeasurement m).render
  | other bytes _ => bytes

def saved? : Line → Option Measurement
  | saved m => some m
  | other .. => none

/-- What a reader is to return of the line. -/
def item? : Line → Option (Except Error Measurement)
  | saved m => some (.ok m)
  | other bytes _ => if Bytes.isBlank bytes then none else some (Record.decode bytes)

theorem newline_not_mem (l : Line) : Bytes.newline ∉ l.bytes := by
  cases l with
  | saved m => exact Record.newline_not_mem_render m
  | other bytes complete => exact complete

theorem item?_eq (l : Line) :
    l.item? = if Bytes.isBlank l.bytes then none else some (Record.decode l.bytes) := by
  cases l with
  | other => rfl
  | saved m =>
    have hblank : Bytes.isBlank (Record.ofMeasurement m).render = false := by
      rw [← Bytes.isBlank_newline]
      exact Record.isBlank_encode m
    have hdecode : Record.decode (Record.ofMeasurement m).render = .ok m := by
      rw [← Record.decode_newline]
      exact Record.decode_encode m
    rw [bytes, hblank, hdecode]
    rfl

end Line

/-- The content of a file of these lines. -/
def content (ls : List Line) : Bytes := ls.flatMap fun l => l.bytes ++ [Bytes.newline]

theorem content_append (ls ls' : List Line) : content (ls ++ ls') = content ls ++ content ls' :=
  List.flatMap_append

theorem lines_content (ls : List Line) (rest : Bytes) : Bytes.lines (content ls ++ rest) =
    (ls.map fun l => l.bytes ++ [Bytes.newline]) ++ Bytes.lines rest := by
  induction ls with
  | nil => rfl
  | cons l ls ih =>
    have hsplit : content (l :: ls) ++ rest =
        l.bytes ++ Bytes.newline :: (content ls ++ rest) := by
      simp [content]
    rw [hsplit, Bytes.lines_append l.newline_not_mem, ih]
    rfl

/-- Reading goes by lines, and a line is read alike with its newline and without. -/
theorem records_content_append (ls : List Line) (rest : Bytes) :
    records (content ls ++ rest) = ls.filterMap Line.item? ++ records rest := by
  rw [records, lines_content, List.filter_append, List.map_append, records]
  congr 1
  induction ls with
  | nil => rfl
  | cons l ls ih =>
    rw [List.map_cons, List.filter_cons, Bytes.isBlank_newline, List.filterMap_cons, l.item?_eq, ← ih]
    cases Bytes.isBlank l.bytes with
    | true => rfl
    | false =>
      rw [← Record.decode_newline l.bytes]
      rfl

theorem records_content (ls : List Line) : records (content ls) = ls.filterMap Line.item? := by
  have hall := records_content_append ls []
  rwa [List.append_nil, show records [] = [] from rfl, List.append_nil] at hall

/-- The last newline may be missing. -/
theorem records_content_dropLast (ls : List Line) :
    records (content ls).dropLast = ls.filterMap Line.item? := by
  rcases List.eq_nil_or_concat ls with rfl | ⟨before, l, rfl⟩
  · rfl
  rw [List.concat_eq_append]
  have hcut : (content (before ++ [l])).dropLast = content before ++ l.bytes := by
    rw [content_append, show content [l] = l.bytes ++ [Bytes.newline] from List.flatMap_singleton _ _,
      ← List.append_assoc, List.dropLast_concat]
  have hlast : records l.bytes = [l].filterMap Line.item? := by
    rw [List.filterMap_cons, l.item?_eq, records]
    by_cases hne : l.bytes = []
    · rw [hne]
      rfl
    · rw [Bytes.lines_of_not_mem l.newline_not_mem hne, List.filter_cons]
      cases Bytes.isBlank l.bytes <;> rfl
  rw [hcut, records_content_append, hlast, List.filterMap_append]

theorem records_cons {line : Bytes} (hline : Bytes.newline ∉ line)
    (hblank : Bytes.isBlank line = false) (rest : Bytes) :
    records (line ++ Bytes.newline :: rest) = Record.decode line :: records rest := by
  have hfirst := records_content_append [.other line hline] rest
  rw [List.filterMap_cons, Line.item?_eq, Line.bytes, hblank] at hfirst
  simpa [content, Line.bytes] using hfirst

theorem records_last {line : Bytes} (hline : Bytes.newline ∉ line)
    (hblank : Bytes.isBlank line = false) : records line = [Record.decode line] := by
  have hlast := records_content_dropLast [.other line hline]
  rw [List.filterMap_cons, Line.item?_eq, Line.bytes, hblank] at hlast
  simpa [content, Line.bytes] using hlast

/-- Only what is no text or no measurement fails to decode, and a reader may skip both. -/
theorem isRecordLevel_decode {line : Bytes} {e : Error} (h : Record.decode line = .error e) :
    e.isRecordLevel := by
  rw [Record.decode] at h
  split at h
  · cases h
    rfl
  · split at h
    · cases h
    · cases h
      rfl

theorem isRecordLevel_of_mem_records {content : Bytes} {e : Error}
    (h : .error e ∈ records content) : e.isRecordLevel := by
  obtain ⟨line, _, hline⟩ := List.mem_map.1 h
  exact isRecordLevel_decode hline

theorem isRecordLevel_of_item {ls : List Line} {e : Error}
    (h : .error e ∈ ls.filterMap Line.item?) : e.isRecordLevel :=
  isRecordLevel_of_mem_records (records_content ls ▸ h)

/-! ## Readers -/

/-- Reads up to and with the next newline, or to the end. -/
def readLine : Bytes → Bytes × Bytes
  | [] => ([], [])
  | b :: rest =>
    if b = Bytes.newline then ([b], rest) else (b :: (readLine rest).1, (readLine rest).2)

theorem lines_readLine {unread : Bytes} (h : unread ≠ []) :
    Bytes.lines unread = (readLine unread).1 :: Bytes.lines (readLine unread).2 := by
  induction unread with
  | nil => exact absurd rfl h
  | cons b rest ih =>
    rw [Bytes.lines, readLine]
    split
    · rfl
    · cases rest with
      | nil => rfl
      | cons c rest => rw [ih (List.cons_ne_nil c rest)]

theorem readLine_cons_ne_nil (b : UInt8) (rest : Bytes) : (readLine (b :: rest)).1 ≠ [] := by
  rw [readLine]
  split <;> simp

theorem length_readLine_le (unread : Bytes) : (readLine unread).2.length ≤ unread.length := by
  induction unread with
  | nil => exact Nat.le_refl _
  | cons b rest ih =>
    rw [readLine]
    split
    · exact Nat.le_succ _
    · exact Nat.le_succ_of_le ih

theorem length_readLine_lt {unread : Bytes} (h : (readLine unread).1 ≠ []) :
    (readLine unread).2.length < unread.length := by
  cases unread with
  | nil => exact absurd rfl h
  | cons b rest =>
    rw [readLine]
    split
    · exact Nat.lt_succ_self _
    · exact Nat.lt_succ_of_le (length_readLine_le rest)

/-- A reader of a file between two items, on a device with these answers to its reads. -/
structure Reader where
  unread : Bytes
  answers : List Verdict
  done : Bool

/-- The next record, past the blank lines before it. A read that is refused is the last. -/
def nextRecord? (unread : Bytes) (answers : List Verdict) :
    Option (Except Error Measurement × Reader) :=
  if answers.head? = some .refuse then some (.error .io, ⟨unread, answers.tail, true⟩)
  else if _h : (readLine unread).1 = [] then none
  else if Bytes.isBlank (readLine unread).1 then nextRecord? (readLine unread).2 answers.tail
  else some (Record.decode (readLine unread).1, ⟨(readLine unread).2, answers.tail, false⟩)
termination_by unread.length
decreasing_by exact length_readLine_lt _h

/-- The next item of a reader that may have been cancelled meanwhile. -/
def Reader.next? (cancelled : Bool) (r : Reader) : Option (Except Error Measurement × Reader) :=
  if r.done then none
  else if cancelled then some (.error .cancelled, { r with done := true })
  else nextRecord? r.unread r.answers

/-- What a reader returns when it is asked again and again, up to its end; for each time
there is said whether it is cancelled by then. -/
def Reader.returned : List Bool → Reader → List (Except Error Measurement)
  | [], _ => []
  | cancelled :: times, r =>
    match r.next? cancelled with
    | none => []
    | some (item, r) => item :: returned times r

/-- What is left for a reader. -/
def Reader.left (r : Reader) : Reading :=
  .items (readLines (Bytes.lines r.unread) r.answers).1
    (readLines (Bytes.lines r.unread) r.answers).2

theorem left_of_refused {unread : Bytes} {answers : List Verdict}
    (h : answers.head? = some .refuse) :
    Reader.left ⟨unread, answers, false⟩ = .items [] (some .io) := by
  rw [Reader.left]
  cases Bytes.lines unread <;> simp [readLines, h]

theorem left_readLine {unread : Bytes} {answers : List Verdict} (hne : unread ≠ [])
    (h : answers.head? ≠ some .refuse) :
    readLines (Bytes.lines unread) answers =
      let r := readLines (Bytes.lines (readLine unread).2) answers.tail
      (if Bytes.isBlank (readLine unread).1 then r.1
        else Record.decode (readLine unread).1 :: r.1, r.2) := by
  rw [lines_readLine hne, readLines, if_neg h]

/-- The next record is the first one of what is left: nothing is, a read is refused, or what
is left behind it is what the reader goes on with. -/
theorem nextRecord?_eq (unread : Bytes) (answers : List Verdict) :
    let left := Reader.left ⟨unread, answers, false⟩
    nextRecord? unread answers = none ∧ left = .items [] none ∨
      (∃ r, nextRecord? unread answers = some (.error .io, r) ∧ r.done = true ∧
        left = .items [] (some .io)) ∨
      ∃ item r, nextRecord? unread answers = some (item, r) ∧ r.done = false ∧
        ∃ items failure, r.left = .items items failure ∧ left = .items (item :: items) failure := by
  intro left
  induction unread, answers using nextRecord?.induct with
  | case1 unread answers h =>
    exact Or.inr (Or.inl ⟨_, by rw [nextRecord?, if_pos h], rfl, left_of_refused h⟩)
  | case2 unread answers hgranted h =>
    cases unread with
    | nil =>
      refine Or.inl ⟨by rw [nextRecord?, if_neg hgranted, dif_pos h], ?_⟩
      show Reading.items [] (if answers.head? = some .refuse then some .io else none) = _
      rw [if_neg hgranted]
    | cons b rest => exact absurd h (readLine_cons_ne_nil b rest)
  | case3 unread answers hgranted h hblank ih =>
    have hne : unread ≠ [] := fun hnil => h (by rw [hnil]; rfl)
    have hleft : left = Reader.left ⟨(readLine unread).2, answers.tail, false⟩ := by
      simp only [left, Reader.left, left_readLine hne hgranted, hblank, if_true]
    rw [nextRecord?, if_neg hgranted, dif_neg h, if_pos hblank, hleft]
    exact ih
  | case4 unread answers hgranted h hblank =>
    have hne : unread ≠ [] := fun hnil => h (by rw [hnil]; rfl)
    refine Or.inr (Or.inr ⟨_, _, by rw [nextRecord?, if_neg hgranted, dif_neg h, if_neg hblank],
      rfl, _, _, rfl, ?_⟩)
    simp only [left, Reader.left, left_readLine hne hgranted, if_neg hblank]

theorem returned_done {times : List Bool} {r : Reader} (h : r.done = true) :
    r.returned times = [] := by
  cases times with
  | nil => rfl
  | cons cancelled times => rw [Reader.returned, Reader.next?, if_pos h]

/-- Who is cancelled after an item is cancelled that much later. -/
theorem toListUntil_cons (item : Except Error Measurement) (items : List (Except Error Measurement))
    (failure : Option Error) (cancelAfter : Option Nat) :
    (Reading.items (item :: items) failure).toListUntil (cancelAfter.map (· + 1)) =
      item :: (Reading.items items failure).toListUntil cancelAfter := by
  have hall : (Reading.items (item :: items) failure).toList =
      item :: (Reading.items items failure).toList := by
    cases failure <;> rfl
  cases cancelAfter with
  | none => exact hall
  | some n =>
    rw [Option.map_some, Reading.toListUntil, Reading.toListUntil]
    by_cases hn : n ≤ items.length
    · simp [hn]
    · simp [hn, hall]

/-- A reader returns what is left, as many items as it is asked for, until it is cancelled. -/
theorem returned_eq (times : List Bool) {r : Reader} (h : r.done = false) :
    r.returned times = (r.left.toListUntil (times.findIdx? id)).take times.length := by
  induction times generalizing r with
  | nil => exact List.take_zero.symm
  | cons cancelled times ih =>
    obtain ⟨unread, answers, done⟩ := r
    obtain rfl : done = false := h
    rw [List.findIdx?_cons, Reader.returned, Reader.next?, List.length_cons]
    cases cancelled with
    | true => simp [returned_done, Reader.left, Reading.toListUntil]
    | false =>
      simp only [Bool.false_eq_true, if_false, id]
      obtain ⟨hnext, hleft⟩ | ⟨r, hnext, hdone, hleft⟩ | ⟨item, r, hnext, hdone, items, failure,
        hrest, hleft⟩ := nextRecord?_eq unread answers
      · rw [hnext, hleft]
        cases times.findIdx? id <;> rfl
      · rw [hnext, hleft]
        simp only [returned_done hdone]
        cases times.findIdx? id <;> simp [Reading.toListUntil, Reading.toList]
      · rw [hnext, hleft, toListUntil_cons, List.take_succ_cons, ← hrest]
        exact congrArg (item :: ·) (ih hdone)

/-- All of these items, or the first of them and then a failure of the device. -/
def Interrupted (items : List (Except Error Measurement)) (reading : Reading) : Prop :=
  reading = .items items none ∨ ∃ n, reading = .items (items.take n) (some .io)

theorem interrupted_left (r : Reader) : Interrupted (records r.unread) r.left := by
  have hlines : ∀ (lines : List Bytes) (answers : List Verdict),
      Interrupted ((lines.filter (!Bytes.isBlank ·)).map Record.decode)
        (.items (readLines lines answers).1 (readLines lines answers).2) := by
    intro lines
    induction lines with
    | nil =>
      intro answers
      rw [readLines]
      split
      · exact Or.inr ⟨0, rfl⟩
      · exact Or.inl rfl
    | cons line rest ih =>
      intro answers
      rw [readLines]
      split
      · exact Or.inr ⟨0, rfl⟩
      · rw [List.filter_cons]
        cases Bytes.isBlank line with
        | true => exact ih answers.tail
        | false =>
          obtain hall | ⟨n, hcut⟩ := ih answers.tail
          · obtain ⟨hitems, hfailure⟩ := Reading.items.inj hall
            exact Or.inl (by simp [hitems, hfailure])
          · obtain ⟨hitems, hfailure⟩ := Reading.items.inj hcut
            exact Or.inr ⟨n + 1, by simp [hitems, hfailure]⟩
  exact hlines _ _

/-! ## Files that others write to -/

/-- What happens to the file of a session: its saver adds a line, or a line gets in from
elsewhere, behind any number of those that are there. -/
inductive Touch where
  | save (m : Measurement)
  | insert (place : Nat) (bytes : Bytes) (complete : Bytes.newline ∉ bytes)

namespace Touch

def saved? : Touch → Option Measurement
  | save m => some m
  | insert .. => none

def insertLine (place : Nat) (line content : Bytes) : Bytes :=
  ((Bytes.lines content).take place ++ line :: (Bytes.lines content).drop place).flatten

def happen (s : Session) (handle : Handle) (x : SessionFiles × Disk) :
    Touch → SessionFiles × Disk
  | save m => (run (SessionFiles.save s handle m) x).2
  | insert place bytes _ => (x.1, x.2.change handle (insertLine place (bytes ++ [Bytes.newline])))

/-- The lines afterwards. -/
def after (ls : List Line) : Touch → List Line
  | save m => ls ++ [.saved m]
  | insert place bytes complete => ls.take place ++ .other bytes complete :: ls.drop place

theorem saved_after (ls : List Line) (touch : Touch) : (after ls touch).filterMap Line.saved? =
    ls.filterMap Line.saved? ++ touch.saved?.toList := by
  cases touch with
  | save m => rw [after, List.filterMap_append]; rfl
  | insert place bytes complete =>
    have hall := congrArg (List.filterMap Line.saved?) (List.take_append_drop place ls)
    rw [List.filterMap_append] at hall
    rw [after, List.filterMap_append, List.filterMap_cons, saved?, Option.toList_none,
      List.append_nil, ← hall]
    rfl

end Touch

/-- The file of a saver has these lines. -/
structure Lined (f : SessionFiles) (handle : Handle) (ls : List Line) (x : SessionFiles × Disk) :
    Prop where
  files : x.1 = f
  granting : x.2.verdicts = []
  file : x.2.find? handle.path = some (.file handle.number (content ls))

variable {f : SessionFiles} {handle : Handle} {ls : List Line} {x : SessionFiles × Disk}

theorem Lined.happen (h : Lined f handle ls x) (s : Session) (touch : Touch) :
    Lined f handle (Touch.after ls touch) (touch.happen s handle x) := by
  obtain ⟨f', d⟩ := x
  obtain ⟨rfl, hgranting, hfile⟩ := h
  cases touch with
  | save m =>
    have hadded : content (ls ++ [.saved m]) = content ls ++ Record.encode m := by
      rw [content_append]
      exact congrArg (content ls ++ ·) (List.flatMap_singleton _ _)
    rw [Touch.happen, run_save hgranting]
    refine ⟨rfl, (Disk.kept_change handle _).granting hgranting, ?_⟩
    rw [Disk.find?_change hfile, Touch.after, hadded]
  | insert place bytes complete =>
    have hinserted : Touch.insertLine place (bytes ++ [Bytes.newline]) (content ls) =
        content (Touch.after ls (.insert place bytes complete)) := by
      have hlines := lines_content ls []
      rw [List.append_nil, show Bytes.lines [] = [] from rfl, List.append_nil] at hlines
      rw [Touch.insertLine, hlines, Touch.after, content, List.flatMap_def, List.map_append,
        List.map_cons, List.map_take, List.map_drop]
      rfl
    refine ⟨rfl, (Disk.kept_change handle _).granting hgranting, ?_⟩
    exact (Disk.find?_change hfile _).trans (by rw [hinserted])

theorem Lined.happenAll (h : Lined f handle ls x) (s : Session) (touches : List Touch) :
    Lined f handle (touches.foldl Touch.after ls) (touches.foldl (Touch.happen s handle) x) := by
  induction touches generalizing ls x with
  | nil => exact h
  | cons touch touches ih => exact ih (h.happen s touch)

theorem saved_foldl_after (ls : List Line) (touches : List Touch) :
    (touches.foldl Touch.after ls).filterMap Line.saved? =
      ls.filterMap Line.saved? ++ touches.filterMap Touch.saved? := by
  induction touches generalizing ls with
  | nil => exact (List.append_nil _).symm
  | cons touch touches ih =>
    rw [List.foldl_cons, ih, Touch.saved_after, List.append_assoc, List.filterMap_cons]
    cases touch <;> rfl

/-- Whatever lines get into the file of a session while measurements are saved, and whether
its last newline is kept or lost: every line that is not blank is one item of what is read,
in the order of the file. The items of saved measurements are these measurements, and
the others are what the lines decode to; their failures are those of single records. A
reader that is not cancelled returns the items one by one and then ends. If the device
refuses a read, what comes before it is returned, and then an error of the device. -/
theorem read_around_damage {s : Session} {d : Disk} (hgranting : d.verdicts = [])
    (hpath : handle.path = f.path s)
    (hfile : d.find? handle.path = some (.file handle.number [])) (touches : List Touch)
    (kept : Bool) :
    let ls := touches.foldl Touch.after []
    let x := touches.foldl (Touch.happen s handle) (f, d)
    let x' := if kept then x else (x.1, x.2.change handle List.dropLast)
    ls.filterMap Line.saved? = touches.filterMap Touch.saved? ∧
      run (locate s) x' = (.ok (), x') ∧
      SessionFiles.read s x' = .items (ls.filterMap Line.item?) none ∧
      (∀ e, .error e ∈ ls.filterMap Line.item? → e.isRecordLevel) ∧
      (∀ answers, let reading := SessionFiles.read s (x'.1, x'.2.facing answers)
        reading = .failed .io ∨ Interrupted (ls.filterMap Line.item?) reading) ∧
      ∃ unread, x'.2.content? (f.path s) = some unread ∧ ∀ times,
        Reader.returned times ⟨unread, [], false⟩ =
          ((Reading.items (ls.filterMap Line.item?) none).toListUntil (times.findIdx? id)).take
            times.length ∧
        ∀ answers, ∃ reading, Interrupted (ls.filterMap Line.item?) reading ∧
          Reader.returned times ⟨unread, answers, false⟩ =
            (reading.toListUntil (times.findIdx? id)).take times.length := by
  intro ls x x'
  have hlined : Lined f handle ls x :=
    (⟨rfl, hgranting, hfile⟩ : Lined f handle [] (f, d)).happenAll s touches
  have hcut : ∃ unread, x'.2.find? (f.path s) = some (.file handle.number unread) ∧
      records unread = ls.filterMap Line.item? := by
    rw [← hpath]
    cases kept with
    | true => exact ⟨content ls, hlined.file, records_content ls⟩
    | false => exact ⟨_, Disk.find?_change hlined.file _, records_content_dropLast ls⟩
  have hfiles : x'.1 = f := by
    cases kept <;> exact hlined.files
  have hgranted : x'.2.verdicts = [] := by
    cases kept with
    | true => exact hlined.granting
    | false => exact (Disk.kept_change handle _).granting hlined.granting
  obtain ⟨unread, hfind, hrecords⟩ := hcut
  clear_value x'
  obtain ⟨f', d'⟩ := x'
  obtain rfl : f' = f := hfiles
  have hall : Reader.left ⟨unread, [], false⟩ = .items (ls.filterMap Line.item?) none := by
    rw [Reader.left, readLines_nil, ← hrecords]
    rfl
  refine ⟨saved_foldl_after [] touches, ?_, ?_, fun e he => isRecordLevel_of_item he,
    fun answers => ?_, unread, ?_, fun times => ⟨?_, fun answers => ?_⟩⟩
  · rw [locate, run_bind_ok (run_get _)]
    simp only [hfind]
    rfl
  · rw [read_file hgranted hfind, hrecords]
  · have hfaced : (d'.facing answers).find? (f'.path s) = some (.file handle.number unread) := hfind
    intro reading
    by_cases hrefused : (d'.facing answers).verdicts.head? = some .refuse
    · exact Or.inl (by simp only [reading, SessionFiles.read, hfaced, if_pos hrefused])
    · refine Or.inr ?_
      have hleft : reading = Reader.left ⟨unread, (d'.facing answers).verdicts.tail, false⟩ := by
        simp only [reading, SessionFiles.read, hfaced, if_neg hrefused, Reader.left]
      rw [hleft, ← hrecords]
      exact interrupted_left _
  · simp only [Disk.content?, hfind]
  · rw [returned_eq times rfl, hall]
  · exact ⟨_, hrecords ▸ interrupted_left ⟨unread, answers, false⟩, returned_eq times rfl⟩

/-- Two measurements; bytes that are no text before the first, a blank line behind it, and
the beginning of a record at the end of the file. -/
def torn : List Touch :=
  [.save ⟨Timestamp.ofNanos 5000000000, []⟩, .insert 0 [255] (by decide),
    .insert 2 [32, 9] (by decide), .save ⟨Timestamp.ofNanos 6000000000, []⟩,
    .insert 4 [123, 34] (by decide)]

theorem read_around_damage_torn :
    let files : SessionFiles := ⟨["data"], true⟩
    let s : Session := ⟨⟨"cart", "one"⟩, 1⟩
    let handle : Handle := ⟨["data", "cart", "one", "1.ndjson"], 0⟩
    let d : Disk := ⟨[(handle.path, .file 0 [])], 1, []⟩
    let x := torn.foldl (Touch.happen s handle) (files, d)
    d.verdicts = [] ∧ handle.path = files.path s ∧ d.find? handle.path = some (.file 0 []) ∧
      SessionFiles.read s (x.1, x.2.change handle List.dropLast) =
        .items [.error .recordNotText, .ok ⟨Timestamp.ofNanos 5000000000, []⟩,
          .ok ⟨Timestamp.ofNanos 6000000000, []⟩, .error .malformedRecord] none := by
  intro files s handle d x
  have hfile : d.find? handle.path = some (.file 0 []) := rfl
  have hpath : handle.path = files.path s := by decide +kernel
  obtain ⟨_, _, hread, _⟩ := read_around_damage (d := d) rfl hpath hfile torn false
  exact ⟨rfl, hpath, hfile, hread⟩

end SessionFiles
end HeapTelemetry
