import HeapTelemetry.Proofs.Json.Fragments
import HeapTelemetry.Proofs.Storage.DamagedFiles
import Mathlib.Data.List.Induction

/-! Session files on a device that fails. A write may stop anywhere in a record, and what it
wrote stays in the file. The next record goes on in the same line, and a reader finds neither
of the two. -/

namespace HeapTelemetry
open Step

namespace SessionFiles

/-! ## Attempts -/

/-- A save as it went: how many bytes of its line reached the file, and the answer. -/
structure Attempt where
  measurement : Measurement
  written : Nat
  acknowledged : Bool
  deriving DecidableEq

namespace Attempt

def bytes (a : Attempt) : Bytes := (Record.encode a.measurement).take a.written

/-- The line was written to its end. -/
def whole (a : Attempt) : Bool := (Record.encode a.measurement).length ≤ a.written

variable {a : Attempt}

theorem bytes_of_whole (h : a.whole) :
    a.bytes = (Record.ofMeasurement a.measurement).render ++ [Bytes.newline] :=
  List.take_of_length_le (of_decide_eq_true h)

theorem bytes_of_not_whole (h : a.whole = false) :
    a.bytes = (Record.ofMeasurement a.measurement).render.take a.written := by
  have hlt := Nat.not_le.1 (of_decide_eq_false h)
  rw [Record.encode, List.length_append, List.length_singleton] at hlt
  rw [bytes, Record.encode, List.take_append_of_le_length (Nat.le_of_lt_succ hlt)]

theorem fragment (h : a.whole = false) (hsome : a.written ≠ 0) : Record.Fragment a.bytes := by
  refine ⟨?_, a.measurement, bytes_of_not_whole h ▸ List.take_prefix _ _⟩
  rw [bytes_of_not_whole h]
  intro hnil
  rcases List.take_eq_nil_iff.1 hnil with hzero | hempty
  · exact hsome hzero
  · exact (Record.fragment_render a.measurement).1 hempty

end Attempt

/-- What stands in the line that a file ends with. -/
inductive LastLine where
  | empty
  | unended (a : Attempt)
  | broken

namespace LastLine

def isEmpty : LastLine → Bool
  | empty => true
  | _ => false

def after (l : LastLine) (a : Attempt) : LastLine :=
  if a.whole then empty
  else if a.written = 0 then l
  else match l with
    | empty =>
      if a.written + 1 = (Record.encode a.measurement).length then unended a else broken
    | _ => broken

section
variable {l : LastLine} {a : Attempt}

theorem after_whole (ha : a.whole = true) (l : LastLine) : l.after a = empty := by
  simp [after, ha]

theorem after_nothing (ha : a.whole = false) (hnone : a.written = 0) (l : LastLine) :
    l.after a = l := by
  simp [after, ha, hnone]

theorem after_empty (ha : a.whole = false) (hsome : a.written ≠ 0) : empty.after a =
    if a.written + 1 = (Record.encode a.measurement).length then unended a else broken := by
  simp [after, ha, hsome]

theorem after_nonempty (ha : a.whole = false) (hsome : a.written ≠ 0) (hl : l.isEmpty = false) :
    l.after a = broken := by
  cases l with
  | empty => cases hl
  | unended b => simp [after, ha, hsome]
  | broken => simp [after, ha, hsome]

theorem eq_empty (hl : l.isEmpty = true) : l = empty := by
  cases l with
  | empty => rfl
  | unended b => cases hl
  | broken => cases hl

end

/-- The attempts that a reader finds, one for every line, and `none` for a damaged line. -/
def found : LastLine → List Attempt → List (Option Attempt)
  | empty, [] => []
  | unended a, [] => [some a]
  | broken, [] => [none]
  | l, a :: later =>
    (if a.whole then [if l.isEmpty then some a else none] else []) ++ found (l.after a) later

/-- The line consists of these pieces of records. -/
inductive Holds : LastLine → List Bytes → Prop
  | empty : Holds empty []
  | unended (a : Attempt) : Holds (unended a) [(Record.ofMeasurement a.measurement).render]
  | broken {m : Measurement} {p : Bytes} {pieces : List Bytes} : p ≠ [] →
      p <+: (Record.ofMeasurement m).render →
      p ≠ (Record.ofMeasurement m).render ∨ pieces ≠ [] →
      (∀ q ∈ pieces, Record.Fragment q) → Holds broken (p :: pieces)

variable {l : LastLine} {pieces : List Bytes} {q : Bytes}

theorem Holds.fragments (h : l.Holds pieces) : ∀ q ∈ pieces, Record.Fragment q := by
  cases h with
  | empty => exact nofun
  | unended a =>
    intro q hq
    rw [List.mem_singleton.1 hq]
    exact Record.fragment_render _
  | broken hne hp _ hpieces =>
    intro q hq
    rcases List.mem_cons.1 hq with rfl | hq
    · exact ⟨hne, _, hp⟩
    · exact hpieces q hq

/-- A record behind an unended line damages it. -/
theorem Holds.add (h : l.Holds pieces) (hl : l.isEmpty = false) (hq : Record.Fragment q) :
    Holds .broken (pieces ++ [q]) := by
  have hmore : ∀ pieces : List Bytes, pieces ++ [q] ≠ [] := by simp
  cases h with
  | empty => cases hl
  | unended a =>
    exact .broken (Record.fragment_render _).1 List.prefix_rfl (Or.inr (hmore []))
      fun r hr => List.mem_singleton.1 hr ▸ hq
  | broken hne hp _ hpieces =>
    refine .broken hne hp (Or.inr (hmore _)) fun r hr => ?_
    rcases List.mem_append.1 hr with hr | hr
    · exact hpieces r hr
    · exact List.mem_singleton.1 hr ▸ hq

theorem Holds.decode (h : Holds .broken pieces) : ∃ e, Record.decode pieces.flatten = .error e := by
  cases h with
  | @broken m p pieces hne hp hdamaged hpieces =>
    rw [← Record.decode_newline, List.flatten_cons, List.append_assoc]
    refine Record.exists_decode_error (Record.alien_flatten hpieces) hne hp (hdamaged.imp_right ?_)
    intro hsome heq
    obtain ⟨q, hq⟩ := List.exists_mem_of_ne_nil pieces hsome
    have hnil := List.flatten_eq_nil_iff.1 (List.append_left_eq_self.1 heq) q hq
    exact (hpieces q hq).1 hnil

theorem Holds.eq_nil (h : l.Holds pieces) (hl : l.isEmpty = true) : pieces = [] := by
  rw [eq_empty hl] at h
  cases h
  rfl

/-- The line behind a save that stopped before the end of its line. -/
theorem Holds.after (h : l.Holds pieces) {a : Attempt} (ha : a.whole = false) : ∃ pieces',
    (l.after a).Holds pieces' ∧ pieces'.flatten = pieces.flatten ++ a.bytes := by
  have hbytes := Attempt.bytes_of_not_whole ha
  by_cases hnone : a.written = 0
  · refine ⟨pieces, (after_nothing ha hnone l).symm ▸ h, ?_⟩
    rw [Attempt.bytes, hnone, List.take_zero, List.append_nil]
  have hfragment := Attempt.fragment ha hnone
  cases hl : l.isEmpty with
  | false => exact ⟨_, (after_nonempty ha hnone hl).symm ▸ h.add hl hfragment, by simp⟩
  | true =>
    rw [h.eq_nil hl, eq_empty hl, after_empty ha hnone]
    refine ⟨[a.bytes], ?_, List.flatten_singleton⟩
    have hlength : (Record.encode a.measurement).length =
        (Record.ofMeasurement a.measurement).render.length + 1 := List.length_append
    split
    · rename_i hfull
      rw [hbytes, List.take_of_length_le (by omega)]
      exact .unended a
    · rename_i hshort
      refine .broken hfragment.1 (hbytes ▸ List.take_prefix _ _) (Or.inl fun hrender => ?_) nofun
      have hsame := congrArg List.length (hbytes.symm.trans hrender)
      have hlt := Nat.not_le.1 (of_decide_eq_false ha)
      rw [List.length_take] at hsame
      omega

theorem found_cons (l : LastLine) (a : Attempt) (later : List Attempt) : l.found (a :: later) =
    (if a.whole then [if l.isEmpty then some a else none] else []) ++ (l.after a).found later := by
  cases l <;> rfl

theorem Holds.newline_not_mem (h : l.Holds pieces) : Bytes.newline ∉ pieces.flatten := by
  intro hmem
  obtain ⟨q, hq, hnewline⟩ := List.mem_flatten.1 hmem
  exact (h.fragments q hq).newline_not_mem hnewline

theorem Holds.not_blank (h : l.Holds pieces) (hl : l.isEmpty = false) (rest : Bytes) :
    Bytes.isBlank (pieces.flatten ++ rest) = false := by
  cases h with
  | empty => cases hl
  | unended a =>
    rw [List.flatten_singleton]
    exact (Record.fragment_render _).not_blank rest
  | broken hne hp =>
    rw [List.flatten_cons, List.append_assoc]
    exact Record.Fragment.not_blank ⟨hne, _, hp⟩ _

/-- The record that ends a line is read if it stands there alone. -/
theorem Holds.decode_append (h : l.Holds pieces) (m : Measurement) :
    (Record.decode (pieces.flatten ++ (Record.ofMeasurement m).render)).toOption =
      if l.isEmpty then some m else none := by
  cases hl : l.isEmpty with
  | true =>
    rw [h.eq_nil hl, List.flatten_nil, List.nil_append, ← Record.decode_newline]
    exact congrArg Except.toOption (Record.decode_encode m)
  | false =>
    obtain ⟨e, he⟩ := (h.add hl (Record.fragment_render m)).decode
    rw [List.flatten_append, List.flatten_singleton] at he
    rw [he]
    rfl

/-- The line that a file ends with gives an item if it is not empty. -/
theorem Holds.records_last (h : l.Holds pieces) :
    (records pieces.flatten).map Except.toOption = (l.found []).map (Option.map Attempt.measurement) := by
  cases hl : l.isEmpty with
  | true =>
    rw [h.eq_nil hl, eq_empty hl]
    rfl
  | false =>
    have hblank := h.not_blank hl []
    rw [List.append_nil] at hblank
    rw [SessionFiles.records_last h.newline_not_mem hblank]
    cases l with
    | empty => cases hl
    | unended a =>
      cases h
      rw [List.flatten_singleton]
      exact congrArg (fun item => [item]) (Holds.empty.decode_append a.measurement)
    | broken =>
      obtain ⟨e, he⟩ := h.decode
      rw [he]
      rfl

/-- A line that gets its newline gives an item, and the next one begins. -/
theorem Holds.records_whole (h : l.Holds pieces) {a : Attempt} (ha : a.whole = true)
    (rest : Bytes) : (records (pieces.flatten ++ (a.bytes ++ rest))).map Except.toOption =
      (if l.isEmpty then some a.measurement else none) :: (records rest).map Except.toOption := by
  have hsplit : pieces.flatten ++ (a.bytes ++ rest) =
      (pieces.flatten ++ (Record.ofMeasurement a.measurement).render) ++ Bytes.newline :: rest := by
    rw [Attempt.bytes_of_whole ha]
    simp
  have hline : Bytes.newline ∉ pieces.flatten ++ (Record.ofMeasurement a.measurement).render :=
    List.not_mem_append h.newline_not_mem (Record.newline_not_mem_render _)
  have hblank : Bytes.isBlank
      (pieces.flatten ++ (Record.ofMeasurement a.measurement).render) = false := by
    cases hl : l.isEmpty with
    | false => exact h.not_blank hl _
    | true =>
      rw [h.eq_nil hl]
      simpa using (Record.fragment_render a.measurement).not_blank []
  rw [hsplit, records_cons hline hblank, List.map_cons, h.decode_append]

/-- Every line gives one item: the measurement of its record where that stands alone, and else
an error. -/
theorem Holds.records (h : l.Holds pieces) (attempts : List Attempt) :
    (records (pieces.flatten ++ attempts.flatMap Attempt.bytes)).map Except.toOption =
      (l.found attempts).map (Option.map Attempt.measurement) := by
  induction attempts generalizing l pieces with
  | nil =>
    rw [List.flatMap_nil, List.append_nil]
    exact h.records_last
  | cons a later ih =>
    rw [found_cons, List.flatMap_cons]
    cases ha : a.whole with
    | true =>
      have hlater := ih Holds.empty
      rw [List.flatten_nil, List.nil_append] at hlater
      rw [h.records_whole ha, hlater, after_whole ha]
      cases l.isEmpty <;> rfl
    | false =>
      obtain ⟨pieces', h', hpieces⟩ := h.after ha
      rw [← List.append_assoc, ← hpieces, ih h']
      rfl

/-! ## What is lost -/

theorem isEmpty_after (l : LastLine) (a : Attempt) :
    (l.after a).isEmpty = (a.whole || (a.written = 0 && l.isEmpty)) := by
  cases ha : a.whole with
  | true => rw [after_whole ha, Bool.true_or]; rfl
  | false =>
    by_cases hnone : a.written = 0
    · simp [after_nothing ha hnone, hnone]
    · cases hl : l.isEmpty with
      | false => simp [after_nonempty ha hnone hl, isEmpty]
      | true =>
        rw [eq_empty hl, after_empty ha hnone, decide_eq_false hnone]
        split <;> rfl

/-- The acknowledged attempts that a reader finds. -/
def kept (l : LastLine) (attempts : List Attempt) : List Attempt :=
  ((l.found attempts).filterMap id).filter Attempt.acknowledged

theorem kept_cons (l : LastLine) (a : Attempt) (later : List Attempt) : l.kept (a :: later) =
    (if a.whole && l.isEmpty && a.acknowledged then [a] else []) ++ (l.after a).kept later := by
  rw [kept, found_cons, List.filterMap_append, List.filter_append]
  congr 1
  cases ha : a.whole <;> cases hl : l.isEmpty <;> cases hok : a.acknowledged <;> simp [hok]

/-- An unended line is of a save that was not acknowledged. -/
def Quiet (l : LastLine) : Prop := ∀ a, l = unended a → a.acknowledged = false

theorem Quiet.after {l : LastLine} (h : l.Quiet) {a : Attempt}
    (ha : a.acknowledged = true → a.whole = true) : (l.after a).Quiet := by
  intro b hb
  cases hw : a.whole with
  | true =>
    rw [after_whole hw] at hb
    cases hb
  | false =>
    by_cases hnone : a.written = 0
    · exact h b (after_nothing hw hnone l ▸ hb)
    cases hl : l.isEmpty with
    | false =>
      rw [after_nonempty hw hnone hl] at hb
      cases hb
    | true =>
      rw [eq_empty hl, after_empty hw hnone] at hb
      split at hb
      · cases hb
        exact Bool.eq_false_iff.2 fun hok => Bool.false_ne_true (hw.symm.trans (ha hok))
      · cases hb

variable {l : LastLine} {attempts : List Attempt}

theorem kept_nil (hl : l.Quiet) : l.kept [] = [] := by
  cases l with
  | empty => rfl
  | broken => rfl
  | unended a => simp [kept, found, hl a rfl]

/-- What is found of the acknowledged saves is a part of them, in their order. -/
theorem kept_sublist (hwhole : ∀ a ∈ attempts, a.acknowledged = true → a.whole = true)
    (hl : l.Quiet) : (l.kept attempts).Sublist (attempts.filter Attempt.acknowledged) := by
  induction attempts generalizing l with
  | nil => rw [kept_nil hl]; exact List.nil_sublist _
  | cons a later ih =>
    have hlater := ih (fun b hb => hwhole b (List.mem_cons_of_mem a hb))
      (hl.after (hwhole a List.mem_cons_self))
    rw [kept_cons]
    cases hok : a.acknowledged with
    | false =>
      rw [Bool.and_false, List.filter_cons_of_neg (by simp [hok])]
      exact hlater
    | true =>
      rw [List.filter_cons_of_pos hok]
      split
      · exact hlater.cons_cons a
      · exact hlater.cons a

/-- They are all found if and only if each found its line empty. -/
theorem kept_eq_iff (hwhole : ∀ a ∈ attempts, a.acknowledged = true → a.whole = true)
    (hl : l.Quiet) : l.kept attempts = attempts.filter Attempt.acknowledged ↔
      ∀ before a later, attempts = before ++ a :: later → a.acknowledged = true →
        (before.foldl LastLine.after l).isEmpty = true := by
  induction attempts generalizing l with
  | nil =>
    rw [kept_nil hl]
    refine ⟨fun _ before a later hnil => ?_, fun _ => rfl⟩
    exact absurd hnil.symm (by simp)
  | cons a later ih =>
    have hwhole' : ∀ b ∈ later, b.acknowledged = true → b.whole = true :=
      fun b hb => hwhole b (List.mem_cons_of_mem a hb)
    have hl' := hl.after (hwhole a List.mem_cons_self)
    have hsub := kept_sublist hwhole' hl'
    rw [forall_places_cons, List.foldl_nil]
    simp only [List.foldl_cons]
    rw [← ih hwhole' hl', kept_cons]
    cases hok : a.acknowledged with
    | false =>
      rw [Bool.and_false, List.filter_cons_of_neg (by simp [hok])]
      simp
    | true =>
      rw [List.filter_cons_of_pos hok, hwhole a List.mem_cons_self hok]
      cases l.isEmpty with
      | true => simp
      | false =>
        refine ⟨fun heq => ?_, fun h => absurd (h.1 rfl) Bool.false_ne_true⟩
        have hlength := congrArg List.length heq
        have hshort := hsub.length_le
        simp at hlength hshort
        omega

end LastLine

/-- Nothing, or lines that all have their newline. -/
def Ended (content : Bytes) : Prop := content = [] ∨ content.getLast? = some Bytes.newline

theorem not_ended_append {content q : Bytes} (hq : Record.Fragment q) : ¬ Ended (content ++ q) := by
  rintro (hnil | hlast)
  · exact hq.1 (List.append_eq_nil_iff.1 hnil).2
  · rw [List.getLast?_append_of_ne_nil _ hq.1] at hlast
    exact hq.newline_not_mem (List.mem_of_getLast? hlast)

/-- The last line is empty if and only if the file has ended its lines. -/
theorem isEmpty_foldl_after (attempts : List Attempt) :
    (attempts.foldl LastLine.after .empty).isEmpty = true ↔
      Ended (attempts.flatMap Attempt.bytes) := by
  induction attempts using List.reverseRecOn with
  | nil => exact ⟨fun _ => Or.inl rfl, fun _ => rfl⟩
  | append_singleton before a ih =>
    rw [List.foldl_concat, LastLine.isEmpty_after, List.flatMap_append, List.flatMap_singleton]
    cases ha : a.whole with
    | true =>
      rw [Attempt.bytes_of_whole ha, ← List.append_assoc]
      simp [Ended]
    | false =>
      by_cases hnone : a.written = 0
      · simp [hnone, Attempt.bytes, ih]
      · simp [hnone, not_ended_append (Attempt.fragment ha hnone)]

/-! ## A saver -/

/-- A session file that is saved to, with the attempts so far. -/
structure Course where
  files : SessionFiles × Disk
  attempts : List Attempt

def fileSize (handle : Handle) (x : SessionFiles × Disk) : Nat :=
  ((x.2.content? handle.path).getD []).length

namespace Course

def save (s : Session) (handle : Handle) (c : Course) (m : Measurement) : Course :=
  let (r, files) := run (SessionFiles.save s handle m) c.files
  ⟨files, c.attempts ++ [⟨m, fileSize handle files - fileSize handle c.files, r.isOk⟩]⟩

def saveAll (s : Session) (handle : Handle) (c : Course) (ms : List Measurement) : Course :=
  ms.foldl (save s handle) c

/-- The file is what the attempts have written, and what was acknowledged was written whole. -/
structure Written (f : SessionFiles) (handle : Handle) (c : Course) : Prop where
  files : c.files.1 = f
  file : c.files.2.find? handle.path =
    some (.file handle.number (c.attempts.flatMap Attempt.bytes))
  whole : ∀ a ∈ c.attempts, a.acknowledged = true → a.whole = true

variable {f : SessionFiles} {handle : Handle} {c : Course}

theorem Written.save (h : c.Written f handle) (s : Session) (m : Measurement) :
    (c.save s handle m).Written f handle ∧
      (c.save s handle m).attempts.map Attempt.measurement =
        c.attempts.map Attempt.measurement ++ [m] := by
  obtain ⟨⟨f', d⟩, attempts⟩ := c
  obtain ⟨rfl, hfile, hwhole⟩ := h
  obtain ⟨r, n, d', hrun, hwritten, hall, _⟩ :=
    Disk.append_sync_cases hfile (Record.encode m) f'.syncWrite
  have hsave : run (SessionFiles.save s handle m) (f', d) = (r, (f', d')) := by
    rw [SessionFiles.save, run_bind_ok (run_get _)]
    simp only [run_onDisk, hrun]
  have hgrown : fileSize handle (f', d') - fileSize handle (f', d) =
      ((Record.encode m).take n).length := by
    rw [fileSize, fileSize, Disk.content?, Disk.content?, hfile, hwritten]
    simp
  simp only [Course.save, hsave, hgrown]
  refine ⟨⟨rfl, ?_, fun a ha hok => ?_⟩, List.map_append⟩
  · rw [List.flatMap_append, List.flatMap_singleton, Attempt.bytes, List.length_take]
    rw [← List.take_take, List.take_length]
    exact hwritten
  · rcases List.mem_append.1 ha with ha | ha
    · exact hwhole a ha hok
    · obtain rfl := List.mem_singleton.1 ha
      cases r with
      | error e => cases hok
      | ok _ =>
        rw [hall rfl, List.take_length]
        exact decide_eq_true (Nat.le_refl _)

theorem Written.saveAll (h : c.Written f handle) (s : Session) (ms : List Measurement) :
    (c.saveAll s handle ms).Written f handle ∧
      (c.saveAll s handle ms).attempts.map Attempt.measurement =
        c.attempts.map Attempt.measurement ++ ms := by
  induction ms generalizing c with
  | nil => exact ⟨h, (List.append_nil _).symm⟩
  | cons m ms ih =>
    obtain ⟨hwritten, hattempts⟩ := ih (h.save s m).1
    refine ⟨hwritten, hattempts.trans ?_⟩
    rw [(h.save s m).2, List.append_assoc]
    rfl

theorem Written.read (h : c.Written f handle) {s : Session} (hpath : handle.path = f.path s) :
    ∃ items, SessionFiles.read s (c.files.1, c.files.2.facing []) = .items items none ∧
      items.map Except.toOption =
        (LastLine.empty.found c.attempts).map (Option.map Attempt.measurement) ∧
      (∀ e, .error e ∈ items → e.isRecordLevel) ∧
      (LastLine.empty.kept c.attempts = c.attempts.filter Attempt.acknowledged ↔
        ∀ before a later, c.attempts = before ++ a :: later → a.acknowledged = true →
          Ended (before.flatMap Attempt.bytes)) := by
  have hquiet : LastLine.empty.Quiet := fun a h => by cases h
  obtain ⟨⟨f', d⟩, attempts⟩ := c
  obtain ⟨rfl, hfile, hwhole⟩ := h
  refine ⟨records (attempts.flatMap Attempt.bytes), ?_, LastLine.Holds.empty.records attempts,
    fun e he => isRecordLevel_of_mem_records he, ?_⟩
  · exact read_file rfl (hpath ▸ hfile)
  · rw [LastLine.kept_eq_iff hwhole hquiet]
    simp only [isEmpty_foldl_after]

end Course

/-- Whatever a device does to the saves of a session, its file holds of every record what was
written of it, one behind the other, and of the acknowledged records everything. A reader
whose reads are granted returns an item for every line: a measurement, where a record stands
in the line alone, and else an error that is passed over. The acknowledged measurements are
among them in their order if and only if each found the lines of the file ended. -/
theorem acknowledged_saves_read_iff {f : SessionFiles} {s : Session} {handle : Handle} {d : Disk}
    (hpath : handle.path = f.path s)
    (hfile : d.find? handle.path = some (.file handle.number [])) (ms : List Measurement) :
    let c := Course.saveAll s handle ⟨(f, d), []⟩ ms
    c.attempts.map Attempt.measurement = ms ∧
      c.files.2.content? handle.path = some (c.attempts.flatMap Attempt.bytes) ∧
      (∀ a ∈ c.attempts, a.acknowledged = true → a.whole = true) ∧
      ∃ items, SessionFiles.read s (c.files.1, c.files.2.facing []) = .items items none ∧
        items.map Except.toOption =
          (LastLine.empty.found c.attempts).map (Option.map Attempt.measurement) ∧
        (∀ e, .error e ∈ items → e.isRecordLevel) ∧
        (LastLine.empty.kept c.attempts = c.attempts.filter Attempt.acknowledged ↔
          ∀ before a later, c.attempts = before ++ a :: later → a.acknowledged = true →
            Ended (before.flatMap Attempt.bytes)) := by
  have hfresh : Course.Written f handle ⟨(f, d), []⟩ :=
    ⟨rfl, hfile, fun _ ha => absurd ha List.not_mem_nil⟩
  obtain ⟨hwritten, hattempts⟩ := hfresh.saveAll s ms
  exact ⟨hattempts, by rw [Disk.content?, hwritten.file], hwritten.whole, hwritten.read hpath⟩

/-- Three measurements without locations. -/
def threeSaves : List Measurement :=
  [⟨Timestamp.ofNanos 5000000000, []⟩, ⟨Timestamp.ofNanos 6000000000, []⟩,
    ⟨Timestamp.ofNanos 7000000000, []⟩]

/-- A session with an empty file, on a device that answers this. -/
def started (verdicts : List Verdict) : Course where
  files := (⟨["data"], true⟩, ⟨[(["data", "cart", "one", "1.ndjson"], .file 0 [])], 1, verdicts⟩)
  attempts := []

/-- The second write is refused, so the third record, which is acknowledged, stands behind the
ended line of the first. The fourth lacks only the newline: it stands in the line alone, and a
reader finds it, though its save has failed. -/
theorem acknowledged_saves_read_iff_unended :
    let s : Session := ⟨⟨"cart", "one"⟩, 1⟩
    let handle : Handle := ⟨["data", "cart", "one", "1.ndjson"], 0⟩
    let start := started [.grant, .grant, .refuse, .grant, .grant, .room 53]
    let c := start.saveAll s handle (threeSaves ++ [⟨Timestamp.ofNanos 8000000000, []⟩])
    handle.path = start.files.1.path s ∧
      start.files.2.find? handle.path = some (.file handle.number []) ∧
      c.attempts.map Attempt.acknowledged = [true, false, true, false] ∧
      (∀ before a later, c.attempts = before ++ a :: later → a.acknowledged = true →
        Ended (before.flatMap Attempt.bytes)) ∧
      ∃ items, SessionFiles.read s (c.files.1, c.files.2.facing []) = .items items none ∧
        items.map Except.toOption = [some ⟨Timestamp.ofNanos 5000000000, []⟩,
          some ⟨Timestamp.ofNanos 7000000000, []⟩, some ⟨Timestamp.ofNanos 8000000000, []⟩] := by
  intro s handle start c
  have hpath : handle.path = start.files.1.path s := by decide +kernel
  have hfile : start.files.2.find? handle.path = some (.file handle.number []) := by decide +kernel
  have hfound : (LastLine.empty.found c.attempts).map (Option.map Attempt.measurement) =
      [some ⟨Timestamp.ofNanos 5000000000, []⟩, some ⟨Timestamp.ofNanos 7000000000, []⟩,
        some ⟨Timestamp.ofNanos 8000000000, []⟩] := by decide +kernel
  have hkept : LastLine.empty.kept c.attempts = c.attempts.filter Attempt.acknowledged := by
    decide +kernel
  obtain ⟨_, _, _, items, hread, hitems, _, hended⟩ :=
    acknowledged_saves_read_iff hpath hfile (threeSaves ++ [⟨Timestamp.ofNanos 8000000000, []⟩])
  exact ⟨hpath, hfile, by decide +kernel, hended.1 hkept, items, hread, hitems.trans hfound⟩

/-- The second write is torn, and the third record, though it is acknowledged, goes on in the
same line: a reader finds an error in the place of both. -/
theorem acknowledged_save_lost :
    let s : Session := ⟨⟨"cart", "one"⟩, 1⟩
    let handle : Handle := ⟨["data", "cart", "one", "1.ndjson"], 0⟩
    let c := (started [.grant, .grant, .room 20]).saveAll s handle threeSaves
    handle.path = c.files.1.path s ∧
      c.attempts.map Attempt.acknowledged = [true, false, true] ∧
      (SessionFiles.read s (c.files.1, c.files.2.facing [])).toList =
        [.ok ⟨Timestamp.ofNanos 5000000000, []⟩, .error .malformedRecord] := by
  decide +kernel

end SessionFiles
end HeapTelemetry
