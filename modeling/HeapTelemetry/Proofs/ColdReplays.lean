import HeapTelemetry.Proofs.CachedAnswers
import HeapTelemetry.Proofs.FileReplay
import HeapTelemetry.Proofs.Storage.ItemStreams

/-! Queries for sessions that are not resident. Whatever is stored of a session and whenever
its reader is cancelled, a query gives the report on all that can be read, or says what went
wrong; it keeps only such a report, and nothing else of it is left. -/

namespace HeapTelemetry
open Step

/-- Not a failure, or one that a replay skips. -/
def Passable (item : Except Error Measurement) : Prop :=
  ∀ e, item = .error e → e.isRecordLevel = true

theorem not_passable {e : Error} (h : e.isRecordLevel = false) : ¬ Passable (.error e) :=
  fun hpass => Bool.false_ne_true (h.symm.trans (hpass e rfl))

namespace SessionWindows

/-- The measurements among items. -/
def decoded (items : List (Except Error Measurement)) : List Measurement :=
  items.filterMap Except.toOption

/-- What is passed over leaves the windows as they are. -/
theorem registerAll_passable {items : List (Except Error Measurement)}
    (h : ∀ item ∈ items, Passable item) (w : SessionWindows) :
    registerAll items w = .ok ((decoded items).foldl taking w) := by
  induction items generalizing w with
  | nil => rfl
  | cons item items ih =>
    obtain ⟨hitem, hitems⟩ := List.forall_mem_cons.1 h
    cases item with
    | ok m =>
      have hdecoded : decoded (.ok m :: items) = m :: decoded items := rfl
      rw [hdecoded, List.foldl_cons, registerAll, taking]
      cases w.register m <;> exact ih hitems _
    | error e =>
      rw [registerAll, if_pos (hitem e rfl)]
      exact ih hitems w

/-- Who refuses nothing has been fed what it accepts. -/
theorem foldlM_register (ms : List Measurement) (w : SessionWindows) :
    (ms.filter (Measurement.Unrepeated ·)).foldlM register w = .ok (ms.foldl taking w) := by
  induction ms generalizing w with
  | nil => rfl
  | cons m ms ih =>
    rw [List.foldl_cons]
    by_cases hm : m.Unrepeated
    · obtain ⟨w', hw'⟩ := register_unrepeated w hm
      have htaking : w.taking m = w' := by rw [taking, hw']
      rw [List.filter_cons_of_pos (by simpa using hm), List.foldlM_cons, hw', htaking]
      exact ih w'
    · rw [List.filter_cons_of_neg (by simpa using hm), taking_repeated w hm]
      exact ih w

/-! ## The loop of a replay -/

/-- In each round the loop looks whether it is cancelled, and then asks the loader for an
item, which looks as well. As long as no round ends it, nothing has come out. -/
def drain {σ : Type} (next? : Bool → σ → Option (Except Error Measurement × σ)) :
    List (Bool × Bool) → σ → SessionWindows → Option (Except Error SessionWindows)
  | [], _, _ => none
  | (before, within) :: rounds, c, w =>
    if before then some (.error .cancelled)
    else match next? within c with
      | none => some (.ok w)
      | some (.ok m, c) => drain next? rounds c (w.taking m)
      | some (.error e, c) => if e.isRecordLevel then drain next? rounds c w else some (.error e)

/-- What comes of a reading that is cancelled after some items. -/
def gathered (cancelAfter : Option Nat) (reading : Reading) (w : SessionWindows) :
    Except Error SessionWindows :=
  if cancelAfter = some 0 then .error .cancelled
  else registerAll (reading.toListUntil cancelAfter) w

theorem gathered_items (cancelAfter : Option Nat) (records : List (Except Error Measurement))
    (failure : Option Error) (w : SessionWindows) :
    gathered cancelAfter (.items records failure) w =
      registerAll ((Reading.items records failure).toListUntil cancelAfter) w := by
  rw [gathered]
  split
  · rename_i h
    rw [h]
    rfl
  · rfl

theorem gathered_cons (cancelAfter : Option Nat) (item : Except Error Measurement)
    (records : List (Except Error Measurement)) (failure : Option Error) (w : SessionWindows) :
    gathered (cancelAfter.map (· + 1)) (.items (item :: records) failure) w = match item with
      | .ok m => gathered cancelAfter (.items records failure) (w.taking m)
      | .error e =>
        if e.isRecordLevel then gathered cancelAfter (.items records failure) w else .error e := by
  rw [gathered_items, SessionFiles.toListUntil_cons]
  cases item with
  | ok m =>
    simp only [gathered_items, registerAll, taking]
    cases w.register m <;> rfl
  | error e =>
    simp only [gathered_items, registerAll]

section
variable {B W : Type} [Backend B W] [Streaming B W] {c : Streaming.Cursor B} {reading : Reading}
  {rounds : List (Bool × Bool)} {w : SessionWindows}

theorem drain_failure (hview : Streaming.view c = some reading) {within : Bool} {e : Error}
    {rest : Option Reading} (hpoll : reading.poll within = some (.error e, rest))
    (hard : e.isRecordLevel = false) :
    drain Streaming.next? ((false, within) :: rounds) c w = some (.error e) := by
  obtain ⟨⟨item, c'⟩, hnext, heq⟩ :=
    Option.map_eq_some_iff.1 ((Streaming.next?_view within hview).trans hpoll)
  obtain rfl : item = .error e := congrArg Prod.fst heq
  simp only [drain, Bool.false_eq_true, ↓reduceIte, hnext, hard]

theorem drain_end (hview : Streaming.view c = some (.items [] none)) :
    drain Streaming.next? ((false, false) :: rounds) c w = some (.ok w) := by
  have hnext := Option.map_eq_none_iff.1 (Streaming.next?_view false hview)
  simp only [drain, Bool.false_eq_true, ↓reduceIte, hnext]

theorem drain_item {item : Except Error Measurement} {records : List (Except Error Measurement)}
    {failure : Option Error} (hview : Streaming.view c = some (.items (item :: records) failure)) :
    ∃ c' : Streaming.Cursor B, Streaming.view c' = some (.items records failure) ∧
      ∀ rounds w, drain Streaming.next? ((false, false) :: rounds) c w = match item with
        | .ok m => drain Streaming.next? rounds c' (w.taking m)
        | .error e =>
          if e.isRecordLevel then drain Streaming.next? rounds c' w else some (.error e) := by
  obtain ⟨⟨item', c'⟩, hnext, heq⟩ := Option.map_eq_some_iff.1 (Streaming.next?_view false hview)
  obtain rfl : item' = item := congrArg Prod.fst heq
  refine ⟨c', congrArg Prod.snd heq, fun rounds w => ?_⟩
  simp only [drain, Bool.false_eq_true, ↓reduceIte, hnext]
  cases item' <;> rfl

/-- The loop comes to an end, after all items or before. -/
theorem isSome_drain (hview : Streaming.view c = some reading) (hends : reading.EndsHard)
    (h : reading.toList.length < rounds.length) : (drain Streaming.next? rounds c w).isSome := by
  induction rounds generalizing c reading w with
  | nil => exact absurd h (Nat.not_lt_zero _)
  | cons round rounds ih =>
    obtain ⟨before, within⟩ := round
    cases before with
    | true => rfl
    | false =>
      cases reading with
      | failed e => rw [drain_failure hview rfl (hends e rfl)]; rfl
      | items records failure =>
        cases within with
        | true => rw [drain_failure hview rfl rfl]; rfl
        | false =>
          cases records with
          | nil =>
            cases failure with
            | none => rw [drain_end hview]; rfl
            | some e => rw [drain_failure hview rfl (hends e rfl)]; rfl
          | cons item records =>
            obtain ⟨c', hview', hdrain⟩ := drain_item hview
            have hshort : (Reading.items records failure).toList.length < rounds.length := by
              cases failure <;> simpa [Reading.toList] using h
            rw [hdrain]
            cases item with
            | ok m => exact ih hview' hends hshort
            | error e =>
              simp only
              split
              · exact ih hview' hends hshort
              · rfl

/-- The first round in which a look finds the reader cancelled. A reading that fails as it
begins does not look. -/
def cancelledIn (reading : Reading) (rounds : List (Bool × Bool)) : Option Nat :=
  rounds.findIdx? fun (before, within) => before || within && reading.looks

/-- Nothing is left to be taken by who is cancelled after an item. -/
theorem gathered_last (cancelAfter : Option Nat) (failure : Option Error) (w : SessionWindows) :
    gathered (cancelAfter.map (· + 1)) (.items [] failure) w =
      registerAll (failure.toList.map .error) w := by
  rw [gathered_items]
  cases cancelAfter <;> cases failure <;> rfl

/-- Whatever the looks of the loop and of its loader find, what comes out is what comes of the
reading when it is cancelled in the first round in which one of them finds so, or never. -/
theorem drain_eq_gathered {out : Except Error SessionWindows}
    (hview : Streaming.view c = some reading) (hends : reading.EndsHard)
    (h : drain Streaming.next? rounds c w = some out) :
    out = gathered (cancelledIn reading rounds) reading w := by
  induction rounds generalizing c reading w with
  | nil => cases h
  | cons round rounds ih =>
    obtain ⟨before, within⟩ := round
    have hrounds : cancelledIn reading ((before, within) :: rounds) =
        if before || within && reading.looks then some 0
        else (cancelledIn reading rounds).map (· + 1) := List.findIdx?_cons
    cases before with
    | true =>
      obtain rfl := Option.some.inj h
      rw [hrounds]
      rfl
    | false =>
      cases reading with
      | failed e =>
        have hhard : e.isRecordLevel = false := hends e rfl
        obtain rfl := Option.some.inj ((drain_failure hview rfl hhard).symm.trans h)
        have hlater : cancelledIn (.failed e) ((false, within) :: rounds) ≠ some 0 := by
          simp [hrounds, Reading.looks]
        rw [gathered, if_neg hlater]
        simp [Reading.toListUntil, registerAll, hhard]
      | items records failure =>
        cases within with
        | true =>
          obtain rfl := Option.some.inj ((drain_failure hview rfl rfl).symm.trans h)
          rw [hrounds]
          rfl
        | false =>
          simp only [Bool.false_and, Bool.or_false, Bool.false_eq_true, ↓reduceIte] at hrounds
          rw [hrounds]
          cases records with
          | nil =>
            rw [gathered_last]
            cases failure with
            | none => exact (Option.some.inj ((drain_end hview).symm.trans h)).symm
            | some e =>
              have hhard : e.isRecordLevel = false := hends e rfl
              obtain rfl := Option.some.inj ((drain_failure hview rfl hhard).symm.trans h)
              simp [registerAll, hhard]
          | cons item records =>
            obtain ⟨c', hview', hdrain⟩ := drain_item hview
            have hsame : cancelledIn (.items (item :: records) failure) rounds =
                cancelledIn (.items records failure) rounds := rfl
            rw [hdrain] at h
            rw [hsame, gathered_cons]
            cases item with
            | ok m => exact ih hview' hends h
            | error e =>
              simp only at h ⊢
              split at h
              · rename_i hlevel
                rw [if_pos hlevel]
                exact ih hview' hends h
              · rename_i hlevel
                rw [if_neg hlevel]
                exact (Option.some.inj h).symm

end

end SessionWindows

/-! ## What a reading comes to -/

namespace Reading
variable {reading : Reading} {cancelAfter : Option Nat} {i : Nat}

/-- Whoever is cancelled later has had the same items so far. -/
theorem take_toListUntil (h : ∀ n, cancelAfter = some n → i ≤ n) :
    (reading.toListUntil cancelAfter).take i = reading.toList.take i := by
  cases reading with
  | failed e => rfl
  | items records failure =>
    cases cancelAfter with
    | none => rfl
    | some n =>
      have hi : i ≤ n := h n rfl
      rw [toListUntil]
      split
      · have hshort : i ≤ records.length := by omega
        have hall : ((items records failure).toList).take i = records.take i := by
          cases failure with
          | none => rfl
          | some e => exact List.take_append_of_le_length hshort
        rw [hall, List.take_append_of_le_length (by simp; omega), List.take_take, Nat.min_eq_left hi]
      · rfl

/-- Whoever is cancelled behind the last item has had them all. -/
theorem toListUntil_of_late (h : ∀ n, cancelAfter = some n → reading.toList.length < n) :
    reading.toListUntil cancelAfter = reading.toList := by
  cases reading with
  | failed e => rfl
  | items records failure =>
    cases cancelAfter with
    | none => rfl
    | some n =>
      have hn := h n rfl
      have hlength : records.length ≤ (items records failure).toList.length := by
        cases failure <;> simp [toList]
      exact if_neg (by omega)

/-- Whoever is cancelled before the end and before a failure is told so. -/
theorem toListUntil_cancelled (hends : reading.EndsHard) {n : Nat} (hpos : n ≠ 0)
    (hn : n ≤ reading.toList.length) (h : ∀ item ∈ reading.toList.take n, Passable item) :
    reading.toListUntil (some n) = reading.toList.take n ++ [.error .cancelled] := by
  cases reading with
  | failed e =>
    have htake : (failed e).toList.take n = [.error e] := by
      rw [toList, List.take_of_length_le (Nat.pos_of_ne_zero hpos)]
    exact absurd (h (.error e) (htake ▸ List.mem_singleton_self _)) (not_passable (hends e rfl))
  | items records failure =>
    have hshort : n ≤ records.length := by
      by_contra hlong
      cases failure with
      | none => exact hlong hn
      | some e =>
        have hall : (items records (some e)).toList.take n = records ++ [.error e] :=
          List.take_of_length_le (by simp [toList] at hn ⊢; omega)
        exact not_passable (hends e rfl) (h _ (by simp [hall]))
    have htake : (items records failure).toList.take n = records.take n := by
      cases failure with
      | none => rfl
      | some e => exact List.take_append_of_le_length hshort
    rw [toListUntil, if_pos hshort, htake]

end Reading

namespace Engine
variable {window : Nat} {reading : Reading} {cancelAfter : Option Nat}

theorem digest_cancelled (hends : reading.EndsHard) {n : Nat} (hn : n ≤ reading.toList.length)
    (h : ∀ item ∈ reading.toList.take n, Passable item) :
    digest window (some n) reading = .error .cancelled := by
  by_cases hnow : n = 0
  · subst hnow
    exact if_pos rfl
  · rw [digest, if_neg (by simpa using hnow), Reading.toListUntil_cancelled hends hnow hn h,
      SessionWindows.registerAll_append, SessionWindows.registerAll_passable h]
    rfl

theorem digest_failed {i : Nat} {e : Error} (hfailed : reading.toList[i]? = some (.error e))
    (hard : e.isRecordLevel = false) (h : ∀ item ∈ reading.toList.take i, Passable item)
    (hlate : ∀ n, cancelAfter = some n → i < n) :
    digest window cancelAfter reading = .error e := by
  have hnow : cancelAfter ≠ some 0 := fun heq => absurd (hlate 0 heq) (Nat.not_lt_zero i)
  have htake : (reading.toListUntil cancelAfter).take (i + 1) =
      reading.toList.take i ++ [.error e] := by
    rw [Reading.take_toListUntil hlate, List.take_add_one, hfailed]
    rfl
  have hstops : ∀ rest w, SessionWindows.registerAll (.error e :: rest) w = .error e :=
    fun rest w => by rw [SessionWindows.registerAll, hard]; rfl
  rw [digest, if_neg hnow, ← List.take_append_drop (i + 1) (reading.toListUntil cancelAfter), htake,
    List.append_assoc, List.singleton_append, SessionWindows.registerAll_append,
    SessionWindows.registerAll_passable h]
  show Except.map _ (SessionWindows.registerAll _ _) = _
  rw [hstops]
  rfl

theorem digest_complete (h : ∀ item ∈ reading.toList, Passable item)
    (hlate : ∀ n, cancelAfter = some n → reading.toList.length < n) :
    digest window cancelAfter reading = .ok ((SessionWindows.decoded reading.toList).foldl
      SessionWindows.taking (SessionWindows.empty window)).compute := by
  have hnow : cancelAfter ≠ some 0 := fun heq => absurd (hlate 0 heq) (Nat.not_lt_zero _)
  rw [digest, if_neg hnow, Reading.toListUntil_of_late hlate, SessionWindows.registerAll_passable h]
  rfl

theorem map_gathered (window : Nat) (cancelAfter : Option Nat) (reading : Reading) :
    (SessionWindows.gathered cancelAfter reading (SessionWindows.empty window)).map
      SessionWindows.compute = digest window cancelAfter reading := by
  rw [SessionWindows.gathered, digest]
  split <;> rfl

/-! ## Queries -/

/-- What was just kept is found again, if it has room and may stay at all. -/
theorem cached?_keeping {e : Engine} {t : TimedCache} {key : String} {report : Report}
    (ht : e.cache = some t) (hroom : ResultCache.entrySize key report ≤ t.cache.limits.maxTotalSize)
    (hstays : 0 < t.cache.limits.ttl) :
    ((e.asked key).keeping key report).cached? key = some report := by
  have hlimits := ResultCache.limits_get t.cache t.now key
  rw [cached?, keeping, asked, ht]
  exact ResultCache.get_insert (hlimits ▸ hroom) (hlimits ▸ hstays)

section
variable {B W : Type} [Backend B W] [Streaming B W] {e : Engine} {s : Session} {st : Storage B}

/-- A query for a session that is neither resident nor cached asks the cache, reads what is
stored, and keeps the report if there is one. -/
theorem run_metrics_cold (hcold : e.resident.get? s = none) (hmissed : e.cached? s.key = none)
    (cancelAfter : Option Nat) : run (metrics cancelAfter s) (e, st) =
      match (run (Storage.openLoader s) st).1 with
      | .error refusal => (.error refusal, e.asked s.key, st)
      | .ok _ =>
        match digest e.window cancelAfter (st.read s) with
        | .error failure => (.error failure, e.asked s.key, st)
        | .ok report => (.ok report, (e.asked s.key).keeping s.key report, st) := by
  rw [run_metrics_eq, hcold]
  simp only [hmissed]
  rw [Storage.run_replay (Streaming.locate_same s _), Storage.openLoader_eq]
  cases st.lifecycle.shutDown with
  | true => rfl
  | false =>
    simp only [Bool.false_eq_true, ↓reduceIte, Storage.answer]
    cases st.registry.lookup s with
    | error refusal => rfl
    | ok found =>
      simp only
      cases run (Backend.locate s) (st.backend, st.disk) with
      | mk r x =>
        cases r with
        | error refusal => rfl
        | ok u =>
          simp only
          cases digest e.window cancelAfter (st.read s) <;> rfl

omit [Streaming B W] in
/-- Who is let in as a reader is counted until it leaves. -/
theorem inFlight_openLoader (h : (run (Storage.openLoader s) st).1 = .ok ()) :
    (run (Storage.openLoader s) st).2.lifecycle.inFlight = st.lifecycle.inFlight + 1 := by
  rw [Storage.openLoader_eq] at h ⊢
  cases hshut : st.lifecycle.shutDown with
  | true =>
    simp only [hshut, ↓reduceIte] at h
    cases h
  | false =>
    simp only [hshut, Bool.false_eq_true, ↓reduceIte] at h ⊢
    cases hfound : st.registry.lookup s with
    | error refusal =>
      simp only [hfound] at h
      cases h
    | ok found =>
      simp only [hfound] at h ⊢
      cases hlocate : run (Backend.locate s) (st.backend, st.disk) with
      | mk r x =>
        cases r with
        | error refusal =>
          simp only [hlocate] at h
          cases h
        | ok u => rfl

/-- A query for a session that is neither resident nor cached, whatever is stored. Its reader
is counted while it reads, and afterwards the storage, the resident sessions and the
subscriptions are as before. A refusal to open the session is the answer, and nothing is cached
then. If the reader is cancelled before all items were taken and before one of them is a
failure of more than a record, the answer is that it was cancelled; if such a failure comes
first, the answer is this failure; and nothing is cached. Otherwise the answer is the report on
fresh windows to which all measurements were given that decode and that windows accept, in
order; this is what is cached, and it is served as long as it has room and may stay. A loop
that looks before every item, with a loader that looks as well, comes to an end, and to the
answer for the first round in which a look finds it cancelled. -/
theorem cold_replay_all_or_nothing (hcold : e.resident.get? s = none)
    (hmissed : e.cached? s.key = none) (cancelAfter : Option Nat) (st : Storage B) :
    let opened := run (Storage.openLoader s) st
    let items := (st.read s).toList
    let decoded := SessionWindows.decoded items
    let r := run (metrics cancelAfter s) (e, st)
    (opened.1 = .ok () → opened.2.lifecycle.inFlight = st.lifecycle.inFlight + 1) ∧
    r.2.2 = st ∧ r.2.1.resident = e.resident ∧ r.2.1.window = e.window ∧ r.2.1.feed = e.feed ∧
    (∀ refusal, opened.1 = .error refusal → r.1 = .error refusal) ∧
    (opened.1 = .ok () →
      (∀ n, cancelAfter = some n → n ≤ items.length → (∀ item ∈ items.take n, Passable item) →
        r.1 = .error .cancelled) ∧
      (∀ (i : Nat) (failure : Error), items[i]? = some (.error failure) →
        failure.isRecordLevel = false → (∀ item ∈ items.take i, Passable item) →
        (∀ n, cancelAfter = some n → i < n) → r.1 = .error failure) ∧
      ((∀ item ∈ items, Passable item) → (∀ n, cancelAfter = some n → items.length < n) →
        ∃ w, (decoded.filter (Measurement.Unrepeated ·)).foldlM SessionWindows.register
            (SessionWindows.empty e.window) = .ok w ∧
          (∀ m ∈ decoded, ¬ m.Unrepeated → ∀ w : SessionWindows, ∃ refusal,
            w.register m = .error refusal) ∧
          r.1 = .ok w.compute) ∧
      ∀ rounds : List (Bool × Bool),
        let drained := SessionWindows.drain Streaming.next? rounds
          (Streaming.load s (st.backend, st.disk)) (SessionWindows.empty e.window)
        (items.length < rounds.length → drained.isSome) ∧
        ∀ out, drained = some out → out.map SessionWindows.compute =
          (run (metrics (SessionWindows.cancelledIn (st.read s) rounds) s) (e, st)).1) ∧
    (∀ failure, r.1 = .error failure → ∀ entry ∈ r.2.1.entries, entry ∈ e.entries) ∧
    ∀ report, r.1 = .ok report →
      (∀ entry ∈ r.2.1.entries, entry ∈ e.entries ∨ entry.key = s.key ∧ entry.report = report) ∧
      ∀ t, e.cache = some t → ResultCache.entrySize s.key report ≤ t.cache.limits.maxTotalSize →
        0 < t.cache.limits.ttl → r.2.1.cached? s.key = some report := by
  intro opened items decoded r
  have hends : (st.read s).EndsHard := Streaming.endsHard s (st.backend, st.disk)
  have hasked : ∀ entry ∈ (e.asked s.key).entries, entry ∈ e.entries :=
    mem_of_cache rfl fun _ _ => ResultCache.mem_of_get
  have hanswer : opened.1 = .ok () → ∀ cancelAfter,
      (run (metrics cancelAfter s) (e, st)).1 = digest e.window cancelAfter (st.read s) := by
    intro hopened cancelAfter
    have hok : (run (Storage.openLoader s) st).1 = .ok () := hopened
    rw [run_metrics_cold hcold hmissed, hok]
    simp only
    cases digest e.window cancelAfter (st.read s) <;> rfl
  have hr : (∃ failure, r = (.error failure, e.asked s.key, st)) ∨
      ∃ report, r = (.ok report, (e.asked s.key).keeping s.key report, st) := by
    simp only [r, run_metrics_cold hcold hmissed]
    cases (run (Storage.openLoader s) st).1 with
    | error refusal => exact Or.inl ⟨refusal, rfl⟩
    | ok u =>
      cases digest e.window cancelAfter (st.read s) with
      | error failure => exact Or.inl ⟨failure, rfl⟩
      | ok report => exact Or.inr ⟨report, rfl⟩
  have hrefused : ∀ refusal, opened.1 = .error refusal → r.1 = .error refusal := by
    intro refusal hopened
    have herror : (run (Storage.openLoader s) st).1 = .error refusal := hopened
    simp only [r, run_metrics_cold hcold hmissed, herror]
  have hcases : opened.1 = .ok () → r.1 = digest e.window cancelAfter (st.read s) :=
    fun hopened => hanswer hopened cancelAfter
  clear_value r
  refine ⟨inFlight_openLoader, ?_, ?_, ?_, ?_, hrefused, fun hopened => ⟨?_, ?_, ?_, ?_⟩, ?_, ?_⟩
  · rcases hr with ⟨_, rfl⟩ | ⟨_, rfl⟩ <;> rfl
  · rcases hr with ⟨_, rfl⟩ | ⟨_, rfl⟩ <;> rfl
  · rcases hr with ⟨_, rfl⟩ | ⟨_, rfl⟩ <;> rfl
  · rcases hr with ⟨_, rfl⟩ | ⟨_, rfl⟩ <;> rfl
  · rintro n rfl hn hbefore
    exact (hcases hopened).trans (digest_cancelled hends hn hbefore)
  · intro i failure hfailed hard hbefore hlate
    exact (hcases hopened).trans (digest_failed hfailed hard hbefore hlate)
  · intro hall hlate
    exact ⟨_, SessionWindows.foldlM_register decoded _,
      fun m _ hm w => SessionWindows.register_repeated w hm,
      (hcases hopened).trans (digest_complete hall hlate)⟩
  · intro rounds drained
    have hview := Streaming.view_load s (st.backend, st.disk)
    refine ⟨SessionWindows.isSome_drain hview hends, fun out hout => ?_⟩
    rw [SessionWindows.drain_eq_gathered hview hends hout, map_gathered, hanswer hopened]
    rfl
  · intro failure hfailed entry hentry
    rcases hr with ⟨_, rfl⟩ | ⟨_, rfl⟩
    · exact hasked entry hentry
    · cases hfailed
  · intro report hreport
    rcases hr with ⟨_, rfl⟩ | ⟨_, rfl⟩
    · cases hreport
    · cases hreport
      exact ⟨fun entry hentry => (mem_of_keeping hentry).imp_left (hasked entry),
        fun t ht hroom hstays => cached?_keeping ht hroom hstays⟩

end

/-- A file with two measurements and the beginning of a record between them, and a series
database that has lost the block of a sealed series. -/
theorem cold_replay_all_or_nothing_damaged :
    let s : Session := ⟨⟨"cart", "one"⟩, 1⟩
    let registry : Registry :=
      ⟨1, 1, [⟨s, .ofNanos 5000000000, some (.ofNanos 7000000000)⟩], 7000000000⟩
    let e := initial 3 2 (some (TimedCache.empty ⟨1024, 60, 30, 0⟩ 0))
    let early : Measurement := ⟨Timestamp.ofNanos 5000000000, []⟩
    let late : Measurement := ⟨Timestamp.ofNanos 6000000000, []⟩
    let torn := SessionFiles.content [.saved early, .other [123, 34] (by decide), .saved late]
    let files : Storage SessionFiles := ⟨⟨["data"], true⟩,
      ⟨[(["data", "cart", "one", "1.ndjson"], .file 0 torn)], 1, []⟩, registry, Lifecycle.initial⟩
    let labels := SiteSeries.labels s ⟨[⟨"main", "main.c", 1⟩]⟩ .allocBytes
    let series : Storage Database := ⟨⟨["data", "tsdb"], Head.empty, [(labels, 0)], 1, none⟩,
      ⟨[], 0, []⟩, registry, Lifecycle.initial⟩
    e.resident.get? s = none ∧ e.cached? s.key = none ∧
      (run (metrics (some 2) s) (e, files)).1 = .error .cancelled ∧
      (∃ w, [early, late].foldlM SessionWindows.register (SessionWindows.empty 3) = .ok w ∧
        (run (metrics (some 4) s) (e, files)).1 = .ok w.compute) ∧
      (run (metrics none s) (e, series)).1 = .error .io := by
  intro s registry e early late torn files labels series
  have hcold : e.resident.get? s = none := rfl
  have hmissed : e.cached? s.key = none := rfl
  have hitems : (files.read s).toList = [.ok early, .error .malformedRecord, .ok late] := by
    decide +kernel
  have hlost : (series.read s).toList = [.error .io] := by decide +kernel
  have hpass : ∀ item ∈ (files.read s).toList, Passable item := by
    rw [hitems]
    simp [Passable, Error.isRecordLevel, Error.kind]
  have hopened : (run (Storage.openLoader s) files).1 = .ok () := by decide +kernel
  have hselected : (run (Storage.openLoader s) series).1 = .ok () := by decide +kernel
  obtain ⟨_, _, _, _, _, _, hcancelled, _⟩ := cold_replay_all_or_nothing hcold hmissed (some 2) files
  obtain ⟨_, _, _, _, _, _, hwhole, _⟩ := cold_replay_all_or_nothing hcold hmissed (some 4) files
  obtain ⟨_, _, _, _, _, _, hfailed, _⟩ := cold_replay_all_or_nothing hcold hmissed none series
  refine ⟨hcold, hmissed, ?_, ?_, ?_⟩
  · exact (hcancelled hopened).1 2 rfl (by rw [hitems]; decide)
      fun item hitem => hpass item (List.mem_of_mem_take hitem)
  · obtain ⟨w, hw, _, hanswer⟩ := (hwhole hopened).2.2.1 hpass (by rw [hitems]; simp)
    rw [hitems] at hw
    exact ⟨w, hw, hanswer⟩
  · exact (hfailed hselected).2.1 0 .io (by rw [hlost]; rfl) rfl (by simp) nofun

end Engine
end HeapTelemetry
