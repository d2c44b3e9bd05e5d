import HeapTelemetry.Proofs.Series.OpenDatabase
import HeapTelemetry.Proofs.Storage.DamagedFiles
import HeapTelemetry.Proofs.Storage.Trails

/-! The items of a stored session as a loader gives them out, one at a time, to somebody who
may be cancelled between any two. On both backends they are those of the reading, and what
ends a reading is never the fault of a single record. -/

namespace HeapTelemetry
open Step

/-! ## Readings -/

namespace Reading

/-- The next item for somebody who is cancelled by now or not, and what is left behind it if
the reading goes on. A reading that fails as it begins does not look. -/
def poll (cancelled : Bool) : Reading → Option (Except Error Measurement × Option Reading)
  | failed e => some (.error e, none)
  | items records failure =>
    if cancelled then some (.error .cancelled, none)
    else match records, failure with
      | item :: records, failure => some (item, some (items records failure))
      | [], some e => some (.error e, none)
      | [], none => none

/-- Whether the reading looks if it is cancelled before it fails. -/
def looks : Reading → Bool
  | failed _ => false
  | items .. => true

/-- What ends the reading before its time. -/
def failure? : Reading → Option Error
  | failed e => some e
  | items _ failure => failure

/-- The reading is not ended by what a replay would skip. -/
def EndsHard (reading : Reading) : Prop :=
  ∀ e, reading.failure? = some e → e.isRecordLevel = false

end Reading

/-- Loaders of a backend. `next?` gives the next item and where the loader stands then, for
somebody who is cancelled by now or not; `view` is what is left there, if it goes on. -/
class Streaming (B : Type) (W : outParam Type) [Backend B W] where
  Cursor : Type
  load : Session → B × Disk → Cursor
  next? : Bool → Cursor → Option (Except Error Measurement × Cursor)
  view : Cursor → Option Reading
  view_load : ∀ s (x : B × Disk), view (load s x) = some (Backend.read s x)
  next?_view : ∀ cancelled {c reading}, view c = some reading →
    (next? cancelled c).map (Prod.map id view) = reading.poll cancelled
  endsHard : ∀ s (x : B × Disk), (Backend.read s x).EndsHard
  locate_same : ∀ s (x : B × Disk), (run (Backend.locate s) x).2 = x

/-! ## Files -/

namespace SessionFiles

/-- A loader opens the file when it is asked for the first item. The device has these answers
to opening it and to the reads. -/
inductive Cursor where
  | unopened (found : Option Node) (answers : List Verdict)
  | opened (reader : Reader)

namespace Cursor

/-- Nothing comes after a failure. -/
def ended : Cursor := opened ⟨[], [], true⟩

def next? (cancelled : Bool) : Cursor → Option (Except Error Measurement × Cursor)
  | unopened none _ => some (.error .io, ended)
  | unopened (some node) answers =>
    if answers.head? = some .refuse then some (.error .io, ended)
    else match node with
      | .directory => some (.error (if cancelled then .cancelled else .io), ended)
      | .file _ content =>
        (Reader.next? cancelled ⟨content, answers.tail, false⟩).map (Prod.map id opened)
  | opened reader => (reader.next? cancelled).map (Prod.map id opened)

def view : Cursor → Option Reading
  | unopened none _ => some (.failed .io)
  | unopened (some node) answers =>
    if answers.head? = some .refuse then some (.failed .io)
    else match node with
      | .directory => some (.items [] (some .io))
      | .file _ content => some (Reader.left ⟨content, answers.tail, false⟩)
  | opened reader => if reader.done then none else some reader.left

/-- A reader of lines gives out what the lines decode to, until a read is refused. -/
theorem view_reader (cancelled : Bool) (unread : Bytes) (answers : List Verdict) :
    ((Reader.next? cancelled ⟨unread, answers, false⟩).map (Prod.map id opened)).map
      (Prod.map id view) = (Reader.left ⟨unread, answers, false⟩).poll cancelled := by
  cases cancelled with
  | true => rfl
  | false =>
    have hnotDone : ∀ r : Reader, r.done = false → view (opened r) = some r.left := fun r hr => by
      rw [view, if_neg (by simp [hr])]
    show ((nextRecord? unread answers).map _).map _ = _
    obtain ⟨hnext, hleft⟩ | ⟨r, hnext, hdone, hleft⟩ | ⟨item, r, hnext, hdone, items, failure,
      hrest, hleft⟩ := nextRecord?_eq unread answers
    · rw [hnext, hleft]
      rfl
    · rw [hnext, hleft]
      exact congrArg (fun left => some (Except.error Error.io, left))
        (show view (opened r) = none by rw [view, if_pos hdone])
    · rw [hnext, hleft]
      exact congrArg (fun left => some (item, left)) ((hnotDone r hdone).trans (congrArg some hrest))

theorem next?_view (cancelled : Bool) {c : Cursor} {reading : Reading}
    (h : view c = some reading) :
    (next? cancelled c).map (Prod.map id view) = reading.poll cancelled := by
  cases c with
  | unopened found answers =>
    cases found with
    | none =>
      cases h
      rfl
    | some node =>
      by_cases hrefused : answers.head? = some .refuse
      · simp only [view, if_pos hrefused] at h
        cases h
        simp only [next?, if_pos hrefused]
        rfl
      · simp only [view, if_neg hrefused] at h
        simp only [next?, if_neg hrefused]
        cases node with
        | directory =>
          cases h
          cases cancelled <;> rfl
        | file number content =>
          cases h
          exact view_reader cancelled content answers.tail
  | opened reader =>
    obtain ⟨unread, answers, done⟩ := reader
    cases done with
    | true => cases h
    | false =>
      cases h
      exact view_reader cancelled unread answers

end Cursor

theorem failure?_read {s : Session} {x : SessionFiles × Disk} {e : Error}
    (h : (read s x).failure? = some e) : e = .io := by
  obtain ⟨f, d⟩ := x
  rw [read] at h
  cases hfound : d.find? (f.path s) with
  | none =>
    rw [hfound] at h
    cases h
    rfl
  | some node =>
    rw [hfound] at h
    simp only at h
    split at h
    · cases h
      rfl
    · cases node with
      | directory =>
        cases h
        rfl
      | file number content =>
        obtain hall | ⟨n, hcut⟩ := interrupted_left ⟨content, d.verdicts.tail, false⟩
        · have hnone : some e = none := h.symm.trans (congrArg Reading.failure? hall)
          cases hnone
        · have hio : some e = some Error.io := h.symm.trans (congrArg Reading.failure? hcut)
          exact Option.some.inj hio

instance : Streaming SessionFiles Handle where
  Cursor := Cursor
  load s x := .unopened (x.2.find? (x.1.path s)) x.2.verdicts
  next? := Cursor.next?
  view := Cursor.view
  view_load s x := by
    obtain ⟨f, d⟩ := x
    show _ = some (read s (f, d))
    simp only [Cursor.view, read]
    cases d.find? (f.path s) with
    | none => rfl
    | some node =>
      simp only
      split
      · rfl
      · cases node <;> rfl
  next?_view := Cursor.next?_view
  endsHard s x e he := failure?_read he ▸ rfl
  locate_same := run_locate

end SessionFiles

/-! ## Failures of more than a record -/

/-- If this fails, it is not the fault of a single record. -/
def Hard {α : Type} (r : Except Error α) : Prop := ∀ e, r = .error e → e.isRecordLevel = false

section
variable {α β : Type}

theorem hard_ok (a : α) : Hard (.ok a) := nofun

theorem hard_error {e : Error} (h : e.isRecordLevel = false) : Hard (.error e : Except Error α) :=
  fun _ he => Except.error.inj he ▸ h

theorem Hard.bind {x : Except Error α} {f : α → Except Error β} (hx : Hard x)
    (hf : ∀ a, Hard (f a)) : Hard (x >>= f) := by
  cases x with
  | error e => exact hard_error (hx e rfl)
  | ok a => exact hf a

theorem Hard.mapM {f : α → Except Error β} (hf : ∀ a, Hard (f a)) : ∀ l : List α, Hard (l.mapM f)
  | [] => hard_ok _
  | a :: l => by
    rw [List.mapM_cons]
    exact (hf a).bind fun _ => (Hard.mapM hf l).bind fun _ => hard_ok _

theorem Hard.foldlM {f : β → α → Except Error β} (hf : ∀ b a, Hard (f b a)) :
    ∀ (l : List α) (b : β), Hard (l.foldlM f b)
  | [], _ => hard_ok _
  | a :: l, b => by
    rw [List.foldlM_cons]
    exact (hf b a).bind fun b => Hard.foldlM hf l b

end

/-! ## Series -/

/-- A step that fails, if at all, in a way that a replay would not skip. -/
abbrev Step.FailsHard {σ α : Type} (x : Step σ α) : Prop :=
  Upholds (fun _ => True) (fun e => e.isRecordLevel = false) x

namespace Block

theorem hard_frame {α : Type} (reader : Packed.Reader α) (b : Bytes) : Hard (frame reader b) := by
  rw [frame]
  split
  · exact hard_error rfl
  · exact hard_error rfl
  · split
    · exact hard_ok _
    · exact hard_error rfl

theorem hard_series (b : Bytes) : Hard (series b) :=
  (hard_frame _ _).bind fun ls => (hard_frame _ _).bind fun ss => by
    show Hard (if ls.1.length = ss.1.length then _ else _)
    split
    · exact hard_ok _
    · exact hard_error rfl

end Block

theorem Database.failsHard_select (ms : List Matcher) : FailsHard (Database.select ms) := by
  have hsealed : FailsHard (selectSealed ms) := upholds_get.bind fun x => by
    refine (Upholds.mapM (fun id => ?_) _).bind fun _ => upholds_pure _
    have hread : FailsHard (onDisk (Disk.read (Block.path (blocksDir x.1.dir) id))) :=
      ((Disk.upholds_read _).mono fun _ he => he ▸ rfl).on (fun _ _ => trivial)
        fun _ _ _ _ => trivial
    exact hread.bind fun bytes => (upholds_ofExcept (Block.hard_series bytes)).bind fun _ =>
      upholds_pure _
  exact upholds_get.bind fun _ => hsealed.bind fun _ => upholds_pure _

theorem SiteSeries.hard_callStack (l : Labels) : Hard (callStack l) := by
  rw [callStack]
  split
  · exact hard_error rfl
  · split
    · exact hard_ok _
    · exact hard_error rfl

theorem SiteSeries.hard_metric (l : Labels) : Hard (metric l) := by
  rw [metric]
  split
  · exact hard_ok _
  · exact hard_error rfl

namespace SiteGroup

theorem hard_place (id : String) (m : Metric) (s : Series) (groups : List SiteGroup) :
    Hard (place id m s groups) := by
  have hnew : ∀ groups, Hard (do
      return (⟨id, ← SiteSeries.callStack s.labels, [(m, s.samples)]⟩ : SiteGroup) :: groups) :=
    fun groups => (SiteSeries.hard_callStack _).bind fun _ => hard_ok _
  induction groups with
  | nil => exact hnew []
  | cons g rest ih =>
    rw [place]
    split
    · exact hnew _
    · split
      · split
        · exact hard_error rfl
        · exact hard_ok _
      · exact ih.bind fun _ => hard_ok _

theorem hard_insert (groups : List SiteGroup) (s : Series) : Hard (insert groups s) := by
  rw [insert]
  split
  · exact hard_error rfl
  · exact (SiteSeries.hard_metric _).bind fun _ => hard_place _ _ _ _

end SiteGroup

namespace SiteHistory

theorem hard_ofSeries (series : List Series) : Hard (ofSeries series) :=
  (Hard.foldlM SiteGroup.hard_insert _ _).bind <| Hard.mapM fun g => by
    rw [ofGroup]
    split
    · exact hard_ok _
    · exact hard_error rfl

theorem hard_current (h : SiteHistory) : Hard h.current := by
  rw [current]
  split
  · exact hard_ok _
  · split
    · exact hard_error rfl
    · split
      · exact hard_error rfl
      · exact hard_ok _

theorem next_error {sites : List SiteHistory} {e : Error} {rest : List SiteHistory}
    (h : next sites = some (.error e, rest)) : e.isRecordLevel = false := by
  have hheads : Hard (sites.mapM fun s => do return (s, ← s.current)) :=
    Hard.mapM (fun s => (hard_current s).bind fun _ => hard_ok _) sites
  cases hfound : sites.mapM (fun s => do return (s, ← s.current) : SiteHistory → Except Error _) with
  | error e' =>
    rw [next, hfound] at h
    obtain ⟨he, _⟩ := Prod.mk.inj (Option.some.inj h)
    exact Except.error.inj he ▸ hheads e' hfound
  | ok heads =>
    rw [next_eq (heads_eq_ok.1 hfound).1] at h
    obtain ⟨_, _, heq⟩ := Option.map_eq_some_iff.1 h
    cases heq

/-- Fuel that is enough gives all there is. -/
theorem measurements_eq {fuel fuel' : Nat} {sites : List SiteHistory} (h : size sites < fuel)
    (h' : size sites < fuel') : measurements fuel sites = measurements fuel' sites := by
  induction fuel generalizing fuel' sites with
  | zero => omega
  | succ fuel ih =>
    cases fuel' with
    | zero => omega
    | succ fuel' =>
      rw [measurements, measurements]
      cases hnext : next sites with
      | none => rfl
      | some x =>
        obtain ⟨i, rest⟩ := x
        cases i with
        | error e => rfl
        | ok m =>
          have hlt := size_next_lt hnext
          simp only [ih (show size rest < fuel by omega) (show size rest < fuel' by omega)]

/-- All that is left of the histories. -/
def left (sites : List SiteHistory) : Reading :=
  let (ms, failure) := measurements (size sites + 1) sites
  .items (ms.map .ok) failure

theorem poll_left (sites : List SiteHistory) : (left sites).poll false =
    (next sites).map fun (item, rest) => (item, match item with
      | .ok _ => some (left rest)
      | .error _ => none) := by
  rw [left, measurements]
  cases hnext : next sites with
  | none => rfl
  | some x =>
    obtain ⟨i, rest⟩ := x
    cases i with
    | error e => rfl
    | ok m =>
      have hrest : measurements (size sites) rest = measurements (size rest + 1) rest :=
        measurements_eq (size_next_lt hnext) (Nat.lt_succ_self _)
      simp only [hrest]
      rfl

/-- Histories end hard. -/
theorem endsHard_measurements {fuel : Nat} {sites : List SiteHistory} {e : Error}
    (h : (measurements fuel sites).2 = some e) : e.isRecordLevel = false := by
  induction fuel generalizing sites with
  | zero => cases h
  | succ fuel ih =>
    rw [measurements] at h
    cases hnext : next sites with
    | none =>
      rw [hnext] at h
      cases h
    | some x =>
      obtain ⟨i, rest⟩ := x
      rw [hnext] at h
      cases i with
      | error e' =>
        obtain rfl := Option.some.inj h
        exact next_error hnext
      | ok m => exact ih h

end SiteHistory

namespace SessionSeries

/-- A loader selects the series when it is asked for the first item. -/
inductive Cursor where
  | unopened (selected : Except Error (List Series))
  | opened (sites : List SiteHistory) (done : Bool)

namespace Cursor

/-- The next item of call-sites. A failure is the last one. -/
def nextOf (cancelled : Bool) (sites : List SiteHistory) :
    Option (Except Error Measurement × Cursor) :=
  if cancelled then some (.error .cancelled, opened sites true)
  else (SiteHistory.next sites).map fun (item, rest) => (item, opened rest (item.toOption.isNone))

def next? (cancelled : Bool) : Cursor → Option (Except Error Measurement × Cursor)
  | unopened selected =>
    match selected.bind SiteHistory.ofSeries with
    | .error e => some (.error e, opened [] true)
    | .ok sites => nextOf cancelled sites
  | opened sites done => if done then none else nextOf cancelled sites

def view : Cursor → Option Reading
  | unopened selected =>
    match selected.bind SiteHistory.ofSeries with
    | .error e => some (.failed e)
    | .ok sites => some (SiteHistory.left sites)
  | opened sites done => if done then none else some (SiteHistory.left sites)

theorem view_nextOf (cancelled : Bool) (sites : List SiteHistory) :
    (nextOf cancelled sites).map (Prod.map id view) = (SiteHistory.left sites).poll cancelled := by
  cases cancelled with
  | true => rfl
  | false =>
    rw [SiteHistory.poll_left]
    show ((SiteHistory.next sites).map _).map _ = _
    cases SiteHistory.next sites with
    | none => rfl
    | some x =>
      obtain ⟨i, rest⟩ := x
      cases i <;> rfl

theorem next?_view (cancelled : Bool) {c : Cursor} {reading : Reading}
    (h : view c = some reading) :
    (next? cancelled c).map (Prod.map id view) = reading.poll cancelled := by
  cases c with
  | unopened selected =>
    rw [view] at h
    rw [next?]
    cases hsites : selected.bind SiteHistory.ofSeries with
    | error e =>
      rw [hsites] at h
      cases h
      rfl
    | ok sites =>
      rw [hsites] at h
      cases h
      exact view_nextOf cancelled sites
  | opened sites done =>
    cases done with
    | true => cases h
    | false =>
      cases h
      exact view_nextOf cancelled sites

end Cursor

theorem read_eq (s : Session) (x : Database × Disk) : read s x =
    match (run (Database.select [SiteSeries.sessionMatcher s]) x).1.bind SiteHistory.ofSeries with
    | .error e => .failed e
    | .ok sites => SiteHistory.left sites := by
  rw [read]
  cases (run (Database.select [SiteSeries.sessionMatcher s]) x).1 with
  | error e => rfl
  | ok series =>
    show SiteHistory.reading series = match SiteHistory.ofSeries series with
      | .error e => .failed e
      | .ok sites => SiteHistory.left sites
    rw [SiteHistory.reading]
    rfl

instance : Streaming Database Unit where
  Cursor := Cursor
  load s x := .unopened (run (Database.select [SiteSeries.sessionMatcher s]) x).1
  next? := Cursor.next?
  view := Cursor.view
  view_load s x := by
    show _ = some (read s x)
    rw [read_eq, Cursor.view]
    cases (run (Database.select [SiteSeries.sessionMatcher s]) x).1.bind SiteHistory.ofSeries <;> rfl
  next?_view := Cursor.next?_view
  endsHard s x e he := by
    have hread : (read s x).failure? = some e := he
    have hfound : Hard ((run (Database.select [SiteSeries.sessionMatcher s]) x).1.bind
        SiteHistory.ofSeries) :=
      Hard.bind (Database.failsHard_select _ x trivial).2 SiteHistory.hard_ofSeries
    rw [read_eq] at hread
    cases hsites : (run (Database.select [SiteSeries.sessionMatcher s]) x).1.bind
        SiteHistory.ofSeries with
    | error e' =>
      rw [hsites] at hread
      exact hfound e (hsites.trans (congrArg Except.error (Option.some.inj hread)))
    | ok sites =>
      rw [hsites] at hread
      have hleft : ((SiteHistory.measurements (SiteHistory.size sites + 1) sites).2 = some e) := hread
      exact SiteHistory.endsHard_measurements hleft
  locate_same _ _ := rfl

end SessionSeries
end HeapTelemetry
