import HeapTelemetry.Proofs.LiveRuns

/-! Reports that are pushed while measurements come in. Every put that finds a subscription
broadcasts the report after its measurement, once, so that every subscription gets successive
states of its session, and misses none while it keeps up. -/

namespace HeapTelemetry
open Step SessionSeries

/-! ## States of a session -/

/-- The elements of a list that are marked. -/
def marked {α : Type} (xs : List α) (marks : List Bool) : List α :=
  ((xs.zip marks).filter Prod.snd).map Prod.fst

section
variable {α : Type} {xs : List α} {marks : List Bool}

theorem marked_sublist (xs : List α) (marks : List Bool) : (marked xs marks).Sublist xs := by
  unfold marked
  induction xs generalizing marks with
  | nil => simp
  | cons x xs ih =>
    cases marks with
    | nil => simp
    | cons mark marks =>
      cases mark
      · simpa using (ih marks).cons x
      · simpa using ih marks

theorem marked_concat (h : marks.length = xs.length) (x : α) (mark : Bool) :
    marked (xs ++ [x]) (marks ++ [mark]) = marked xs marks ++ if mark then [x] else [] := by
  unfold marked
  rw [List.zip_append h.symm, List.filter_append, List.map_append]
  cases mark <;> rfl

theorem marked_unmarked (h : marks.length = xs.length) (x : α) :
    marked (xs ++ [x]) marks = marked xs marks := by
  have hzip : (xs ++ [x]).zip (marks ++ []) = xs.zip marks ++ [x].zip [] :=
    List.zip_append h.symm
  rw [List.append_nil] at hzip
  simp [marked, hzip]

end

/-- The reports after each of the measurements. -/
def SessionWindows.reports (capacity : Nat) (ms : List Measurement) : List Report :=
  (List.range ms.length).map fun i => (replayed capacity (ms.take (i + 1))).compute

theorem SessionWindows.length_reports (capacity : Nat) (ms : List Measurement) :
    (reports capacity ms).length = ms.length := by simp [reports]

theorem SessionWindows.reports_concat (capacity : Nat) (ms : List Measurement) (m : Measurement) :
    reports capacity (ms ++ [m]) =
      reports capacity ms ++ [(replayed capacity (ms ++ [m])).compute] := by
  have hearlier : ∀ i ∈ List.range ms.length,
      (replayed capacity ((ms ++ [m]).take (i + 1))).compute =
        (replayed capacity (ms.take (i + 1))).compute := by
    intro i hi
    have hlt := List.mem_range.1 hi
    rw [List.take_append_of_le_length (by omega)]
  have hlast : (ms ++ [m]).take (ms.length + 1) = ms ++ [m] :=
    List.take_of_length_le (by simp)
  rw [reports, List.length_append, List.length_singleton, List.range_succ, List.map_append,
    List.map_congr_left hearlier, List.map_singleton, hlast]
  rfl

namespace Stage
open SessionWindows

/-- What is going to be broadcast, from when subscriptions were found. -/
def owed (latest : Report) : Stage → List Report
  | idle | folded => []
  | awaited => [latest]
  | ready report => [report]

/-- What is going to be broadcast if subscriptions are found. -/
def pending (latest : Report) : Stage → List Report
  | idle => []
  | folded | awaited => [latest]
  | ready report => [report]

/-- The measurements whose put has not looked for subscriptions yet. -/
def unseen : Stage → Nat
  | folded => 1
  | idle | awaited | ready _ => 0

/-- The latest of the measurements is at this stage: of the reports after each of them those are
pushed or going to be that were `found` to have subscriptions. -/
structure Fits (capacity : Nat) (ms : List Measurement) (found : List Bool) (pushed : List Report)
    (stage : Stage) : Prop where
  looked : found.length + stage.unseen = ms.length
  pushed : pushed ++ stage.owed (replayed capacity ms).compute = marked (reports capacity ms) found

variable {capacity : Nat} {ms : List Measurement} {found : List Bool} {pushed : List Report}

theorem fits_idle (capacity : Nat) : Fits capacity [] [] [] idle := ⟨rfl, rfl⟩

theorem Fits.fold (h : Fits capacity ms found pushed idle) (m : Measurement) :
    Fits capacity (ms ++ [m]) found pushed folded where
  looked := by simpa [unseen] using h.looked
  pushed := by
    have hlength : found.length = (reports capacity ms).length :=
      (h.looked.trans (length_reports capacity ms).symm)
    rw [reports_concat, marked_unmarked hlength]
    exact h.pushed

theorem Fits.look (h : Fits capacity ms found pushed folded) (mark : Bool) :
    Fits capacity ms (found ++ [mark]) pushed (if mark then awaited else idle) := by
  have hlooked := h.looked
  rcases List.eq_nil_or_concat ms with rfl | ⟨before, m, rfl⟩
  · simp [unseen] at hlooked
  rw [List.concat_eq_append] at h hlooked ⊢
  have hlength : found.length = (reports capacity before).length := by
    rw [length_reports]
    simpa [unseen] using hlooked
  have hpushed := h.pushed
  rw [reports_concat, marked_unmarked hlength] at hpushed
  constructor
  · cases mark <;> simpa [unseen] using hlooked
  · rw [reports_concat, marked_concat hlength, ← hpushed]
    cases mark <;> simp [owed]

theorem Fits.refresh (h : Fits capacity ms found pushed awaited) :
    Fits capacity ms found pushed (.ready (replayed capacity ms).compute) where
  looked := h.looked
  pushed := h.pushed

theorem Fits.push {report : Report} (h : Fits capacity ms found pushed (.ready report)) :
    Fits capacity ms found (pushed ++ [report]) idle where
  looked := h.looked
  pushed := by simpa [owed] using h.pushed

theorem Fits.sublist {stage : Stage} (h : Fits capacity ms found pushed stage) :
    pushed.Sublist (reports capacity ms) := by
  have hall := marked_sublist (reports capacity ms) found
  rw [← h.pushed] at hall
  exact (List.sublist_append_left _ _).trans hall

/-- Of the measurements since `joined`, with what was pending then, these reports were received,
and the others are going to be. -/
def Owes (capacity : Nat) (ms : List Measurement) (base : List Report) (joined : Nat)
    (received : List Report) (stage : Stage) : Prop :=
  joined ≤ ms.length ∧ received ++ stage.pending (replayed capacity ms).compute =
    base ++ (reports capacity ms).drop joined

variable {base received : List Report} {joined : Nat}

theorem Owes.fold (h : Owes capacity ms base joined received idle) (m : Measurement) :
    Owes capacity (ms ++ [m]) base joined received folded := by
  obtain ⟨hjoined, hreceived⟩ := h
  refine ⟨by simp; omega, ?_⟩
  rw [reports_concat, List.drop_append_of_le_length (by rw [length_reports]; exact hjoined),
    ← List.append_assoc, ← hreceived]
  simp [pending]

theorem Owes.push {report : Report} (h : Owes capacity ms base joined received (.ready report)) :
    Owes capacity ms base joined (received ++ [report]) idle :=
  ⟨h.1, by simpa [pending] using h.2⟩

end Stage

namespace LiveRun
variable {B W : Type} [Backend B W] {l l' : LiveRun} {s : Session} {b window : Nat}

/-! ## What is broadcast -/

/-- What was broadcast of every session fits what was accepted of it. -/
def Faithful (window : Nat) (l : LiveRun) : Prop := ∀ s ∈ l.registry.issued,
  Stage.Fits window (acceptedOf s l.accepted) (l.found s) (broadcasts s.key l.log) (l.stage s)

theorem fits_turn
    (hfits : Stage.Fits window (acceptedOf s l.accepted) (l.found s) (broadcasts s.key l.log)
      (l.stage s)) (hturn : Turn window l l' s) :
    Stage.Fits window (acceptedOf s l'.accepted) (l'.found s) (broadcasts s.key l'.log)
      (l'.stage s) := by
  cases hturn with
  | quiet more hstage haccepted hfound hlog hother =>
    rwa [hstage, haccepted, hfound, hlog, broadcasts_append, broadcasts_eq_nil hother,
      List.append_nil]
  | fold m hidle hstage haccepted hfound hlog =>
    rw [hidle] at hfits
    rw [hstage, haccepted, hfound, hlog]
    exact hfits.fold m
  | look hfolded hstage haccepted hfound hlog =>
    rw [hfolded] at hfits
    rw [hstage, haccepted, hfound, hlog]
    exact hfits.look _
  | refresh hawaited hstage haccepted hfound hlog =>
    rw [hawaited] at hfits
    rw [hstage, haccepted, hfound, hlog]
    exact hfits.refresh
  | push report hready hstage haccepted hfound hlog =>
    have hnew : broadcasts s.key [.broadcast s.key report] = [report] := by simp [broadcasts]
    rw [hready] at hfits
    rw [hstage, haccepted, hfound, hlog, broadcasts_append, hnew]
    exact hfits.push

theorem Faithful.happen (h : Faithful window l) (hwired : Wired window b l) (hb : 1 ≤ b)
    (event : Event B) : Faithful window (l.happen event) := by
  intro s hs'
  have hapart : l.Apart s := ((hwired.happen event).apart hs').earlier (grows_happen l event)
  have hturn := turn_happen hwired hb hapart event
  by_cases hs : s ∈ l.registry.issued
  · exact fits_turn (h s hs) hturn
  · -- Nothing is known of a session that was just started.
    obtain ⟨hidle, hnone, hfound⟩ := hwired.known s hs
    have hsilent : broadcasts s.key l.log = [] := broadcasts_eq_nil fun report hlog => by
      obtain ⟨t, ht, hkey⟩ := hwired.issuer s.key report hlog
      exact hs (hapart t ht hkey ▸ ht)
    refine fits_turn ?_ hturn
    rw [hidle, hnone, hfound, hsilent]
    exact Stage.fits_idle window

theorem faithful_runAll (window depth : Nat) (cache : Option TimedCache) (events : List (Event B)) :
    Faithful window ((started window depth cache).runAll events) := by
  induction events using List.reverseRecOn with
  | nil => exact fun s hs => absurd hs List.not_mem_nil
  | append_singleton events event ih =>
    rw [runAll_concat]
    have hwired := (wired_started window depth cache).runAll events
    exact ih.happen hwired (Nat.le_max_right depth 1) event

end LiveRun

/-! ## What is received -/

namespace Feed
variable {α : Type} {b : Nat} {t : Subscription} {log log' : List (Event α)}

/-- What was given out, cancelled and dropped stays so. -/
theorem History.happen_grows (h : History α) (e : Event α) : h.issued ⊆ (h.happen e).issued ∧
    h.cancelled ⊆ (h.happen e).cancelled ∧ h.dropped ⊆ (h.happen e).dropped := by
  cases e with
  | subscribe k => exact ⟨List.subset_append_left _ _, List.Subset.refl _, List.Subset.refl _⟩
  | broadcast k update => exact ⟨List.Subset.refl _, List.Subset.refl _, List.Subset.refl _⟩
  | act t a =>
    rw [History.happen]
    split
    · cases a with
      | tryReceive => exact ⟨List.Subset.refl _, List.Subset.refl _, List.Subset.refl _⟩
      | receive => exact ⟨List.Subset.refl _, List.Subset.refl _, List.Subset.refl _⟩
      | cancel => exact ⟨List.Subset.refl _, List.subset_append_left _ _, List.Subset.refl _⟩
      | drop => exact ⟨List.Subset.refl _, List.Subset.refl _, List.subset_append_left _ _⟩
    · exact ⟨List.Subset.refl _, List.Subset.refl _, List.Subset.refl _⟩

theorem history_grows (b : Nat) (h : log <+: log') :
    (history b log).issued ⊆ (history b log').issued ∧
    (history b log).cancelled ⊆ (history b log').cancelled ∧
    (history b log).dropped ⊆ (history b log').dropped := by
  obtain ⟨more, rfl⟩ := h
  induction more using List.reverseRecOn with
  | nil => simp
  | append_singleton more e ih =>
    obtain ⟨hissued, hcancelled, hdropped⟩ := ih
    obtain ⟨hissued', hcancelled', hdropped'⟩ := (history b (log ++ more)).happen_grows e
    rw [← List.append_assoc, history_concat]
    exact ⟨List.Subset.trans hissued hissued', List.Subset.trans hcancelled hcancelled',
      List.Subset.trans hdropped hdropped'⟩

/-- Nothing was due to a subscription before it was given out. -/
theorem due_subscribe (hb : 1 ≤ b) (log : List (Event α)) (k : String) :
    due b ⟨k, (history b log).feed.lastId + 1⟩ (log ++ [.subscribe k]) = [] := by
  rw [due_concat, List.append_nil, List.eq_nil_iff_forall_not_mem]
  rintro ⟨i, update⟩ hmem
  have hissued := (mem_due_iff.1 hmem).2.2.1
  exact (sound_history hb log).fresh k ((history_grows b (List.take_prefix i log)).1 hissued)

theorem due_append_other {more : List (Event α)}
    (h : ∀ update, Event.broadcast t.session update ∉ more) :
    due b t (log ++ more) = due b t log := by
  induction more using List.reverseRecOn with
  | nil => rw [List.append_nil]
  | append_singleton more e ih =>
    have hmore : ∀ update, Event.broadcast t.session update ∉ more :=
      fun update hm => h update (List.mem_append_left _ hm)
    rw [← List.append_assoc, due_concat, ih hmore]
    cases e with
    | broadcast k update =>
      have hdue : ¬ (history b (log ++ more)).Due b k t := fun hdue =>
        h update (hdue.1 ▸ List.mem_append_right _ (List.mem_singleton_self _))
      simp only [if_neg hdue, List.append_nil]
    | subscribe _ => rw [List.append_nil]
    | act _ _ => rw [List.append_nil]

/-- A subscription that is there, was not cancelled, and had room for every update. -/
structure KeepsUp (b : Nat) (t : Subscription) (log : List (Event α)) : Prop where
  stays : t ∉ (history b log).dropped
  listens : t ∉ (history b log).cancelled
  room : ∀ (i : Nat) (update : α), log[i]? = some (.broadcast t.session update) →
    ((history b (log.take i)).feed.queue t).length < b

theorem KeepsUp.earlier (h : KeepsUp b t log') (hlog : log <+: log') : KeepsUp b t log := by
  obtain ⟨-, hcancelled, hdropped⟩ := history_grows b hlog
  refine ⟨fun hd => h.stays (hdropped hd), fun hc => h.listens (hcancelled hc), ?_⟩
  intro i update hi
  obtain ⟨more, rfl⟩ := hlog
  have hlt : i < log.length := (List.getElem?_eq_some_iff.1 hi).1
  have hroom := h.room i update (by rwa [List.getElem?_append_left hlt])
  rwa [List.take_append_of_le_length hlt.le] at hroom

theorem KeepsUp.due {update : α} (h : KeepsUp b t (log ++ [.broadcast t.session update]))
    (ht : t ∈ (history b log).issued) : (history b log).Due b t.session t := by
  have hearlier := h.earlier (List.prefix_append log _)
  have hroom := h.room log.length update (by simp)
  rw [List.take_left'] at hroom
  · exact ⟨rfl, ht, hearlier.stays, hearlier.listens, hroom⟩
  · rfl

end Feed

namespace LiveRun
variable {B W : Type} [Backend B W] {l l' : LiveRun} {s : Session} {t : Subscription}
  {b window : Nat}

theorem due_sublist_broadcasts (b : Nat) (t : Subscription) (log : List (Feed.Event Report)) :
    ((Feed.due b t log).map Prod.snd).Sublist (broadcasts t.session log) := by
  induction log using List.reverseRecOn with
  | nil => exact List.Sublist.refl _
  | append_singleton log e ih =>
    rw [Feed.due_concat, broadcasts_append, List.map_append]
    refine ih.append ?_
    cases e with
    | broadcast k report =>
      by_cases hdue : (Feed.history b log).Due b k t
      · simp [hdue, broadcasts, hdue.1]
      · simp [hdue]
    | subscribe _ => exact List.Sublist.refl _
    | act _ _ => exact List.Sublist.refl _

/-- What a subscription that keeps up is owed, it gets or is going to get. -/
theorem owes_turn {base : List Report} {joined : Nat} (hturn : Turn window l l' s)
    (hlog : l.subscribers = Feed.history b l.log) (hsession : t.session = s.key)
    (ht : t ∈ l.subscribers.issued) (hkeeps : Feed.KeepsUp b t l'.log)
    (h : Stage.Owes window (acceptedOf s l.accepted) base joined
      ((Feed.due b t l.log).map Prod.snd) (l.stage s)) :
    Stage.Owes window (acceptedOf s l'.accepted) base joined
      ((Feed.due b t l'.log).map Prod.snd) (l'.stage s) := by
  cases hturn with
  | quiet more hstage haccepted hfound hmore hother =>
    rw [← hsession] at hother
    rwa [hstage, haccepted, hmore, Feed.due_append_other hother]
  | fold m hidle hstage haccepted hfound hsame =>
    rw [hidle] at h
    rw [hstage, haccepted, hsame]
    exact h.fold m
  | look hfolded hstage haccepted hfound hsame =>
    have hregistered : l.Registered s := by
      rw [hsame] at hkeeps
      exact ⟨t, ht, hlog ▸ hkeeps.stays, hsession⟩
    rw [hfolded] at h
    rw [hstage, haccepted, hsame, if_pos (decide_eq_true hregistered)]
    exact h
  | refresh hawaited hstage haccepted hfound hsame =>
    rw [hawaited] at h
    rw [hstage, haccepted, hsame]
    exact h
  | push report hready hstage haccepted hfound hmore =>
    rw [hready] at h
    rw [hmore, ← hsession] at hkeeps
    have hdue := hkeeps.due (hlog ▸ ht)
    rw [hstage, haccepted, hmore, ← hsession, Feed.due_concat]
    simp only [if_pos hdue, List.map_append, List.map_singleton]
    exact h.push

theorem owes_runAll {joined : LiveRun} (h : Wired window b joined) (hb : 1 ≤ b) (s : Session)
    (after : List (Event B)) :
    let t := (joined.engine.feed.subscribe s.key).1
    let l := (joined.happen (.subscribe s : Event B)).runAll after
    l.Apart s → Feed.KeepsUp b t l.log →
      Stage.Owes window (acceptedOf s l.accepted)
        ((joined.stage s).pending
          (SessionWindows.replayed window (acceptedOf s joined.accepted)).compute)
        (acceptedOf s joined.accepted).length ((Feed.due b t l.log).map Prod.snd) (l.stage s) := by
  have hjoined : Wired window b (joined.happen (.subscribe s : Event B)) := h.happen _
  induction after using List.reverseRecOn with
  | nil =>
    intro t l _ _
    have ht : t = ⟨s.key, (Feed.history b joined.log).feed.lastId + 1⟩ := by
      rw [← h.subscribers, ← h.feed]
      rfl
    have hdue : Feed.due b t l.log = [] := ht ▸ Feed.due_subscribe hb joined.log s.key
    have hnone : (SessionWindows.reports window (acceptedOf s joined.accepted)).drop
        (acceptedOf s joined.accepted).length = [] :=
      List.drop_of_length_le (SessionWindows.length_reports _ _).le
    rw [hdue]
    refine ⟨le_refl _, ?_⟩
    show [] ++ _ = _ ++ (SessionWindows.reports window (acceptedOf s joined.accepted)).drop _
    rw [hnone, List.append_nil]
    rfl
  | append_singleton after event ih =>
    simp only [runAll_concat] at ih ⊢
    intro hapart hkeeps
    have hgrows := grows_happen ((joined.happen (.subscribe s : Event B)).runAll after) event
    have hearlier := hapart.earlier hgrows
    have hwired := hjoined.runAll after
    refine owes_turn (turn_happen hwired hb hearlier event) hwired.subscribers rfl ?_ hkeeps
      (ih hearlier (hkeeps.earlier hgrows.log))
    have hissued : (joined.engine.feed.subscribe s.key).1 ∈
        (joined.happen (.subscribe s : Event B)).subscribers.issued := by
      show _ ∈ joined.subscribers.issued ++ [(joined.subscribers.feed.subscribe s.key).1]
      rw [h.feed]
      simp
    have hlog := (grows_runAll (joined.happen (.subscribe s : Event B)) after).log
    rw [hjoined.subscribers] at hissued
    rw [hwired.subscribers]
    exact (Feed.history_grows b hlog).1 hissued

/-- For every run of an engine whose sessions come from one registry, are never forgotten and
take one measurement at a time, with anything between the parts of a put: what the feed gave out
and took is told by the log, and updates are broadcast only of sessions that were started. A put
that is done at once is the engine's, and a refused one leaves everything but the engine as it
was. Of the reports after each of the measurements of a session, those were broadcast, or are
going to be, that found a subscription, each once and in order; every subscription gets those
that were due to it, which are successive among them; and one that is neither cancelled nor
dropped and always has room gets every one since it was made, together with the one that was
under way then. -/
theorem live_pushes_are_successive_states (window depth : Nat) (cache : Option TimedCache)
    (events : List (Event B)) :
    let b := max depth 1
    let l := (started window depth cache).runAll events
    l.subscribers = Feed.history b l.log ∧ l.engine.feed = l.subscribers.feed ∧
    (∀ k report, .broadcast k report ∈ l.log → ∃ s ∈ l.registry.issued, s.key = k) ∧
    ∀ s ∈ l.registry.issued,
      let ms := acceptedOf s l.accepted
      let latest := (SessionWindows.replayed window ms).compute
      let states := SessionWindows.reports window ms
      (l.stage s = .idle → ∀ m,
        (l.put s m).engine = (run (Engine.put s m) l.engine).2 ∧ (l.put s m).stage s = .idle ∧
        ∀ refusal, (run (Engine.put s m) l.engine).1 = .error refusal →
          l.measure s m = { l with engine := (run (Engine.put s m) l.engine).2 }) ∧
      (l.found s).length + (l.stage s).unseen = ms.length ∧
      broadcasts s.key l.log ++ (l.stage s).owed latest = marked states (l.found s) ∧
      (∀ t ∈ l.subscribers.issued, t.session = s.key →
        let due := (Feed.due b t l.log).map Prod.snd
        due.Sublist states ∧ l.subscribers.takenBy t <+: due ∧
          (t ∉ l.subscribers.dropped →
            l.subscribers.takenBy t ++ l.subscribers.feed.queue t = due)) ∧
      ∀ before after, events = before ++ .subscribe s :: after →
        let joined := (started window depth cache).runAll before
        let t := (joined.engine.feed.subscribe s.key).1
        let earlier := acceptedOf s joined.accepted
        Feed.KeepsUp b t l.log →
          l.subscribers.takenBy t ++ l.subscribers.feed.queue t ++ (l.stage s).pending latest =
            (joined.stage s).pending (SessionWindows.replayed window earlier).compute ++
              states.drop earlier.length := by
  intro b l
  have hb : 1 ≤ b := Nat.le_max_right depth 1
  have hwired : Wired window b l := (wired_started window depth cache).runAll events
  refine ⟨hwired.subscribers, hwired.feed, hwired.issuer, fun s hs => ?_⟩
  have hfits := faithful_runAll window depth cache events s hs
  have hflows : ∀ t, l.subscribers.Flows t ((Feed.due b t l.log).map Prod.snd) := by
    intro t
    rw [hwired.subscribers]
    exact Feed.flows_history hb l.log t
  refine ⟨fun hidle m => ?_, hfits.looked, hfits.pushed, fun t ht hsession => ?_, ?_⟩
  · obtain ⟨hengine, hdone⟩ := put_eq hs hidle m
    exact ⟨hengine, hdone, fun refusal => measure_refused hs hidle⟩
  · have hdue := due_sublist_broadcasts b t l.log
    rw [hsession] at hdue
    exact ⟨hdue.trans hfits.sublist, (hflows t).taken, fun hd => ((hflows t).waiting hd).symm⟩
  · intro before after hsplit joined t earlier hkeeps
    have hjoined : Wired window b joined := (wired_started window depth cache).runAll before
    have hrun : l = (joined.happen (.subscribe s : Event B)).runAll after := by
      show (started window depth cache).runAll events = _
      rw [hsplit, runAll, List.foldl_append]
      rfl
    have howes := owes_runAll hjoined hb s after
    rw [← hrun] at howes
    have hdue := (howes (hwired.apart hs) hkeeps).2
    rwa [(hflows t).waiting (hwired.subscribers ▸ hkeeps.stays)] at hdue

def grown (seconds allocations : Int64) : Measurement :=
  ⟨Timestamp.ofNanos (seconds * 1000000000),
    [⟨⟨[⟨"grow", "heap.c", 7⟩]⟩, ⟨allocations, 64 * allocations, 0, 0⟩⟩]⟩

/-- A subscription is made while a put is under way. A query comes between the parts of the
next put. -/
def joinedMidway : List (Event SessionFiles) :=
  let s : Session := ⟨⟨"cart", "one"⟩, 1⟩
  [.start ⟨"cart", "one"⟩, .measure s (grown 5 2), .subscribe s, .proceed s, .proceed s, .proceed s,
    .act ⟨s.key, 1⟩ .tryReceive, .measure s (grown 6 3), .proceed s,
    .query none s ⟨⟨["data"], false⟩, Disk.empty, Registry.empty, Lifecycle.initial⟩, .proceed s,
    .proceed s]

theorem live_pushes_are_successive_states_midway :
    let s : Session := ⟨⟨"cart", "one"⟩, 1⟩
    let t : Subscription := ⟨s.key, 1⟩
    let twice : Measurement :=
      ⟨Timestamp.ofNanos 7000000000, (grown 7 4).locations ++ (grown 7 4).locations⟩
    let l := (started 3 2 none).runAll joinedMidway
    s ∈ l.registry.issued ∧ Feed.KeepsUp 2 t l.log ∧ l.stage s = .idle ∧
      (∃ refusal, (run (Engine.put s twice) l.engine).1 = .error refusal) ∧
      l.measure s twice = { l with engine := (run (Engine.put s twice) l.engine).2 } ∧
      l.subscribers.takenBy t ++ l.subscribers.feed.queue t =
        SessionWindows.reports 3 [grown 5 2, grown 6 3] := by
  intro s t twice l
  have hs : s ∈ l.registry.issued := by decide +kernel
  have hidle : l.stage s = .idle := by decide +kernel
  have haccepted : acceptedOf s l.accepted = [grown 5 2, grown 6 3] := by decide +kernel
  have hroom : ∀ i ∈ List.range l.log.length,
      ((Feed.history 2 (l.log.take i)).feed.queue t).length < 2 := by decide +kernel
  have hkeeps : Feed.KeepsUp 2 t l.log :=
    ⟨by decide +kernel, by decide +kernel, fun i update hi =>
      hroom i (List.mem_range.2 (List.getElem?_eq_some_iff.1 hi).1)⟩
  have hrepeated : ¬ twice.Unrepeated := by decide +kernel
  obtain ⟨refusal, hregister⟩ := SessionWindows.register_repeated (l.engine.windows s) hrepeated
  have hanswer : (run (Engine.put s twice) l.engine).1 = .error refusal := by
    rw [Engine.put_answer, hregister]
    rfl
  obtain ⟨_, _, _, hall⟩ := live_pushes_are_successive_states 3 2 none joinedMidway
  obtain ⟨hput, _, _, _, hjoined⟩ := hall s hs
  obtain ⟨_, _, hrefused⟩ := hput hidle twice
  have hpushed := hjoined (joinedMidway.take 2) (joinedMidway.drop 3) rfl hkeeps
  have hunderway : ((started 3 2 none).runAll (joinedMidway.take 2)).stage s = .folded := by
    decide +kernel
  have hearlier : acceptedOf s ((started 3 2 none).runAll (joinedMidway.take 2)).accepted =
      [grown 5 2] := by decide +kernel
  rw [hidle, haccepted, hunderway, hearlier, Stage.pending, List.append_nil] at hpushed
  exact ⟨hs, hkeeps, hidle, ⟨refusal, hanswer⟩, hrefused refusal hanswer, hpushed⟩

end LiveRun
end HeapTelemetry
