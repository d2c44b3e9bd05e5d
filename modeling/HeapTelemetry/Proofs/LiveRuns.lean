import HeapTelemetry.Proofs.Delivery
import HeapTelemetry.Proofs.FileReplay
import HeapTelemetry.Proofs.Residents

/-! Runs of an engine in which puts overlap. A put folds its measurement in, looks for
subscriptions, computes the report and broadcasts it, and anything else may happen between any
two of these; but a session takes its next measurement only when the put before is done. -/

namespace HeapTelemetry
open Step SessionSeries

/-! ## The parts of a put -/

namespace Engine

/-- Makes a session resident. -/
def makeResident (s : Session) : Step Engine Unit := do
  setWindows s ((← get).windows s)

/-- Folds a measurement into its session, which becomes resident in any case. -/
def fold (s : Session) (m : Measurement) : Step Engine Unit := do
  makeResident s
  let w := (← get).windows s
  setWindows s (← Step.ofExcept (w.register m))

/-- The report on a session that is resident; its windows keep it. -/
def refresh (s : Session) : Step Engine Report := do
  let (report, w) := ((← get).windows s).metrics
  setWindows s w
  return report

def push (s : Session) (report : Report) : Step Engine Unit :=
  modify fun e => { e with feed := (e.feed.broadcast s.key report).2 }

theorem run_makeResident (e : Engine) (s : Session) : run (makeResident s) e =
    (.ok (), { e with resident := e.resident.set s (e.windows s) }) := rfl

theorem windows_set (e : Engine) (s : Session) (w : SessionWindows) :
    windows { e with resident := e.resident.set s w } s = w := by
  rw [windows, Table.get?_set, if_pos rfl]
  rfl

theorem run_fold (e : Engine) (s : Session) (m : Measurement) : run (fold s m) e =
    (((e.windows s).register m).map fun _ => (),
      { e with resident := e.resident.set s ((e.windows s).taking m) }) := by
  rw [fold, run_bind_ok (run_makeResident e s), run_bind_ok (run_get _)]
  simp only [windows_set]
  rw [run_bind, run_ofExcept, SessionWindows.taking]
  cases (e.windows s).register m with
  | error refusal => rfl
  | ok w => simp only [run_setWindows, Table.set_set, Except.map]

theorem run_refresh (e : Engine) (s : Session) : run (refresh s) e =
    (.ok (e.windows s).metrics.1,
      { e with resident := e.resident.set s (e.windows s).metrics.2 }) := rfl

/-- A put is its parts, one after the other. -/
theorem run_put_eq (e : Engine) (s : Session) (m : Measurement) : run (put s m) e = run (do
    fold s m
    if (← get).feed.hasSubscribers s.key then push s (← refresh s)) e := by
  rw [put, run_bind_ok (run_get e), run_bind (fold s m), run_fold]
  simp only
  rw [run_bind_ok (run_setWindows e s _), run_bind, run_ofExcept, SessionWindows.taking]
  cases (e.windows s).register m with
  | error refusal => rfl
  | ok w =>
    simp only [Except.map]
    rw [run_bind_ok (run_get _), run_bind_ok (run_get _)]
    by_cases hlisten : e.feed.hasSubscribers s.key
    · simp only [hlisten, ↓reduceIte, run_bind_ok (run_setWindows _ _ _), run_modify, run_bind,
        run_refresh, windows_set, Table.set_set, push]
    · simp only [hlisten, Bool.false_eq_true, ↓reduceIte, run_setWindows, run_pure, Table.set_set]

end Engine

/-- The feed after something was done with a subscription. -/
def Feed.acted {α : Type} (f : Feed α) (t : Subscription) : Act → Feed α
  | .tryReceive => (f.poll t).2
  | .receive => (f.receive t).2
  | .cancel => f.cancel t
  | .drop => f.remove t

theorem Feed.feed_act {α : Type} (h : History α) (t : Subscription) (a : Act) :
    (h.act t a).feed = h.feed.acted t a := by
  cases a <;> rfl

/-- How far a session has come with its measurement. -/
inductive Stage where
  | idle
  | folded
  | awaited
  | ready (report : Report)
  deriving DecidableEq

/-! ## Runs -/

/-- An engine in use. `accepted` are the measurements that were folded in, `looks` says of
those whose put has looked for subscriptions whether there were any, and `subscribers` is what
was given out and taken, as `log` tells. -/
structure LiveRun where
  engine : Engine
  registry : Registry
  stage : Session → Stage
  accepted : List (Session × Measurement)
  looks : List (Session × Bool)
  log : List (Feed.Event Report)
  subscribers : Feed.History Report

namespace LiveRun
variable {B W : Type} [Backend B W] {l l' : LiveRun} {s t : Session} {b window : Nat}

/-- Queries find whatever is stored by then. A session may become resident some time before its
measurement is folded in. -/
inductive Event (B : Type)
  | start (owner : Instance)
  | makeResident (s : Session)
  | measure (s : Session) (m : Measurement)
  | proceed (s : Session)
  | query (cancelAfter : Option Nat) (s : Session) (st : Storage B)
  | advance (duration : Nat)
  | subscribe (s : Session)
  | act (t : Subscription) (a : Feed.Act)

def started (window depth : Nat) (cache : Option TimedCache) : LiveRun :=
  ⟨Engine.initial window depth cache, Registry.empty, fun _ => .idle, [], [], [],
    .start (max depth 1)⟩

/-- A subscription of the session was given out and is still there. -/
def Registered (l : LiveRun) (s : Session) : Prop :=
  ∃ t ∈ l.subscribers.issued, t ∉ l.subscribers.dropped ∧ t.session = s.key

instance (l : LiveRun) (s : Session) : Decidable (l.Registered s) :=
  inferInstanceAs (Decidable (∃ t ∈ _, _))

def enter (l : LiveRun) (s : Session) (stage : Stage) : LiveRun :=
  { l with stage := fun t => if t = s then stage else l.stage t }

def note (l : LiveRun) (e : Feed.Event Report) (feed : Feed Report) : LiveRun :=
  { l with
    log := l.log ++ [e]
    subscribers := l.subscribers.happen e
    engine := { l.engine with feed } }

/-- The put of a session goes on by one part. -/
def proceed (l : LiveRun) (s : Session) : LiveRun :=
  match l.stage s with
  | .idle => l
  | .folded =>
    { l.enter s (if l.engine.feed.hasSubscribers s.key then .awaited else .idle) with
      looks := l.looks ++ [(s, decide (l.Registered s))] }
  | .awaited =>
    match run (Engine.refresh s) l.engine with
    | (.ok report, engine) => { l.enter s (.ready report) with engine }
    | (.error _, engine) => { l.enter s .idle with engine }
  | .ready report =>
    (l.note (.broadcast s.key report) (run (Engine.push s report) l.engine).2.feed).enter s .idle

/-- A session that was not started, or is busy, takes no measurement. -/
def measure (l : LiveRun) (s : Session) (m : Measurement) : LiveRun :=
  match l.stage s with
  | .idle =>
    if s ∈ l.registry.issued then
      match run (Engine.fold s m) l.engine with
      | (.ok _, engine) =>
        { l.enter s .folded with engine, accepted := l.accepted ++ [(s, m)] }
      | (.error _, engine) => { l with engine }
    else l
  | _ => l

def happen (l : LiveRun) : Event B → LiveRun
  | .start owner => { l with registry := (run (Registry.startSession owner) l.registry).2 }
  | .makeResident s => { l with engine := (run (Engine.makeResident s) l.engine).2 }
  | .measure s m => l.measure s m
  | .proceed s => l.proceed s
  | .query cancelAfter s st =>
    { l with engine := (run (Engine.metrics cancelAfter s) (l.engine, st)).2.1 }
  | .advance duration => { l with engine := l.engine.advance duration }
  | .subscribe s => l.note (.subscribe s.key) (l.engine.feed.subscribe s.key).2
  | .act t a =>
    if t ∈ l.subscribers.issued then l.note (.act t a) (l.engine.feed.acted t a) else l

def runAll (l : LiveRun) (events : List (Event B)) : LiveRun := events.foldl happen l

theorem runAll_concat (l : LiveRun) (events : List (Event B)) (event : Event B) :
    l.runAll (events ++ [event]) = (l.runAll events).happen event := by
  rw [runAll, List.foldl_append]
  rfl

/-! ## A put with nothing between its parts -/

theorem proceed_idle (h : l.stage s = .idle) : l.proceed s = l := by rw [proceed, h]

theorem proceed_folded (h : l.stage s = .folded) : l.proceed s =
    { l.enter s (if l.engine.feed.hasSubscribers s.key then .awaited else .idle) with
      looks := l.looks ++ [(s, decide (l.Registered s))] } := by rw [proceed, h]

theorem proceed_awaited (h : l.stage s = .awaited) : l.proceed s =
    { l.enter s (.ready (l.engine.windows s).metrics.1) with
      engine := (run (Engine.refresh s) l.engine).2 } := by
  rw [proceed, h, Engine.run_refresh]

theorem proceed_ready {report : Report} (h : l.stage s = .ready report) : l.proceed s =
    (l.note (.broadcast s.key report) (run (Engine.push s report) l.engine).2.feed).enter s .idle := by
  rw [proceed, h]

def put (l : LiveRun) (s : Session) (m : Measurement) : LiveRun :=
  (((l.measure s m).proceed s).proceed s).proceed s

theorem measure_refused (hs : s ∈ l.registry.issued) (hidle : l.stage s = .idle) {m : Measurement}
    {refusal : Error} (hrefused : (run (Engine.put s m) l.engine).1 = .error refusal) :
    l.measure s m = { l with engine := (run (Engine.put s m) l.engine).2 } := by
  rw [Engine.put_answer] at hrefused
  cases hregister : (l.engine.windows s).register m with
  | ok w => simp [hregister, Except.map] at hrefused
  | error e =>
    have hfold : run (Engine.fold s m) l.engine = (.error e,
        { l.engine with resident := l.engine.resident.set s ((l.engine.windows s).taking m) }) := by
      rw [Engine.run_fold, hregister]
      rfl
    rw [Engine.run_put_eq, run_bind_error hfold]
    simp only [measure, hidle, if_pos hs, hfold]

theorem measure_accepted (hs : s ∈ l.registry.issued) (hidle : l.stage s = .idle) {m : Measurement}
    (haccepted : (run (Engine.put s m) l.engine).1 = .ok ()) :
    run (Engine.fold s m) l.engine = (.ok (), (run (Engine.fold s m) l.engine).2) ∧
    l.measure s m = { l.enter s .folded with
      engine := (run (Engine.fold s m) l.engine).2, accepted := l.accepted ++ [(s, m)] } := by
  rw [Engine.put_answer] at haccepted
  cases hregister : (l.engine.windows s).register m with
  | error e => simp [hregister, Except.map] at haccepted
  | ok w =>
    have hfold : run (Engine.fold s m) l.engine =
        (.ok (), (run (Engine.fold s m) l.engine).2) := by
      rw [Engine.run_fold, hregister]
      rfl
    refine ⟨hfold, ?_⟩
    simp only [measure, hidle, if_pos hs]
    rw [hfold]

/-- The parts after the first do what is left of a put. -/
theorem proceed_through (h : l.stage s = .folded) :
    (((l.proceed s).proceed s).proceed s).engine = (run (do
      if (← get).feed.hasSubscribers s.key then Engine.push s (← Engine.refresh s)) l.engine).2 ∧
    (((l.proceed s).proceed s).proceed s).stage s = .idle := by
  have hengine : (l.proceed s).engine = l.engine := by
    rw [proceed_folded h]
    rfl
  rw [run_bind_ok (run_get _)]
  by_cases hlisten : l.engine.feed.hasSubscribers s.key
  · have hawaited : (l.proceed s).stage s = .awaited := by
      rw [proceed_folded h, if_pos hlisten]
      exact if_pos rfl
    have hready : ((l.proceed s).proceed s).stage s = .ready (l.engine.windows s).metrics.1 := by
      rw [proceed_awaited hawaited, hengine]
      exact if_pos rfl
    have hrefreshed : ((l.proceed s).proceed s).engine = (run (Engine.refresh s) l.engine).2 := by
      rw [proceed_awaited hawaited, hengine]
    rw [if_pos hlisten, run_bind_ok (Engine.run_refresh l.engine s), proceed_ready hready]
    refine ⟨?_, if_pos rfl⟩
    show ({ ((l.proceed s).proceed s).engine with feed := _ } : Engine) = _
    rw [hrefreshed]
    rfl
  · have hidle : (l.proceed s).stage s = .idle := by
      rw [proceed_folded h, if_neg hlisten]
      exact if_pos rfl
    rw [proceed_idle hidle, proceed_idle hidle, if_neg hlisten, run_pure]
    exact ⟨hengine, hidle⟩

theorem put_eq (hs : s ∈ l.registry.issued) (hidle : l.stage s = .idle) (m : Measurement) :
    (l.put s m).engine = (run (Engine.put s m) l.engine).2 ∧ (l.put s m).stage s = .idle := by
  cases hanswer : (run (Engine.put s m) l.engine).1 with
  | error refusal =>
    have hstays : ∀ e : Engine,
        ({ l with engine := e } : LiveRun).proceed s = { l with engine := e } :=
      fun e => proceed_idle hidle
    rw [put, measure_refused hs hidle hanswer, hstays, hstays, hstays]
    exact ⟨rfl, hidle⟩
  | ok u =>
    obtain ⟨hfold, hmeasure⟩ := measure_accepted hs hidle hanswer
    have hfolded : (l.measure s m).stage s = .folded := by
      rw [hmeasure]
      exact if_pos rfl
    have hengine : (l.measure s m).engine = (run (Engine.fold s m) l.engine).2 := by rw [hmeasure]
    rw [Engine.run_put_eq, run_bind_ok hfold, put, ← hengine]
    exact proceed_through hfolded

/-! ## The parts stay together -/

/-- Whether there were subscriptions, for each measurement whose put has looked. -/
def found (l : LiveRun) (s : Session) : List Bool := (l.looks.filter (·.1 = s)).map Prod.snd

/-- The updates that were broadcast under a key. -/
def broadcasts (k : String) (log : List (Feed.Event Report)) : List Report :=
  log.filterMap fun
    | .broadcast k' report => if k' = k then some report else none
    | .subscribe _ | .act .. => none

theorem broadcasts_append (k : String) (log log' : List (Feed.Event Report)) :
    broadcasts k (log ++ log') = broadcasts k log ++ broadcasts k log' := List.filterMap_append

theorem broadcasts_eq_nil {k : String} {log : List (Feed.Event Report)}
    (h : ∀ report, .broadcast k report ∉ log) : broadcasts k log = [] := by
  unfold broadcasts
  rw [List.filterMap_eq_nil_iff]
  intro e he
  cases e with
  | broadcast k' report =>
    have hne : k' ≠ k := fun heq => h report (heq ▸ he)
    simp [hne]
  | subscribe _ => rfl
  | act _ _ => rfl

/-- The parts of a run agree. What is told of a session is of one that was started. -/
structure Wired (window b : Nat) (l : LiveRun) : Prop where
  window : l.engine.window = window
  numbered : l.registry.Numbered
  subscribers : l.subscribers = Feed.history b l.log
  feed : l.engine.feed = l.subscribers.feed
  current : Engine.Current l.accepted [] l.engine
  known : ∀ s, s ∉ l.registry.issued →
    l.stage s = .idle ∧ acceptedOf s l.accepted = [] ∧ l.found s = []
  issuer : ∀ k report, .broadcast k report ∈ l.log → ∃ s ∈ l.registry.issued, s.key = k

theorem wired_started (window depth : Nat) (cache : Option TimedCache) :
    Wired window (max depth 1) (started window depth cache) where
  window := rfl
  numbered := Registry.numbered_empty
  subscribers := rfl
  feed := by
    show Feed.empty depth = Feed.empty (max depth 1)
    simp [Feed.empty]
  current := Engine.current_initial window depth cache fun _ hx => absurd hx List.not_mem_nil
  known _ _ := ⟨rfl, rfl, rfl⟩
  issuer _ _ hlog := absurd hlog List.not_mem_nil

theorem Wired.issued_of_busy (h : Wired window b l) (hs : l.stage s ≠ .idle) :
    s ∈ l.registry.issued := by
  by_contra hunknown
  exact hs (h.known s hunknown).1

theorem Wired.start (h : Wired window b l) (owner : Instance) :
    Wired window b { l with registry := (run (Registry.startSession owner) l.registry).2 } := by
  cases hv : owner.validate with
  | error e =>
    rw [Registry.run_startSession_invalid _ hv]
    exact h
  | ok u =>
    rw [Registry.run_startSession _ hv]
    have hmore : ∀ s ∈ l.registry.issued, s ∈ (l.registry.started owner).issued := by
      intro s hs
      rw [Registry.issued_started]
      exact List.mem_append_left _ hs
    exact { h with
      numbered := h.numbered.started owner
      known := fun s hs => h.known s fun hold => hs (hmore s hold)
      issuer := fun k report hlog => (h.issuer k report hlog).imp fun s hs => ⟨hmore s hs.1, hs.2⟩ }

theorem Wired.engine (h : Wired window b l) {e : Engine} (hwindow : e.window = l.engine.window)
    (hfeed : e.feed = l.engine.feed) (hcurrent : Engine.Current l.accepted [] e) :
    Wired window b { l with engine := e } :=
  { h with window := hwindow.trans h.window, feed := hfeed.trans h.feed, current := hcurrent }

theorem Wired.enter (h : Wired window b l) (hs : s ∈ l.registry.issued) (stage : Stage) :
    Wired window b (l.enter s stage) :=
  { h with
    known := fun t ht => by
      have hts : t ≠ s := fun heq => ht (heq ▸ hs)
      obtain ⟨hstage, hrest⟩ := h.known t ht
      exact ⟨(if_neg hts).trans hstage, hrest⟩ }

theorem Wired.note (h : Wired window b l) {e : Feed.Event Report} {feed : Feed Report}
    (hfeed : feed = (l.subscribers.happen e).feed)
    (hissuer : ∀ k report, e = .broadcast k report → ∃ s ∈ l.registry.issued, s.key = k) :
    Wired window b (l.note e feed) :=
  { h with
    subscribers := by
      show l.subscribers.happen e = Feed.history b (l.log ++ [e])
      rw [Feed.history_concat, h.subscribers]
    feed := hfeed
    current := h.current.congr rfl rfl
    issuer := fun k report hlog => by
      rcases List.mem_append.1 hlog with hold | hnew
      · exact h.issuer k report hold
      · exact hissuer k report (List.mem_singleton.1 hnew).symm }

theorem Wired.measure (h : Wired window b l) (t : Session) (m : Measurement) :
    Wired window b (l.measure t m) := by
  unfold LiveRun.measure
  cases l.stage t with
  | idle =>
    simp only
    split
    · rename_i ht
      have htaking := (h.current.mirrors t List.not_mem_nil).taking m
      rw [Engine.run_fold]
      cases hregister : (l.engine.windows t).register m with
      | error refusal =>
        have hsame : (l.engine.windows t).taking m = l.engine.windows t := by
          rw [SessionWindows.taking, hregister]
        rw [hsame]
        exact h.engine rfl rfl (h.current.set l.engine.feed
          (fun hs => h.current.mirrors t hs) fun _ _ => rfl)
      | ok w =>
        have hcurrent : Engine.Current (l.accepted ++ [(t, m)]) []
            { l.engine with resident := l.engine.resident.set t ((l.engine.windows t).taking m) } :=
          h.current.set l.engine.feed (fun _ => by
            rwa [acceptedOf_concat, SessionWindows.replayed_concat])
            fun u hu => acceptedOf_concat_other hu l.accepted m
        have haccepted : Wired window b { l with
            engine := { l.engine with
              resident := l.engine.resident.set t ((l.engine.windows t).taking m) }
            accepted := l.accepted ++ [(t, m)] } :=
          { h with
            current := hcurrent
            known := fun s hs => by
              have hst : s ≠ t := fun heq => hs (heq ▸ ht)
              obtain ⟨hstage, hnone, hfound⟩ := h.known s hs
              exact ⟨hstage, (acceptedOf_concat_other hst _ _).trans hnone, hfound⟩ }
        exact haccepted.enter ht .folded
    · exact h
  | folded => exact h
  | awaited => exact h
  | ready report => exact h

theorem Wired.proceed (h : Wired window b l) (t : Session) : Wired window b (l.proceed t) := by
  unfold LiveRun.proceed
  cases hstage : l.stage t with
  | idle => exact h
  | folded =>
    have ht : t ∈ l.registry.issued := h.issued_of_busy (by rw [hstage]; nofun)
    have hlooked : Wired window b { l with looks := l.looks ++ [(t, decide (l.Registered t))] } :=
      { h with
        known := fun s hs => by
          have hst : s ≠ t := fun heq => hs (heq ▸ ht)
          obtain ⟨hidle, hnone, hfound⟩ := h.known s hs
          exact ⟨hidle, hnone, by simpa [found, Ne.symm hst] using hfound⟩ }
    exact hlooked.enter ht _
  | awaited =>
    have ht : t ∈ l.registry.issued := h.issued_of_busy (by rw [hstage]; nofun)
    have hcurrent : Engine.Current l.accepted [] (run (Engine.refresh t) l.engine).2 :=
      h.current.set l.engine.feed (fun hs => (h.current.mirrors t hs).metrics.2) fun _ _ => rfl
    have hrefreshed : Wired window b { l with engine := (run (Engine.refresh t) l.engine).2 } :=
      h.engine rfl rfl hcurrent
    exact hrefreshed.enter ht _
  | ready report =>
    have ht : t ∈ l.registry.issued := h.issued_of_busy (by rw [hstage]; nofun)
    have hfeed : (run (Engine.push t report) l.engine).2.feed =
        (l.subscribers.happen (.broadcast t.key report)).feed := by
      show (l.engine.feed.broadcast t.key report).2 = (l.subscribers.feed.broadcast t.key report).2
      rw [h.feed]
    refine (h.note hfeed fun k report' heq => ⟨t, ht, ?_⟩).enter ht .idle
    cases heq
    rfl

theorem Wired.happen (h : Wired window b l) (event : Event B) : Wired window b (l.happen event) := by
  cases event with
  | start owner => exact h.start owner
  | makeResident t =>
    exact h.engine rfl rfl (h.current.set l.engine.feed (fun hs => h.current.mirrors t hs)
      fun _ _ => rfl)
  | measure t m => exact h.measure t m
  | proceed t => exact h.proceed t
  | query cancelAfter t st =>
    obtain ⟨hwindow, hcurrent⟩ := h.current.metrics cancelAfter t st
    refine h.engine hwindow ?_ hcurrent
    rw [Engine.run_metrics_eq]
    cases l.engine.resident.get? t with
    | some w => rfl
    | none =>
      simp only
      cases l.engine.cached? t.key with
      | some report => rfl
      | none =>
        simp only
        cases run (Engine.replay l.engine.window cancelAfter t) st with
        | mk r st => cases r <;> rfl
  | advance duration => exact h.engine rfl rfl (h.current.congr rfl rfl)
  | subscribe t =>
    refine h.note ?_ nofun
    show (l.engine.feed.subscribe t.key).2 = (l.subscribers.feed.subscribe t.key).2
    rw [h.feed]
  | act t a =>
    simp only [LiveRun.happen]
    split
    · rename_i ht
      refine h.note ?_ nofun
      rw [h.feed, Feed.History.happen, if_pos ht, Feed.feed_act]
    · exact h

theorem Wired.runAll (h : Wired window b l) (events : List (Event B)) :
    Wired window b (l.runAll events) := by
  induction events using List.reverseRecOn with
  | nil => exact h
  | append_singleton events event ih =>
    rw [runAll_concat]
    exact ih.happen event

/-! ## What an event does to a session -/

theorem Wired.hasSubscribers_iff (h : Wired window b l) (hb : 1 ≤ b) (s : Session) :
    l.engine.feed.hasSubscribers s.key = true ↔ l.Registered s := by
  rw [h.feed, Registered, h.subscribers]
  exact (Feed.sound_history hb l.log).hasSubscribers_iff s.key

/-- What a session shows of a run, and how an event changes it. -/
inductive Turn (window : Nat) (l l' : LiveRun) (s : Session) : Prop
  | quiet (more : List (Feed.Event Report)) :
    l'.stage s = l.stage s → acceptedOf s l'.accepted = acceptedOf s l.accepted →
    l'.found s = l.found s → l'.log = l.log ++ more →
    (∀ report, Feed.Event.broadcast s.key report ∉ more) → Turn window l l' s
  | fold (m : Measurement) : l.stage s = .idle → l'.stage s = .folded →
    acceptedOf s l'.accepted = acceptedOf s l.accepted ++ [m] → l'.found s = l.found s →
    l'.log = l.log → Turn window l l' s
  | look : l.stage s = .folded →
    l'.stage s = (if decide (l.Registered s) then .awaited else .idle) →
    acceptedOf s l'.accepted = acceptedOf s l.accepted →
    l'.found s = l.found s ++ [decide (l.Registered s)] → l'.log = l.log → Turn window l l' s
  | refresh : l.stage s = .awaited →
    l'.stage s = .ready (SessionWindows.replayed window (acceptedOf s l.accepted)).compute →
    acceptedOf s l'.accepted = acceptedOf s l.accepted → l'.found s = l.found s →
    l'.log = l.log → Turn window l l' s
  | push (report : Report) : l.stage s = .ready report → l'.stage s = .idle →
    acceptedOf s l'.accepted = acceptedOf s l.accepted → l'.found s = l.found s →
    l'.log = l.log ++ [.broadcast s.key report] → Turn window l l' s

/-- Nothing of the session has changed. -/
theorem turn_same (hstage : l'.stage s = l.stage s)
    (haccepted : acceptedOf s l'.accepted = acceptedOf s l.accepted)
    (hfound : l'.found s = l.found s) (hlog : l'.log = l.log) : Turn window l l' s :=
  .quiet [] hstage haccepted hfound (hlog.trans (List.append_nil _).symm) fun _ => List.not_mem_nil

theorem turn_measure (t : Session) (m : Measurement) : Turn window l (l.measure t m) s := by
  have hnone : Turn window l l s := turn_same rfl rfl rfl rfl
  unfold measure
  cases hstage : l.stage t with
  | idle =>
    simp only
    split
    · rw [Engine.run_fold]
      cases hregister : (l.engine.windows t).register m with
      | error refusal => exact turn_same rfl rfl rfl rfl
      | ok w =>
        by_cases hst : s = t
        · subst hst
          exact .fold m hstage (if_pos rfl) (acceptedOf_concat _ _ _) rfl rfl
        · exact turn_same (if_neg hst) (acceptedOf_concat_other hst _ _) rfl rfl
    · exact hnone
  | folded => exact hnone
  | awaited => exact hnone
  | ready report => exact hnone

/-- No other session that was started has the key of this one. -/
def Apart (l : LiveRun) (s : Session) : Prop := ∀ t ∈ l.registry.issued, t.key = s.key → t = s

theorem turn_proceed (h : Wired window b l) (hb : 1 ≤ b) (hs : l.Apart s) (t : Session) :
    Turn window l (l.proceed t) s := by
  unfold proceed
  cases hstage : l.stage t with
  | idle => exact turn_same rfl rfl rfl rfl
  | folded =>
    by_cases hst : s = t
    · subst hst
      have hlooks : l.engine.feed.hasSubscribers s.key = decide (l.Registered s) := by
        rw [Bool.eq_iff_iff, decide_eq_true_iff]
        exact h.hasSubscribers_iff hb s
      refine .look hstage ?_ rfl ?_ rfl
      · rw [← hlooks]
        exact if_pos rfl
      · simp [found]
    · refine turn_same (if_neg hst) rfl ?_ rfl
      simp [found, Ne.symm hst]
  | awaited =>
    rw [Engine.run_refresh]
    by_cases hst : s = t
    · subst hst
      have hreport := (h.current.mirrors s List.not_mem_nil).metrics.1
      rw [h.window] at hreport
      exact .refresh hstage ((if_pos rfl).trans (congrArg Stage.ready hreport)) rfl rfl rfl
    · exact turn_same (if_neg hst) rfl rfl rfl
  | ready report =>
    by_cases hst : s = t
    · subst hst
      exact .push report hstage (if_pos rfl) rfl rfl rfl
    · have ht : t ∈ l.registry.issued := h.issued_of_busy (by rw [hstage]; nofun)
      refine .quiet [.broadcast t.key report] (if_neg hst) rfl rfl rfl fun report' hmem => hst ?_
      have hkey : s.key = t.key := (Feed.Event.broadcast.inj (List.mem_singleton.1 hmem)).1
      exact (hs t ht hkey.symm).symm

theorem turn_happen (h : Wired window b l) (hb : 1 ≤ b) (hs : l.Apart s) (event : Event B) :
    Turn window l (l.happen event) s := by
  cases event with
  | start owner => exact turn_same rfl rfl rfl rfl
  | makeResident t => exact turn_same rfl rfl rfl rfl
  | measure t m => exact turn_measure t m
  | proceed t => exact turn_proceed h hb hs t
  | query cancelAfter t st => exact turn_same rfl rfl rfl rfl
  | advance duration => exact turn_same rfl rfl rfl rfl
  | subscribe t =>
    exact .quiet [.subscribe t.key] rfl rfl rfl rfl fun report hmem => by simp at hmem
  | act t a =>
    simp only [happen]
    split
    · exact .quiet [.act t a] rfl rfl rfl rfl fun report hmem => by simp at hmem
    · exact turn_same rfl rfl rfl rfl

/-! ## Earlier and later -/

/-- Sessions stay started, and what was done with the feed stays done. -/
structure Grows (l l' : LiveRun) : Prop where
  issued : ∀ s ∈ l.registry.issued, s ∈ l'.registry.issued
  log : l.log <+: l'.log

theorem Grows.refl (l : LiveRun) : Grows l l := ⟨fun _ hs => hs, List.prefix_refl _⟩

theorem Grows.trans {l'' : LiveRun} (h : Grows l l') (h' : Grows l' l'') : Grows l l'' :=
  ⟨fun s hs => h'.issued s (h.issued s hs), h.log.trans h'.log⟩

theorem registry_measure (l : LiveRun) (t : Session) (m : Measurement) :
    (l.measure t m).registry = l.registry ∧ (l.measure t m).log = l.log := by
  unfold measure
  split
  · split
    · rw [Engine.run_fold]
      cases (l.engine.windows t).register m <;> exact ⟨rfl, rfl⟩
    · exact ⟨rfl, rfl⟩
  · exact ⟨rfl, rfl⟩

theorem registry_proceed (l : LiveRun) (t : Session) :
    (l.proceed t).registry = l.registry ∧ l.log <+: (l.proceed t).log := by
  unfold proceed
  cases l.stage t with
  | ready report => exact ⟨rfl, List.prefix_append _ _⟩
  | idle => exact ⟨rfl, List.prefix_refl _⟩
  | folded => exact ⟨rfl, List.prefix_refl _⟩
  | awaited => exact ⟨rfl, List.prefix_refl _⟩

theorem grows_happen (l : LiveRun) (event : Event B) : Grows l (l.happen event) := by
  cases event with
  | start owner =>
    refine ⟨fun s hs => ?_, List.prefix_refl _⟩
    simp only [happen]
    cases hv : owner.validate with
    | error e => rwa [Registry.run_startSession_invalid _ hv]
    | ok u =>
      rw [Registry.run_startSession _ hv, Registry.issued_started]
      exact List.mem_append_left _ hs
  | makeResident t => exact ⟨fun s hs => hs, List.prefix_refl _⟩
  | measure t m =>
    obtain ⟨hregistry, hlog⟩ := registry_measure l t m
    exact ⟨fun s hs => hregistry ▸ hs, hlog ▸ List.prefix_refl _⟩
  | proceed t =>
    obtain ⟨hregistry, hlog⟩ := registry_proceed l t
    exact ⟨fun s hs => hregistry ▸ hs, hlog⟩
  | query cancelAfter t st => exact ⟨fun s hs => hs, List.prefix_refl _⟩
  | advance duration => exact ⟨fun s hs => hs, List.prefix_refl _⟩
  | subscribe t => exact ⟨fun s hs => hs, List.prefix_append _ _⟩
  | act t a =>
    simp only [happen]
    split
    · exact ⟨fun s hs => hs, List.prefix_append _ _⟩
    · exact Grows.refl l

theorem grows_runAll (l : LiveRun) (events : List (Event B)) : Grows l (l.runAll events) := by
  induction events using List.reverseRecOn with
  | nil => exact Grows.refl l
  | append_singleton events event ih =>
    rw [runAll_concat]
    exact ih.trans (grows_happen _ event)

theorem Wired.apart (h : Wired window b l) (hs : s ∈ l.registry.issued) : l.Apart s :=
  fun _ ht hkey => h.numbered.eq_of_key ht hs hkey

theorem Apart.earlier (h : l'.Apart s) (hgrows : Grows l l') : l.Apart s :=
  fun t ht => h t (hgrows.issued t ht)
end LiveRun
end HeapTelemetry
