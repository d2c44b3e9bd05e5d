import HeapTelemetry.Proofs.SeriesAnswers
import HeapTelemetry.Proofs.Service

/-! A session that is resident answers from windows of its measurements as they arrived;
once it is not, from windows of what is read back. Where measurements arrived in the
order of their instants both answers are the same. -/

namespace HeapTelemetry
open Step Measurement SessionSeries SessionWindows

namespace Collector

/-- The answer to a query that is not cancelled. -/
def answer (s : Session) (c : Collector Database) : Except Error Report :=
  (run (metrics none s) c).1

/-- The collector after it was told to forget a session. -/
def forgetting (s : Session) (c : Collector Database) : Collector Database :=
  { c with engine := (c.engine.forget s).2 }

/-- The report that is cached for a session. -/
def cached? (s : Session) (c : Collector Database) : Option Report :=
  c.engine.cache.bind fun cache => (cache.get s.key).1

end Collector

/-- The windows of both hold the same points for every call stack. -/
def SessionWindows.Agree (v w : SessionWindows) : Prop :=
  ∀ stack, v.points? stack = w.points? stack

namespace Service
variable {dataDir : Path} {bound : Nat} {w : Service} {s : Session}

/-- The windows that a collector makes of these measurements. -/
abbrev windowsOf (w : Service) (ms : List Measurement) : SessionWindows :=
  replayed w.collector.engine.window ms

/-! ## Both answers -/

theorem Sound.coherent (h : Sound dataDir bound w)
    (hs : s ∈ w.collector.storage.registry.issued) (hids : DistinctIds (acceptedOf s w.accepted)) :
    Coherent (acceptedOf s w.accepted) := h.serves.coherent hs hids

/-- A session of which something was accepted is resident, and answers from its windows. -/
theorem Sound.answer_live (h : Sound dataDir bound w) (hs : s ∉ w.forgotten)
    (hms : acceptedOf s w.accepted ≠ []) :
    w.collector.answer s = .ok (w.windowsOf (acceptedOf s w.accepted)).compute := by
  obtain ⟨x, hx⟩ := Option.isSome_iff_exists.1 (h.current.resident s hs hms)
  have hmirrors := h.current.mirrors s hs
  rw [Engine.windows, hx] at hmirrors
  rw [Collector.answer, Collector.run_metrics, (Storage.run_metrics SessionSeries.run_locate _ _ _ _).1, hx]
  exact congrArg Except.ok hmirrors.metrics.1

/-- What a collector with this storage answers if the session is not resident. -/
theorem answer_cold {c : Collector Database} (hresident : c.engine.resident.get? s = none)
    (hs : s ∈ c.storage.registry.issued) {out : List Measurement}
    (hread : SessionSeries.read s (c.storage.backend, c.storage.disk) = .items (out.map .ok) none) :
    c.answer s = match c.cached? s with
      | some report => .ok report
      | none => if c.storage.lifecycle.shutDown then .error .shutDown
        else .ok (replayed c.engine.window out).compute := by
  have hcold : c.storage.answer c.engine.window none s = .ok (replayed c.engine.window out).compute := by
    rw [Storage.answer_series hs, hread, Engine.digest_items]
  rw [Collector.answer, Collector.run_metrics, (Storage.run_metrics SessionSeries.run_locate _ _ _ _).1,
    hresident, hcold]
  rfl

/-- A collector that was just started has nothing cached. -/
theorem cached?_started (settings : Settings) (st : Storage Database) (window feedDepth now : Nat) :
    Collector.cached? s ⟨settings, st,
      Engine.initial window feedDepth (Collector.newCache settings now), false⟩ = none := by
  rw [Collector.cached?, Engine.initial, Collector.newCache]
  by_cases hcache : settings.metrics.coldPathCache = true
  · rw [if_pos hcache]
    rfl
  · rw [if_neg hcache]
    rfl

/-! ## Agreement -/

/-- What a service answers for a session on both ways, where these measurements are read
back of it. -/
structure Answers (dataDir : Path) (w : Service) (s : Session) (out : List Measurement) : Prop where
  /-- As long as it is resident, from the measurements in the order of their arrival. -/
  live : acceptedOf s w.accepted ≠ [] →
    w.collector.answer s = .ok (w.windowsOf (acceptedOf s w.accepted)).compute
  /-- Once it is forgotten, from the cache or from what is read back. -/
  forgotten : (w.collector.forgetting s).answer s = match w.collector.cached? s with
    | some report => .ok report
    | none => if w.collector.storage.lifecycle.shutDown then .error .shutDown
      else .ok (w.windowsOf out).compute
  /-- After a restart with windows of the same length, from what is read back. -/
  restarted : ∀ settings now, settings.validate = .ok () →
    settings.metrics.window = w.collector.engine.window → ∃ c d,
      Collector.start settings dataDir now w.collector.storage.registry w.collector.storage.disk =
        (.ok c, d) ∧ c.answer s = .ok (w.windowsOf out).compute
  /-- Of settled measurements the windows and the reports are the same. -/
  settled : Settled w.collector.engine.window (acceptedOf s w.accepted) →
    (w.windowsOf (acceptedOf s w.accepted)).Agree (w.windowsOf out) ∧
      (w.windowsOf (acceptedOf s w.accepted)).compute = (w.windowsOf out).compute
  /-- Of others the windows are not the same, unless they have lost points. -/
  agreeing : (acceptedOf s w.accepted).length ≤ w.collector.engine.window →
    (w.windowsOf (acceptedOf s w.accepted)).Agree (w.windowsOf out) →
    Settled w.collector.engine.window (acceptedOf s w.accepted)

theorem Sound.answers (h : Sound dataDir bound w)
    (hs : s ∈ w.collector.storage.registry.issued) (hforgotten : s ∉ w.forgotten)
    (hids : DistinctIds (acceptedOf s w.accepted)) :
    ∃ out, Reassembled (acceptedOf s w.accepted) out ∧ w.Answers dataDir s out := by
  obtain ⟨out, hread, hout⟩ := h.serves.read hs hids
  have hcoherent := h.coherent hs hids
  refine ⟨out, hout, h.answer_live hforgotten, ?_, fun settings now hvalid hwindow => ?_,
    fun hsettled => ⟨fun stack => ?_, compute_of_settled hcoherent hout hsettled⟩, fun hlength => ?_⟩
  · have hresident : (w.collector.forgetting s).engine.resident.get? s = none := by
      rw [Collector.forgetting, Engine.forget, Table.get?_erase, if_pos rfl]
    exact answer_cold hresident hs hread
  · obtain ⟨st, d, hstart, hregistry, hlifecycle, hserves⟩ := h.restart now hvalid
    rw [← hregistry] at hs
    obtain ⟨out', hread', hout'⟩ := hserves.read hs hids
    have hanswer := answer_cold (c := ⟨settings, st, Engine.initial settings.metrics.window
      settings.metrics.subscriptionBuffer (Collector.newCache settings now), false⟩)
      rfl hs hread'
    rw [cached?_started settings st _ _ now] at hanswer
    refine ⟨_, d, hstart, hanswer.trans ?_⟩
    rw [← compute_of_reassembled _ hcoherent hout hout', ← hwindow, hlifecycle]
    rfl
  · rw [points?, points?, get?_of_settled hcoherent hout hsettled]
  · exact settled_of_points? hcoherent hout (Nat.le_trans hlength (Nat.le_max_left _ _))

/-- After every run, a session that was not forgotten answers from the windows of the
measurements accepted of it, in their order. Forgotten, or once the collector is started
again with windows of that length, it answers from the windows of what these measurements
reassemble to. The windows, and the answers, are the same if the accepted measurements
are settled, and only then as long as the windows can hold all of them. -/
theorem live_and_cold_answers (dataDir : Path) {d : Disk}
    (h : Database.Vacant (dataDir ++ ["tsdb"]) d) {settings : Settings}
    (hvalid : settings.validate = .ok ()) (now : Nat) (events : List Event)
    (hevents : events.length < UInt64.size) : ∃ started d',
    Collector.start settings dataDir now Registry.empty d = (.ok started, d') ∧
      let w := runAll dataDir ⟨started, [], [], []⟩ events
      ∀ s ∈ w.collector.storage.registry.issued, s ∉ w.forgotten →
        DistinctIds (acceptedOf s w.accepted) →
          ∃ out, Reassembled (acceptedOf s w.accepted) out ∧ w.Answers dataDir s out := by
  obtain ⟨started, d', hrun, hsound⟩ := sound_start dataDir h hvalid now
  have hend := hsound.runAll events (by omega)
  exact ⟨started, d', hrun, fun s hs hforgotten hids => hend.answers hs hforgotten hids⟩

/-- The session of the first stream. -/
def firstSession : Session := ⟨⟨"cart", "one"⟩, 1⟩

/-- A stream that describes itself and then makes these measurements. -/
def streaming (ms : List Measurement) : List Event :=
  .connect :: .request 0 (.description firstSession.owner) [] ::
    ms.map fun m => .request 0 (.measurement m) []

/-- What both answers for a session depend on. -/
structure Outcome where
  accepted : List Measurement
  issued : List Session
  forgotten : List Session
  window : Nat
  shutDown : Bool
  cached : Option Report
  deriving DecidableEq

def outcome (s : Session) (w : Service) : Outcome where
  accepted := acceptedOf s w.accepted
  issued := w.collector.storage.registry.issued
  forgotten := w.forgotten
  window := w.collector.engine.window
  shutDown := w.collector.storage.lifecycle.shutDown
  cached := w.collector.cached? s

/-- The outcome of a run of a new collector. -/
def outcomeOf (events : List Event) : Option Outcome :=
  (Collector.start Settings.default ["data"] 0 Registry.empty Disk.empty :
    Except Error (Collector Database) × Disk).1.toOption.map fun started =>
      outcome firstSession (runAll ["data"] ⟨started, [], [], []⟩ events)

theorem outcome_of_start (events : List Event) {o : Outcome} (h : outcomeOf events = some o)
    {started : Collector Database} {d : Disk}
    (hrun : Collector.start Settings.default ["data"] 0 Registry.empty Disk.empty = (.ok started, d)) :
    outcome firstSession (runAll ["data"] ⟨started, [], [], []⟩ events) = o := by
  rw [outcomeOf, hrun] at h
  exact Option.some.inj h

/-- One call-site, then two. -/
def orderly : List Measurement :=
  [⟨Timestamp.ofNanos 1000000000, [⟨⟨[⟨"grow", "heap.c", 7⟩]⟩, ⟨2, 64, 0, 0⟩⟩]⟩,
    ⟨Timestamp.ofNanos 2000000000, [⟨⟨[⟨"grow", "heap.c", 7⟩]⟩, ⟨4, 128, 1, 32⟩⟩,
      ⟨⟨[⟨"main", "main.c", 1⟩]⟩, ⟨1, 32, 0, 0⟩⟩]⟩]

/-- After orderly measurements one comes too late and fails, and the stream ends while
its block cannot be written. -/
def orderlyRun : List Event :=
  streaming (orderly ++ orderly.take 1) ++ [.close 0 [.refuse]]

theorem steady_orderly : Steady orderly where
  located := by decide
  whole := by decide +kernel
  ascending := by decide +kernel

theorem live_and_cold_answers_in_order :
    (Settings.default.validate = .ok () ∧ orderlyRun.length < UInt64.size) ∧ ∃ started d',
      Collector.start Settings.default ["data"] 0 Registry.empty Disk.empty = (.ok started, d') ∧
        let c := (runAll ["data"] ⟨started, [], [], []⟩ orderlyRun).collector
        ∃ report, c.answer firstSession = .ok report ∧
          (c.forgetting firstSession).answer firstSession = .ok report ∧
          ∃ c' d'', Collector.start Settings.default ["data"] 60 c.storage.registry c.storage.disk =
            (.ok c', d'') ∧ c'.answer firstSession = .ok report := by
  have hvalid : Settings.default.validate = .ok () := rfl
  have hlength : orderlyRun.length < UInt64.size := by decide
  have hids : DistinctIds orderly := by decide +kernel
  obtain ⟨started, d', hrun, hanswers⟩ := live_and_cold_answers ["data"]
    (Database.vacant_empty ["data", "tsdb"]) hvalid 0 orderlyRun hlength
  have houtcome := outcome_of_start orderlyRun
    (o := ⟨orderly, [firstSession], [], 300, false, none⟩) (by decide +kernel) hrun
  refine ⟨⟨hvalid, hlength⟩, started, d', hrun, ?_⟩
  generalize runAll ["data"] ⟨started, [], [], []⟩ orderlyRun = w at hanswers houtcome ⊢
  simp only [outcome, Outcome.mk.injEq] at houtcome
  obtain ⟨haccepted, hissued, hforgotten, hwindow, hshut, hcached⟩ := houtcome
  obtain ⟨out, _, hanswers⟩ := hanswers firstSession (by rw [hissued]; exact List.mem_cons_self)
    (by rw [hforgotten]; exact List.not_mem_nil) (by rw [haccepted]; exact hids)
  obtain ⟨_, hsame⟩ := hanswers.settled (by rw [haccepted]; exact steady_orderly.settled _)
  obtain ⟨c, d'', hstart, hagain⟩ := hanswers.restarted Settings.default 60 hvalid hwindow.symm
  have hforget := hanswers.forgotten
  simp only [hcached, hshut, Bool.false_eq_true, ↓reduceIte] at hforget
  have hlive := hanswers.live (by rw [haccepted]; decide)
  rw [hsame] at hlive
  exact ⟨_, hlive, hforget, c, d'', hstart, hagain⟩

/-- Two call-sites, the second at an earlier instant than the first. -/
def disorderly : List Measurement :=
  [⟨Timestamp.ofNanos 5000000000, [⟨⟨[⟨"grow", "heap.c", 7⟩]⟩, ⟨2, 64, 0, 0⟩⟩]⟩,
    ⟨Timestamp.ofNanos 3000000000, [⟨⟨[⟨"main", "main.c", 1⟩]⟩, ⟨1, 32, 0, 0⟩⟩]⟩]

theorem steady_reversed : Steady disorderly.reverse where
  located := by decide
  whole := by decide +kernel
  ascending := by decide +kernel

/-- Both measurements are accepted, and the answer changes when the session is forgotten:
the later instant stands last then, and nothing follows it. -/
theorem live_and_cold_differ : ∃ started d',
    Collector.start Settings.default ["data"] 0 Registry.empty Disk.empty = (.ok started, d') ∧
      let w := runAll ["data"] ⟨started, [], [], []⟩ (streaming disorderly)
      acceptedOf firstSession w.accepted = disorderly ∧ ∃ live cold,
        w.collector.answer firstSession = .ok live ∧
        (w.collector.forgetting firstSession).answer firstSession = .ok cold ∧
        ¬ ∀ r, r ∈ live ↔ r ∈ cold := by
  have hvalid : Settings.default.validate = .ok () := rfl
  obtain ⟨started, d', hrun, hsound⟩ := sound_start ["data"]
    (Database.vacant_empty ["data", "tsdb"]) hvalid 0
  have hend := hsound.runAll (streaming disorderly) (by decide)
  have houtcome := outcome_of_start (streaming disorderly)
    (o := ⟨disorderly, [firstSession], [], 300, false, none⟩) (by decide +kernel) hrun
  have hids : DistinctIds disorderly := by decide +kernel
  refine ⟨started, d', hrun, ?_⟩
  generalize runAll ["data"] ⟨started, [], [], []⟩ (streaming disorderly) = w at hend houtcome ⊢
  simp only [outcome, Outcome.mk.injEq] at houtcome
  obtain ⟨haccepted, hissued, hforgotten, hwindow, hshut, hcached⟩ := houtcome
  have hs : firstSession ∈ w.collector.storage.registry.issued := by
    rw [hissued]
    exact List.mem_cons_self
  have hcoherent := hend.coherent hs (by rw [haccepted]; exact hids)
  obtain ⟨out, hout, hanswers⟩ := hend.answers hs (by rw [hforgotten]; exact List.not_mem_nil)
    (by rw [haccepted]; exact hids)
  have hlive := hanswers.live (by rw [haccepted]; decide)
  have hforget := hanswers.forgotten
  simp only [hcached, hshut, Bool.false_eq_true, ↓reduceIte] at hforget
  rw [haccepted] at hlive hout hcoherent
  rw [windowsOf, hwindow] at hlive hforget
  refine ⟨haccepted, _, _, hlive, hforget, fun hsame => ?_⟩
  -- What is read back is the reversed list, and there the first site has but one point.
  have hreversed := hcoherent.of_perm disorderly.reverse_perm.symm
  have hread := compute_of_reassembled 300 hreversed steady_reversed.reassembled
    (hout.of_perm disorderly.reverse_perm.symm)
  let still : SiteRates := ⟨⟨[⟨"grow", "heap.c", 7⟩]⟩, Rates.ofCounters fun _ => Binary64.zero⟩
  have hcold : still ∈ (replayed 300 out).compute := by
    rw [hread, mem_compute_replayed 300 hreversed]
    decide +kernel
  rw [← hsame, mem_compute_replayed 300 hcoherent] at hcold
  revert hcold
  decide +kernel

end Service
end HeapTelemetry
