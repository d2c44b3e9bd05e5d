import HeapTelemetry.Proofs.Series.OpenDatabase
import HeapTelemetry.Proofs.Storage.SealedSeries
import HeapTelemetry.Proofs.Storage.Traffic

/-! What a saver accepts. While its session is saved nothing of it is sealed and the database
stays open, so it takes a measurement exactly if that can be stored, and takes it whole; one
that it refuses leaves everything as it was. -/

namespace HeapTelemetry
open Step Measurement SessionSeries

/-! ## One measurement -/

namespace SessionSeries
open Database

variable {accepted : List (Session × Measurement)} {bound : Nat} {db : Database} {d : Disk}
  {s : Session} {m : Measurement} {found : List Series} {ledger : Ledger}

/-- The instant fits in the 64 bits of a sample's time, and doubles hold the counters. -/
theorem storable_iff : Storable m ↔
    (Int64.minValue.toInt ≤ m.observedAt.totalNanos ∧
      m.observedAt.totalNanos ≤ Int64.maxValue.toInt) ∧ ∀ l ∈ m.locations, l.usage.Exact := by
  constructor
  · intro h
    have htime := (Timestamp.nanos?_eq_some_iff _ _).1 h.timed
    exact ⟨htime ▸ ⟨m.time.minValue_le_toInt, m.time.toInt_le⟩, h.exact⟩
  · rintro ⟨hfits, hexact⟩
    have hnanos : m.observedAt.nanos? = some (Int64.ofInt m.observedAt.totalNanos) :=
      if_pos ((Timestamp.fitsInt64_iff _).2 hfits)
    exact ⟨by rw [nanos?_eq_some_time hnanos, hnanos], hexact⟩

theorem Storable.time_eq (h : Storable m) : m.time.toInt = m.observedAt.totalNanos :=
  (Timestamp.nanos?_eq_some_iff _ _).1 h.timed

theorem length_adds (s : Session) (m : Measurement) :
    (adds s m).length = 4 * m.locations.length := by
  rw [adds]
  induction m.locations with
  | nil => rfl
  | cons l ls ih =>
    rw [List.flatMap_cons, List.length_append, ih, List.length_cons, Nat.mul_succ, Nat.add_comm]
    rfl

theorem added_ne_nil {x : Location} (hx : x ∈ m.locations) (k : Metric) :
    Ledger.added (adds s m) (SiteSeries.labels s x.stack k) ≠ [] := by
  rw [added_adds, ne_eq, List.map_eq_nil_iff]
  exact List.ne_nil_of_mem (List.mem_filter.2 ⟨hx, decide_eq_true rfl⟩)

theorem time_of_mem_adds {e : Labels × Sample} (he : e ∈ adds s m) : e.2.time = m.time := by
  obtain ⟨x, _, he⟩ := List.mem_flatMap.1 he
  obtain ⟨k, _, rfl⟩ := List.mem_map.1 he
  rfl

/-- Samples of one instant go on from others if there is just one, behind the last of them. -/
theorem continues_map_iff {α : Type} {f : α → Sample} (time : Int64) (hf : ∀ x, (f x).time = time)
    {xs : List α} (hne : xs ≠ []) (before : List Sample) : Continues before (xs.map f) ↔
      xs.length ≤ 1 ∧ ∀ last ∈ before.getLast?, last.time < time := by
  obtain ⟨a, rest, rfl⟩ := List.exists_cons_of_ne_nil hne
  cases rest with
  | nil => simp [Continues, hf]
  | cons b rest =>
    have hno : ¬ Continues before ((a :: b :: rest).map f) := by
      rintro ⟨hascending, _⟩
      have hlt := (List.pairwise_cons.1 hascending).1 (f b) List.mem_cons_self
      rw [hf, hf] at hlt
      exact Int64.lt_irrefl hlt
    exact ⟨fun h => absurd h hno, fun h => absurd h.1 (by simp)⟩

/-- A measurement goes on from what is stored if no call stack is in it twice and each is
behind its last samples. -/
theorem admits_iff (hsealed : ∀ l, Matcher.allAccept [SiteSeries.sessionMatcher s] l = true →
      ledger.isSealed l = false) : ledger.Admits (adds s m) ↔
    (m.locations.map Location.stack).Nodup ∧ ∀ x ∈ m.locations, ∀ k,
      ∀ last ∈ (ledger.samples (SiteSeries.labels s x.stack k)).getLast?, last.time < m.time := by
  have hcontinues : ∀ x ∈ m.locations, ∀ k,
      Continues (ledger.samples (SiteSeries.labels s x.stack k))
          (Ledger.added (adds s m) (SiteSeries.labels s x.stack k)) ↔
        (m.locations.filter (·.stack = x.stack)).length ≤ 1 ∧
          ∀ last ∈ (ledger.samples (SiteSeries.labels s x.stack k)).getLast?,
            last.time < m.time := by
    intro x hx k
    have hne := added_ne_nil (s := s) hx k
    rw [added_adds] at hne ⊢
    exact continues_map_iff m.time (fun _ => rfl) (mt List.map_eq_nil_iff.2 hne) _
  rw [nodup_map_iff]
  constructor
  · intro h
    have hstep : ∀ x ∈ m.locations, ∀ k, _ := fun x hx k =>
      (hcontinues x hx k).1 (h _ (added_ne_nil hx k)).2
    refine ⟨fun stack => ?_, fun x hx k => (hstep x hx k).2⟩
    cases hfilter : m.locations.filter (·.stack = stack) with
    | nil => exact Nat.zero_le 1
    | cons a rest =>
      obtain ⟨ha, hstack⟩ := List.mem_filter.1 (hfilter ▸ List.mem_cons_self)
      obtain rfl := of_decide_eq_true hstack
      rw [← hfilter]
      exact (hstep a ha .allocBytes).1
  · rintro ⟨hone, hlast⟩ l hl
    obtain ⟨x, hx, k, rfl⟩ := exists_of_added hl
    exact ⟨hsealed _ ((SiteSeries.accepts_labels s s x.stack k).2 rfl),
      (hcontinues x hx k).2 ⟨hone x.stack, hlast x hx k⟩⟩

/-- The measurement is behind every sample that was found for one of its call stacks. -/
def Later (found : List Series) (m : Measurement) : Prop :=
  ∀ x ∈ found, ∀ l ∈ m.locations, SiteSeries.callStack x.labels = .ok l.stack →
    ∀ last ∈ x.samples.getLast?, last.time.toInt < m.observedAt.totalNanos

/-- What is found for a session are its series, one for each call stack and counter. -/
theorem later_iff (hkey : ∀ e ∈ accepted, e.1.key = s.key → e.1 = s) (hm : Storable m)
    (hfound : Answers (saved accepted) [SiteSeries.sessionMatcher s] found) :
    Later found m ↔ ∀ x ∈ m.locations, ∀ k,
      ∀ last ∈ (saved accepted (SiteSeries.labels s x.stack k)).getLast?, last.time < m.time := by
  have htime : ∀ t : Int64, t < m.time ↔ t.toInt < m.observedAt.totalNanos := fun t => by
    rw [Int64.lt_iff_toInt_lt, hm.time_eq]
  constructor
  · intro h x hx k last hlast
    rw [htime]
    have hne : saved accepted (SiteSeries.labels s x.stack k) ≠ [] := by
      intro hnil
      rw [hnil] at hlast
      cases hlast
    exact h ⟨_, _⟩ ((hfound.mem _).2 ⟨hne, rfl, (SiteSeries.accepts_labels s s x.stack k).2 rfl⟩)
      x hx (SiteSeries.callStack_labels s x.stack k) last hlast
  · intro h x hx l hl hstack last hlast
    obtain ⟨hne, hsamples, haccepts⟩ := (hfound.mem x).1 hx
    obtain ⟨e, he, stack, k, hlabels⟩ := exists_of_saved (hsamples ▸ hne)
    rw [hlabels, SiteSeries.accepts_labels] at haccepts
    rw [hlabels, SiteSeries.callStack_labels] at hstack
    obtain rfl := hkey e he haccepts
    obtain rfl := Except.ok.inj hstack
    rw [hsamples, hlabels] at hlast
    exact (htime _).1 (h l hl k last hlast)

/-- A save of a session of which nothing is sealed succeeds in an open database exactly if
the measurement can be stored, goes on from what is found and fits in a frame of the log. -/
theorem Contains.save_ok_iff [Compressor] (h : Contains accepted bound db d)
    (hkey : ∀ e ∈ accepted, e.1.key = s.key → e.1 = s) (hopen : db.log.isSome = true)
    (hsealed : ∀ l, Matcher.allAccept [SiteSeries.sessionMatcher s] l = true →
      db.sealedIn.contains l = false)
    (hfound : Answers (saved accepted) [SiteSeries.sessionMatcher s] found) :
    (run (SessionSeries.save s () m) (db, d)).1 = .ok () ↔
      Storable m ∧ (m.locations.map Location.stack).Nodup ∧ Later found m ∧
        Log.Fits (Batch.ofAdds (adds s m)) := by
  obtain ⟨ledger, hfollows, hsamples⟩ := h.follows
  by_cases hm : Storable m
  · have hadmits : ledger.Admits (adds s m) ↔
        (m.locations.map Location.stack).Nodup ∧ Later found m := by
      rw [admits_iff fun l hl => hfollows.isSealed l ▸ hsealed l hl, later_iff hkey hm hfound,
        hsamples]
    rw [run_save hm, ← and_assoc (a := (m.locations.map Location.stack).Nodup), ← hadmits]
    by_cases hadds : adds s m = []
    · rw [hadds, run_perform_commit_empty]
      have hfits : Log.Fits (Batch.ofAdds []) := FileFrame.fits_of_length_le (by decide)
      exact ⟨fun _ => ⟨hm, fun l hl => absurd rfl hl, hfits⟩, fun _ => rfl⟩
    · rw [hfollows.commit_ok_iff hadds, ← hfollows.isOpen, hopen]
      exact ⟨fun ⟨_, hrest⟩ => ⟨hm, hrest⟩, fun ⟨_, hrest⟩ => ⟨rfl, hrest⟩⟩
  · obtain ⟨e, hrun⟩ := run_save_refused hm s (db, d)
    rw [hrun]
    exact ⟨fun hok => (nomatch hok), fun hall => absurd hall.1 hm⟩

/-- A save that fails changes nothing. -/
theorem Contains.save_error [Compressor] (h : Contains accepted bound db d) {e : Error}
    (he : (run (SessionSeries.save s () m) (db, d)).1 = .error e) :
    (run (SessionSeries.save s () m) (db, d)).2 = (db, d) := by
  obtain ⟨ledger, hfollows, _⟩ := h.follows
  by_cases hm : Storable m
  · rw [run_save hm] at he ⊢
    by_cases hadds : adds s m = []
    · rw [hadds, run_perform_commit_empty]
    · have hno : ¬ (ledger.isOpen = true ∧ ledger.Admits (adds s m) ∧
          Log.Fits (Batch.ofAdds (adds s m))) := by
        intro hok
        rw [(hfollows.commit_ok_iff hadds).2 hok] at he
        cases he
      obtain ⟨_, hrun⟩ := hfollows.commit_refused hadds hno
      rw [hrun]
  · obtain ⟨_, hrun⟩ := run_save_refused hm s (db, d)
    rw [hrun]

/-- Of each label set that the matchers accept a query finds what was saved. -/
theorem Contains.select [Compressor] (h : Contains accepted bound db d) (ms : List Matcher) :
    ∃ found, run (Database.select ms) (db, d) = (.ok found, db, d) ∧
      Answers (saved accepted) ms found := by
  obtain ⟨ledger, hfollows, hsamples⟩ := h.follows
  rw [← hsamples]
  exact hfollows.select ms

theorem samples_of_answers {ms : List Matcher} (h : Answers (saved accepted) ms found)
    (l : Labels) : Batch.samples found l =
      if Matcher.allAccept ms l = true then saved accepted l else [] := by
  by_cases hl : ∃ x ∈ found, x.labels = l
  · obtain ⟨x, hx, rfl⟩ := hl
    obtain ⟨_, hsamples, haccepts⟩ := (h.mem x).1 hx
    rw [if_pos haccepts, Batch.samples_of_mem h.sorted.distinct hx, hsamples]
  · rw [Batch.samples_eq_nil fun x hx heq => hl ⟨x, hx, heq⟩]
    split
    · rename_i haccepts
      apply Classical.byContradiction
      intro hne
      exact hl ⟨⟨l, saved accepted l⟩, (h.mem _).2 ⟨fun hnil => hne hnil.symm, rfl, haccepts⟩, rfl⟩
    · rfl

/-- Every query finds what it found before, and behind it what the measurement adds to the
series that its matchers accept. -/
def Extends (s : Session) (m : Measurement) (st st' : Database × Disk) : Prop :=
  ∀ ms, ∃ before after, run (Database.select ms) st = (.ok before, st) ∧
    run (Database.select ms) st' = (.ok after, st') ∧ ∀ l, Batch.samples after l =
      Batch.samples before l ++
        if Matcher.allAccept ms l = true then Ledger.added (adds s m) l else []

theorem Contains.save_extends [Compressor] (h : Contains accepted bound db d)
    (hok : (run (SessionSeries.save s () m) (db, d)).1 = .ok ()) :
    Extends s m (db, d) (run (SessionSeries.save s () m) (db, d)).2 := by
  intro ms
  obtain ⟨r, db', d', hrun, _, hcontains⟩ := h.save s m
  rw [hrun] at hok ⊢
  obtain rfl : r = .ok () := hok
  obtain ⟨before, hbefore, hfound⟩ := h.select ms
  obtain ⟨after, hafter, hfound'⟩ := hcontains.select ms
  refine ⟨before, after, hbefore, hafter, fun l => ?_⟩
  rw [samples_of_answers hfound, samples_of_answers hfound', saved_concat]
  split <;> rfl

end SessionSeries

/-! ## Savers at work -/

namespace Storage

/-- A shutdown that finds a user closes nothing. -/
theorem shutDown_busy {B W : Type} [Backend B W] {st : Storage B} (h : st.lifecycle.inFlight ≠ 0) :
    (run shutDown st).2 = { st with lifecycle := st.lifecycle.beginShutdown } := by
  have hidle : st.lifecycle.beginShutdown.isIdle = false := beq_false_of_ne h
  rw [shutDown, run_bind_ok (run_onLifecycle _ _), run_bind_ok (run_get _)]
  show (run (if st.lifecycle.beginShutdown.isIdle = true then _ else _) _).2 = _
  rw [hidle]
  rfl

end Storage

namespace Traffic

/-- Savers have sessions of their own, of which nothing is sealed, and every saver is
counted, so that the database is open as long as there is one. -/
structure Attended [Compressor] (dataDir : Path) (bound : Nat) (w : Traffic) : Prop where
  sound : Sound dataDir bound w
  apart : (w.savers.map Saver.session).Nodup
  counted : w.storage.lifecycle.inFlight = w.savers.length
  closed : w.storage.backend.log.isSome = false →
    w.storage.lifecycle.shutDown = true ∧ w.savers = []
  unsealed : ∀ v ∈ w.savers, ∀ l, Matcher.allAccept [SiteSeries.sessionMatcher v.session] l = true →
    w.storage.backend.sealedIn.contains l = false

variable {dataDir : Path} {bound bound' : Nat} {w : Traffic}

section
variable [Compressor]

theorem happen_start (dataDir : Path) {owner : Instance}
    (hopen : w.storage.lifecycle.shutDown = false) (hvalid : owner.validate = .ok ()) :
    w.happen dataDir (.start owner) = { w with
      storage := { w.storage with
        registry := w.storage.registry.started owner, lifecycle := w.storage.lifecycle.enter }
      savers := w.savers ++ [⟨⟨owner, (w.storage.registry.lastId + 1 : Nat)⟩, ()⟩] } := by
  rw [happen, Storage.run_openSaver]
  simp only [hopen, hvalid, Bool.false_eq_true, ↓reduceIte]

theorem happen_start_refused (dataDir : Path) {owner : Instance}
    (h : ¬ (w.storage.lifecycle.shutDown = false ∧ owner.validate = .ok ())) :
    w.happen dataDir (.start owner) = w := by
  rw [happen, Storage.run_openSaver]
  cases hopen : w.storage.lifecycle.shutDown with
  | true => rfl
  | false =>
    cases hvalid : owner.validate with
    | error e => rfl
    | ok u => exact absurd ⟨hopen, hvalid⟩ h

/-- Of the session of a new saver nothing was saved, so nothing of it is sealed. -/
theorem Attended.start (h : Attended dataDir bound w) (owner : Instance)
    (hs : Sound dataDir bound' (w.happen dataDir (.start owner))) :
    Attended dataDir bound' (w.happen dataDir (.start owner)) := by
  by_cases hadmitted : w.storage.lifecycle.shutDown = false ∧ owner.validate = .ok ()
  · rw [happen_start dataDir hadmitted.1 hadmitted.2] at hs ⊢
    have hnew : ∀ s ∈ w.storage.registry.issued,
        s.id ≠ (w.storage.registry.lastId + 1 : Nat) := by
      intro s hs heq
      have hle := h.sound.serves.numbered.bounded s hs
      omega
    refine ⟨hs, ?_, ?_, fun hlog => ?_, fun v hv l hl => ?_⟩
    · rw [List.map_append, List.map_singleton, nodup_concat_iff h.apart]
      intro hm
      obtain ⟨v, hv, heq⟩ := List.mem_map.1 hm
      exact hnew _ (h.sound.savers v hv) (congrArg Session.id heq)
    · rw [List.length_append, ← h.counted]
      rfl
    · have hshut := (h.closed hlog).1
      rw [hadmitted.1] at hshut
      cases hshut
    · rcases List.mem_append.1 hv with hv | hv
      · exact h.unsealed v hv l hl
      · obtain rfl := List.mem_singleton.1 hv
        refine h.sound.serves.contains.unsealed (fun e he hkey => ?_) hl
        exact hnew _ (h.sound.serves.issued e he) (Session.id_eq_of_key_eq hkey)
  · rw [happen_start_refused dataDir hadmitted] at hs ⊢
    exact { h with sound := hs }

theorem happen_save (dataDir : Path) {place : Nat} {v : Saver Unit}
    (hv : w.savers[place]? = some v) (m : Measurement) :
    (w.happen dataDir (.save place m)).savers = w.savers ∧
      (w.happen dataDir (.save place m)).storage = (run (Storage.save v m) w.storage).2 := by
  rw [happen, hv]
  simp only
  cases run (Storage.save v m) w.storage with
  | mk r st => cases r <;> exact ⟨rfl, rfl⟩

theorem Attended.save (h : Attended dataDir bound w) (hbound : bound ≤ UInt64.size) (place : Nat)
    (m : Measurement) (hs : Sound dataDir bound' (w.happen dataDir (.save place m))) :
    Attended dataDir bound' (w.happen dataDir (.save place m)) := by
  cases hv : w.savers[place]? with
  | none =>
    have hsame : w.happen dataDir (.save place m) = w := by rw [happen, hv]
    rw [hsame] at hs ⊢
    exact { h with sound := hs }
  | some v =>
    obtain ⟨hsavers, hstorage⟩ := happen_save dataDir hv m
    obtain ⟨hsealed, hopen⟩ := h.sound.serves.contains.save_kept hbound v.session m
    rw [Storage.run_save] at hstorage
    refine ⟨hs, ?_, ?_, ?_, ?_⟩
    · rw [hsavers]
      exact h.apart
    · rw [hsavers, hstorage]
      exact h.counted
    · rw [hsavers, hstorage]
      exact fun hlog => h.closed (hopen.symm.trans hlog)
    · rw [hsavers, hstorage]
      exact fun x hx l hl => (hsealed l).trans (h.unsealed x hx l hl)

theorem happen_close (dataDir : Path) {place : Nat} {v : Saver Unit}
    (hv : w.savers[place]? = some v) (answers : List Verdict) :
    let x := w.happen dataDir (.close place answers)
    x.savers = w.savers.eraseIdx place ∧ x.storage.lifecycle = w.storage.lifecycle.leave ∧
      x.storage.backend = (run (SessionSeries.finish v.session ())
        (w.storage.backend, w.storage.disk.facing answers)).2.1 := by
  simp only [happen, hv, Storage.closeFacing, Storage.run_closeSaver, and_self]

/-- What a close seals is of the session of its saver. -/
theorem Attended.close (h : Attended dataDir bound w) (hbound : bound < UInt64.size) (place : Nat)
    (answers : List Verdict) (hs : Sound dataDir bound' (w.happen dataDir (.close place answers))) :
    Attended dataDir bound' (w.happen dataDir (.close place answers)) := by
  cases hv : w.savers[place]? with
  | none =>
    have hsame : w.happen dataDir (.close place answers) = w := by rw [happen, hv]
    rw [hsame] at hs ⊢
    exact { h with sound := hs }
  | some v =>
    obtain ⟨hsavers, hlifecycle, hbackend⟩ := happen_close dataDir hv answers
    obtain ⟨hsealed, hopen⟩ := h.sound.serves.contains.finish_kept hbound v.session answers
    have hmem := List.mem_of_getElem? hv
    refine ⟨hs, ?_, ?_, fun hlog => ?_, fun x hx l hl => ?_⟩
    · rw [hsavers]
      exact h.apart.sublist ((List.eraseIdx_sublist _ _).map _)
    · rw [hsavers, hlifecycle, List.length_eraseIdx_of_lt (List.getElem?_eq_some_iff.1 hv).1,
        ← h.counted]
      rfl
    · rw [hbackend] at hlog
      rw [(h.closed (hopen.symm.trans hlog)).2] at hmem
      cases hmem
    · rw [hsavers] at hx
      obtain ⟨hx, hne⟩ := mem_eraseIdx_of_nodup h.apart hv hx
      have hother : Matcher.allAccept [SiteSeries.sessionMatcher v.session] l = false := by
        refine Bool.eq_false_iff.2 fun hl' => hne ?_
        exact h.sound.serves.numbered.eq_of_key (h.sound.savers x hx) (h.sound.savers v hmem)
          (SiteSeries.key_eq_of_accepts hl hl')
      rw [hbackend]
      exact (hsealed l hother).trans (h.unsealed x hx l hl)

theorem Attended.shutDown (h : Attended dataDir bound w)
    (hs : Sound dataDir bound' (w.happen dataDir .shutDown)) :
    Attended dataDir bound' (w.happen dataDir .shutDown) := by
  cases hsavers : w.savers with
  | nil =>
    have hshut : (run Storage.shutDown w.storage).2.lifecycle =
        w.storage.lifecycle.beginShutdown := by
      obtain ⟨x, hx⟩ := Storage.shutDown_eq w.storage
      rw [hx]
      rfl
    refine ⟨hs, h.apart, ?_, fun _ => ⟨?_, hsavers⟩, fun v hv => ?_⟩
    · exact (congrArg Lifecycle.inFlight hshut).trans h.counted
    · exact congrArg Lifecycle.shutDown hshut
    · change v ∈ w.savers at hv
      rw [hsavers] at hv
      cases hv
  | cons v rest =>
    have hbusy : w.storage.lifecycle.inFlight ≠ 0 := by
      rw [h.counted, hsavers]
      exact Nat.succ_ne_zero _
    rw [happen, Storage.shutDown_busy hbusy] at hs ⊢
    exact ⟨hs, h.apart, h.counted, fun hlog => ⟨rfl, (h.closed hlog).2⟩, h.unsealed⟩

theorem openAt_fresh {syncWrite : Bool} {registry : Registry} {d d' : Disk}
    {st : Storage Database} (hn : registry.Numbered)
    (h : Storage.openAt dataDir syncWrite registry d = (.ok st, d')) :
    st.backend.log.isSome = true ∧ st.registry = registry ∧
      st.lifecycle = Lifecycle.initial := by
  rw [Storage.openAt_eq dataDir syncWrite hn] at h
  cases hrun : run (Database.openAt (dataDir ++ ["tsdb"]) syncWrite) d with
  | mk r d'' =>
    rw [hrun] at h
    cases r with
    | error e => cases h
    | ok db =>
      cases h
      exact ⟨Database.isOpen_openAt hrun, rfl, rfl⟩

theorem Attended.reopen (h : Attended dataDir bound w) (syncWrite : Bool)
    (hs : Sound dataDir bound' (w.happen dataDir (.reopen syncWrite))) :
    Attended dataDir bound' (w.happen dataDir (.reopen syncWrite)) := by
  obtain ⟨st, d, hrun, _⟩ := h.sound.serves.reopen syncWrite
  obtain ⟨hopen, _, hlifecycle⟩ := openAt_fresh h.sound.serves.numbered hrun
  rw [happen, hrun] at hs ⊢
  refine ⟨hs, List.nodup_nil, congrArg Lifecycle.inFlight hlifecycle, fun hlog => ?_,
    fun v hv => absurd hv List.not_mem_nil⟩
  rw [hopen] at hlog
  cases hlog

/-- Every event keeps the savers attended. -/
theorem Attended.happen (h : Attended dataDir bound w) {event : Event}
    (hbound : bound + event.seals ≤ UInt64.size) :
    Attended dataDir (bound + event.seals) (w.happen dataDir event) := by
  have hs := h.sound.happen hbound
  cases event with
  | start owner => exact h.start owner hs
  | save place m => exact h.save hbound place m hs
  | close place answers => exact h.close hbound place answers hs
  | shutDown => exact h.shutDown hs
  | reopen syncWrite => exact h.reopen syncWrite hs

theorem Attended.runAll (h : Attended dataDir bound w) (events : List Event)
    (hbound : bound + (events.map Event.seals).sum ≤ UInt64.size) :
    Attended dataDir (bound + (events.map Event.seals).sum) (w.runAll dataDir events) := by
  induction events generalizing bound w with
  | nil => exact h
  | cons event events ih =>
    rw [List.map_cons, List.sum_cons, ← Nat.add_assoc] at hbound ⊢
    exact ih (h.happen (Nat.le_trans (Nat.le_add_right _ _) hbound)) hbound

theorem attended_openAt (dataDir : Path) {d : Disk}
    (h : Database.Vacant (dataDir ++ ["tsdb"]) d) (syncWrite : Bool) :
    ∃ st d', Storage.openAt dataDir syncWrite Registry.empty d = (.ok st, d') ∧
      Attended dataDir 0 ⟨st, [], []⟩ := by
  obtain ⟨st, d', hrun, hs⟩ := sound_openAt dataDir h syncWrite
  obtain ⟨hopen, _, hlifecycle⟩ := openAt_fresh Registry.numbered_empty hrun
  refine ⟨st, d', hrun, hs, List.nodup_nil, congrArg Lifecycle.inFlight hlifecycle, fun hlog => ?_,
    fun v hv => absurd hv List.not_mem_nil⟩
  rw [hopen] at hlog
  cases hlog

/-! ## What is accepted -/

/-- What a save asks of a measurement: the instant and the counters fit, no call stack is in
it twice, and each is behind its last sample that was found for the session. -/
structure Acceptable (found : List Series) (m : Measurement) : Prop where
  instant : Int64.minValue.toInt ≤ m.observedAt.totalNanos ∧
    m.observedAt.totalNanos ≤ Int64.maxValue.toInt
  exact : ∀ l ∈ m.locations, l.usage.Exact
  distinct : (m.locations.map Location.stack).Nodup
  later : Later found m

/-- The outcome of a save: it succeeds exactly if the measurement is acceptable. Then four
samples are added for each location; otherwise nothing changes, on the disk either. The
samples go to the log in one frame, so those that compress to more than its length field
counts are refused as well; up to the room of a frame none are. -/
structure SavesWhole (st : Storage Database) (v : Saver Unit) (m : Measurement) : Prop where
  accepts : ∃ found, run (Database.select [SiteSeries.sessionMatcher v.session])
      (st.backend, st.disk) = (.ok found, st.backend, st.disk) ∧
    ((Packed.ofList Packed.ofSeries (Batch.ofAdds (adds v.session m))).length ≤ FileFrame.room →
      ((run (Storage.save v m) st).1 = .ok () ↔ Acceptable found m)) ∧
    ((run (Storage.save v m) st).1 = .ok () ↔
      Acceptable found m ∧ Log.Fits (Batch.ofAdds (adds v.session m)))
  added : (run (Storage.save v m) st).1 = .ok () →
    (adds v.session m).length = 4 * m.locations.length ∧
      (∀ e ∈ adds v.session m, e.2.time.toInt = m.observedAt.totalNanos) ∧
        Extends v.session m (st.backend, st.disk)
          ((run (Storage.save v m) st).2.backend, (run (Storage.save v m) st).2.disk)
  refused : ∀ e, (run (Storage.save v m) st).1 = .error e → (run (Storage.save v m) st).2 = st

theorem Attended.isOpen (h : Attended dataDir bound w) {v : Saver Unit} (hv : v ∈ w.savers) :
    w.storage.backend.log.isSome = true := by
  cases hlog : w.storage.backend.log.isSome with
  | true => rfl
  | false =>
    rw [(h.closed hlog).2] at hv
    cases hv

theorem Attended.savesWhole (h : Attended dataDir bound w) {v : Saver Unit} (hv : v ∈ w.savers)
    (m : Measurement) : SavesWhole w.storage v m := by
  have hcontains := h.sound.serves.contains
  obtain ⟨found, hselect, hfound⟩ := hcontains.select [SiteSeries.sessionMatcher v.session]
  have haccepts := hcontains.save_ok_iff (m := m) (h.sound.serves.key (h.sound.savers v hv))
    (h.isOpen hv) (h.unsealed v hv) hfound
  have hacceptable : (run (Storage.save v m) w.storage).1 = .ok () ↔
      Acceptable found m ∧ Log.Fits (Batch.ofAdds (adds v.session m)) := by
    refine haccepts.trans ⟨fun ⟨hstorable, hnodup, hlater, hfits⟩ => ?_,
      fun ⟨hm, hfits⟩ => ⟨storable_iff.2 ⟨hm.instant, hm.exact⟩, hm.distinct, hm.later, hfits⟩⟩
    obtain ⟨hinstant, hexact⟩ := storable_iff.1 hstorable
    exact ⟨⟨hinstant, hexact, hnodup, hlater⟩, hfits⟩
  refine ⟨⟨found, hselect, fun hroom => ?_, hacceptable⟩, fun hok => ?_, fun e he => ?_⟩
  · exact hacceptable.trans (and_iff_left (FileFrame.fits_of_length_le hroom))
  · have hstorable := (haccepts.1 hok).1
    refine ⟨length_adds _ _, fun e he => ?_, hcontains.save_extends hok⟩
    rw [time_of_mem_adds he, hstorable.time_eq]
  · rw [Storage.run_save] at he ⊢
    rw [hcontains.save_error he]

/-- In every state that a run from a vacant directory can reach, a live saver accepts exactly
the measurements that can be stored, each of them whole, and refuses the others without a
trace. -/
theorem save_accepts_storable (dataDir : Path) {d : Disk}
    (h : Database.Vacant (dataDir ++ ["tsdb"]) d) (syncWrite : Bool) (events : List Event)
    (hevents : (events.map Event.seals).sum ≤ UInt64.size) : ∃ opened d',
    Storage.openAt dataDir syncWrite Registry.empty d = (.ok opened, d') ∧
      let w := runAll dataDir ⟨opened, [], []⟩ events
      ∀ v ∈ w.savers, ∀ m, SavesWhole w.storage v m := by
  obtain ⟨opened, d', hrun, hattended⟩ := attended_openAt dataDir h syncWrite
  have hend := hattended.runAll events (by omega)
  exact ⟨opened, d', hrun, fun v hv m => hend.savesWhole hv m⟩

end

/-- A stream is started and measured, then shutdown begins. -/
def attendedRun : List Event := [.start ⟨"cart", "one"⟩, .save 0 laterGrowth, .shutDown]

/-- The measurement is saved, and its saver stays attended while shutdown waits for it. -/
theorem save_accepts_storable_attended :
    (attendedRun.map Event.seals).sum ≤ UInt64.size ∧ ∃ opened d',
      Storage.openAt ["data"] true Registry.empty Disk.empty = (.ok opened, d') ∧
        let w := runAll ["data"] ⟨opened, [], []⟩ attendedRun
        w.savers = [⟨firstSession, ()⟩] ∧ w.accepted = [(firstSession, laterGrowth)] ∧
          ∀ v ∈ w.savers, ∀ m, SavesWhole w.storage v m := by
  have hseals : (attendedRun.map Event.seals).sum ≤ UInt64.size := by decide
  have hwhole : (Storage.openAt (B := Database) ["data"] true Registry.empty
      Disk.empty).1.toOption.map (fun st =>
        let w := runAll ["data"] ⟨st, [], []⟩ attendedRun
        (w.savers.map Saver.session, w.accepted)) =
      some ([firstSession], [(firstSession, laterGrowth)]) := by
    decide +kernel
  obtain ⟨opened, d', hrun, hsaves⟩ := save_accepts_storable ["data"]
    (Database.vacant_empty ["data", "tsdb"]) true attendedRun hseals
  rw [hrun] at hwhole
  obtain ⟨hsessions, haccepted⟩ := Prod.mk.inj (Option.some.inj hwhole)
  refine ⟨hseals, opened, d', hrun, ?_, haccepted, hsaves⟩
  obtain ⟨v, hsavers, hsession⟩ := List.map_eq_singleton_iff.1 hsessions
  exact hsavers.trans (congrArg (fun s => [Saver.mk s ()]) hsession)

end Traffic
end HeapTelemetry
