import HeapTelemetry.Proofs.Feeds
import HeapTelemetry.Proofs.SeriesAnswers
import HeapTelemetry.Proofs.Storage.SealedSeries
import HeapTelemetry.Proofs.Storage.SessionNames
import HeapTelemetry.Proofs.Storage.Tenants

/-! Both backends isolate sessions. A file has the lines of its own session alone, and the
series of a session are accepted by no other session's matcher, so neither what others save
nor what sealing moves for them is seen when a session is read. -/

namespace HeapTelemetry
open Step SessionSeries

/-! ## Files -/

namespace Tenants
open Storage

variable {dataDir : Path} {n : Nat}

/-- Tenants of files. -/
abbrev OnFiles (dataDir : Path) : Nat → Tenants SessionFiles Handle → Prop :=
  Kept fun _ saved savers st => Files dataDir saved savers st

theorem read_of_find? {st st' : Storage SessionFiles} {s : Session}
    (hverdicts : st'.disk.verdicts = st.disk.verdicts) (hbackend : st'.backend = st.backend)
    (hfind : st'.disk.find? (st.backend.path s) = st.disk.find? (st.backend.path s)) :
    st'.read s = st.read s := by
  show SessionFiles.read s (st'.backend, st'.disk) = SessionFiles.read s (st.backend, st.disk)
  rw [SessionFiles.read, SessionFiles.read, hbackend, hfind, hverdicts]

theorem isolating_files (dataDir : Path) : Isolating (OnFiles dataDir) where
  held h := h.held
  fewer h := ⟨h.held, h.keeps⟩
  start h owner answers := h.start (durable_files dataDir) owner answers
  saving h v hv m := h.saving (durable_files dataDir) hv m
  closing h v hv answers := h.closing (durable_files dataDir) hv answers
  saved {n w} h v hv s hs hne m := by
    obtain ⟨hissued, hpath, _⟩ := h.keeps.savers v hv
    obtain ⟨_, hothers⟩ := h.keeps.appended hv m
    have hrun : run (Backend.save v.session v.writer m) (w.storage.backend, w.storage.disk) = _ :=
      SessionFiles.run_save (f := w.storage.backend) h.keeps.granting v.session v.writer m
    show (run (Storage.save v m) w.storage).2.read s = w.storage.read s
    rw [save_eq, hrun]
    have hverdicts := (Disk.kept_change v.writer (· ++ Record.encode m)).granting h.keeps.granting
    exact read_of_find? (hverdicts.trans h.keeps.granting.symm) rfl
      (hothers _ (hpath ▸ h.keeps.path_ne hs hissued hne))
  closed {n w} h v hv s hs answers := by
    have hdisk : (w.storage.disk.facing answers).facing [] = w.storage.disk :=
      Disk.facing_of_granting h.keeps.granting
    show ((run (Storage.closeSaver v) (w.storage.expecting answers)).2.expecting []).read s = _
    rw [closeSaver_eq]
    exact read_of_find? (congrArg Disk.verdicts hdisk) rfl
      (congrArg (·.find? (w.storage.backend.path s)) hdisk)
  own {n n' w w'} h h' v hv hv' ha m := by
    obtain ⟨st, hrun, _, hfiles, _⟩ := h.keeps.save hv m
    obtain ⟨st', hrun', _, hfiles', _⟩ := h'.keeps.save hv' m
    have hne : ∀ saved, acceptedOf v.session (saved ++ [(v.session, m)]) ≠ [] := fun saved => by
      rw [acceptedOf_concat]
      simp
    refine ⟨by rw [hrun, hrun'], ?_⟩
    show (run (Storage.save v m) w.storage).2.read v.session =
      (run (Storage.save v m) w'.storage).2.read v.session
    rw [hrun, hrun', hfiles.read_saved (hne _), hfiles'.read_saved (hne _), acceptedOf_concat,
      acceptedOf_concat, ha.accepted]

/-! ## Series -/

/-- Tenants of series. No series of a session that is still saved is sealed. -/
structure OnSeries (dataDir : Path) (n : Nat) (w : Tenants Database Unit) : Prop where
  kept : Kept (Storage.Series dataDir) n w
  isOpen : w.storage.backend.log.isSome = true
  unsealed : ∀ v ∈ w.savers, ∀ l, Matcher.allAccept [SiteSeries.sessionMatcher v.session] l = true →
    w.storage.backend.sealedIn.contains l = false

section Series
variable {w : Tenants Database Unit}

theorem OnSeries.serves (h : OnSeries dataDir n w) : ∃ bound, bound + n ≤ UInt64.size ∧
    w.storage.Serves dataDir w.saved bound := h.kept.keeps.serves

/-- The matcher of a session accepts no series of another one. -/
theorem OnSeries.accepts_other (h : OnSeries dataDir n w) {s t : Session}
    (hs : s ∈ w.storage.registry.issued) (ht : t ∈ w.storage.registry.issued) (hne : s ≠ t)
    {l : Labels} (hl : Matcher.allAccept [SiteSeries.sessionMatcher s] l = true) :
    Matcher.allAccept [SiteSeries.sessionMatcher t] l = false := by
  obtain ⟨_, _, hserves⟩ := h.serves
  refine Bool.eq_false_iff.2 fun hl' => hne ?_
  exact hserves.numbered.eq_of_key hs ht (SiteSeries.key_eq_of_accepts hl hl')

/-- Of a session that is started nothing was saved, so nothing of it is sealed. -/
theorem OnSeries.start (h : OnSeries dataDir n w) (owner : Instance) (answers : List Verdict) :
    OnSeries dataDir n (w.happen (.start owner answers)) := by
  obtain ⟨_, _, hserves⟩ := h.serves
  have hkept := h.kept.start (durable_series dataDir) owner answers
  have hrun : ((run (openSaver owner : Step (Storage Database) (Saver Unit))
      (w.storage.expecting answers)).1, (w.happen (.start owner answers)).storage) =
        run (openSaver owner) w.storage := openSaver_facing hserves.granting answers owner
  have hsavers : (w.happen (.start owner answers)).savers =
      (run (openSaver owner : Step (Storage Database) (Saver Unit))
        w.storage).1.toOption.toList ++ w.savers := by
    rw [← hrun]
    rfl
  have hstorage := congrArg Prod.snd hrun
  simp only at hstorage
  have hnew : ∀ l, Matcher.allAccept [SiteSeries.sessionMatcher
      ⟨owner, (w.storage.registry.lastId + 1 : Nat)⟩] l = true →
        w.storage.backend.sealedIn.contains l = false := by
    refine fun l => hserves.contains.unsealed fun e he hkey => ?_
    have hle := hserves.numbered.bounded _ (hserves.issued e he)
    have hid := Session.id_eq_of_key_eq hkey
    simp only at hid
    omega
  rw [run_openSaver] at hsavers hstorage
  refine ⟨hkept, ?_, ?_⟩
  · rw [hstorage]
    split
    · exact h.isOpen
    split <;> exact h.isOpen
  · rw [hsavers, hstorage]
    split
    · exact h.unsealed
    split
    · exact h.unsealed
    · exact List.forall_mem_cons.2 ⟨hnew, h.unsealed⟩

theorem OnSeries.saving (h : OnSeries dataDir n w) {v : Saver Unit} (hv : v ∈ w.savers)
    (m : Measurement) : OnSeries dataDir n (w.saving v m) := by
  obtain ⟨_, hbound, hserves⟩ := h.serves
  obtain ⟨hsealed, hopen⟩ := hserves.contains.save_kept (by omega) v.session m
  refine ⟨h.kept.saving (durable_series dataDir) hv m, hopen.trans h.isOpen, fun v' hv' l hl => ?_⟩
  exact (hsealed l).trans (h.unsealed v' hv' l hl)

theorem backend_closing (w : Tenants Database Unit) (v : Saver Unit) (answers : List Verdict) :
    (w.closing v answers).storage.backend =
      (run (SessionSeries.finish v.session ())
        (w.storage.backend, w.storage.disk.facing answers)).2.1 := by
  rw [Tenants.closing, closeSaver_eq]
  rfl

/-- What a close seals is of the session that is closed. -/
theorem OnSeries.sealed_closing (h : OnSeries dataDir (n + 1) w) {v : Saver Unit}
    (hv : v ∈ w.savers) (answers : List Verdict) {s : Session}
    (hs : s ∈ w.storage.registry.issued) (hne : s ≠ v.session) {l : Labels}
    (hl : Matcher.allAccept [SiteSeries.sessionMatcher s] l = true) :
    (w.closing v answers).storage.backend.sealedIn.contains l =
      w.storage.backend.sealedIn.contains l := by
  obtain ⟨_, hbound, hserves⟩ := h.serves
  obtain ⟨hsealed, _⟩ := hserves.contains.finish_kept (by omega) v.session answers
  rw [backend_closing]
  exact hsealed l (h.accepts_other hs (h.kept.held.issued v hv) hne hl)

theorem OnSeries.closing (h : OnSeries dataDir (n + 1) w) {v : Saver Unit} (hv : v ∈ w.savers)
    (answers : List Verdict) : OnSeries dataDir n (w.closing v answers) := by
  obtain ⟨_, hbound, hserves⟩ := h.serves
  obtain ⟨_, hopen⟩ := hserves.contains.finish_kept (by omega) v.session answers
  rw [← backend_closing] at hopen
  refine ⟨h.kept.closing (durable_series dataDir) hv answers, hopen.trans h.isOpen, ?_⟩
  intro v' hv' l hl
  obtain ⟨hv', hne⟩ := List.mem_filter.1 hv'
  rw [h.sealed_closing hv answers (h.kept.held.issued v' hv') (of_decide_eq_true hne) hl]
  exact h.unsealed v' hv' l hl

/-- Where the same was accepted of a session, the same is read. -/
theorem OnSeries.read_congr (h : OnSeries dataDir n w) {n' : Nat} {w' : Tenants Database Unit}
    (h' : OnSeries dataDir n' w') {s : Session} (hs : s ∈ w.storage.registry.issued)
    (hs' : s ∈ w'.storage.registry.issued)
    (hsame : acceptedOf s w.saved = acceptedOf s w'.saved) :
    w.storage.read s = w'.storage.read s := by
  obtain ⟨_, _, hserves⟩ := h.serves
  obtain ⟨_, _, hserves'⟩ := h'.serves
  exact hserves.contains.read_congr hserves'.contains (hserves.key hs) (hserves'.key hs') hsame

theorem isolating_series (dataDir : Path) : Isolating (OnSeries dataDir) where
  held h := h.kept.held
  fewer h := ⟨⟨h.kept.held, (durable_series dataDir).fewer h.kept.keeps⟩, h.isOpen, h.unsealed⟩
  start h owner answers := h.start owner answers
  saving h v hv m := h.saving hv m
  closing h v hv answers := h.closing hv answers
  saved {n w} h v hv s hs hne m := by
    refine (h.saving hv m).read_congr h hs hs ((acceptedOf_taken s w.saved v m _).trans ?_)
    rw [if_neg (Ne.symm hne), List.append_nil]
  closed {n w} h v hv s hs answers :=
    (h.closing hv answers).read_congr h ((issued_closing w v answers).symm ▸ hs) hs rfl
  own {n n' w w'} h h' v hv hv' ha m := by
    obtain ⟨_, _, hserves⟩ := h.serves
    obtain ⟨_, _, hserves'⟩ := h'.serves
    have hs := h.kept.held.issued v hv
    have hs' := h'.kept.held.issued v hv'
    have htaken : (run (Storage.save v m) w.storage).1.toOption =
        (run (Storage.save v m) w'.storage).1.toOption :=
      hserves.contains.save_congr hserves'.contains (hserves.key hs) (hserves'.key hs') ha.accepted
        (h.isOpen.trans h'.isOpen.symm)
        (fun l hl => (h.unsealed v hv l hl).trans (h'.unsealed v hv' l hl).symm) m
    refine ⟨htaken, (h.saving hv m).read_congr (h'.saving hv' m) hs hs' ?_⟩
    refine (acceptedOf_taken _ w.saved v m _).trans ?_
    rw [taken_of_toOption v m htaken, ha.accepted]
    exact (acceptedOf_taken _ w'.saved v m _).symm

/-- No use of other sessions seals a series of a session. -/
theorem OnSeries.sealed_use {u : Use} (h : OnSeries dataDir (n + u.closes) w) {s : Session}
    (hs : s ∈ w.storage.registry.issued) (hother : u.session ≠ s) {l : Labels}
    (hl : Matcher.allAccept [SiteSeries.sessionMatcher s] l = true) :
    (w.use u).storage.backend.sealedIn.contains l = w.storage.backend.sealedIn.contains l := by
  cases u with
  | save t m =>
    rw [Tenants.use]
    cases hv : w.saver? t with
    | none => rfl
    | some v =>
      obtain ⟨_, hbound, hserves⟩ := h.serves
      exact (hserves.contains.save_kept (by omega) v.session m).1 l
  | close t answers =>
    rw [Tenants.use]
    cases hv : w.saver? t with
    | none => rfl
    | some v =>
      obtain ⟨hmem, rfl⟩ := saver?_eq_some hv
      exact OnSeries.sealed_closing h hmem answers hs (Ne.symm hother) hl

theorem OnSeries.sealed_useAll {uses : List Use}
    (h : OnSeries dataDir (n + (uses.map Use.closes).sum) w) {s : Session}
    (hs : s ∈ w.storage.registry.issued) (hothers : ∀ u ∈ uses, u.session ≠ s) {l : Labels}
    (hl : Matcher.allAccept [SiteSeries.sessionMatcher s] l = true) :
    (w.useAll uses).storage.backend.sealedIn.contains l =
      w.storage.backend.sealedIn.contains l := by
  induction uses generalizing w with
  | nil => rfl
  | cons u uses ih =>
    obtain ⟨hother, hothers⟩ := List.forall_mem_cons.1 hothers
    rw [List.map_cons, List.sum_cons, Nat.add_comm u.closes, ← Nat.add_assoc] at h
    exact (ih ((isolating_series dataDir).use h) (issued_use w u ▸ hs) hothers).trans
      (h.sealed_use hs hother hl)

end Series

/-! ## Isolated sessions -/

/-- Nobody uses a storage that was just opened. -/
theorem held_opened {B W : Type} [Backend B W] {syncWrite : Bool} {disk disk' : Disk}
    {st : Storage B} (hopen : openAt dataDir syncWrite Registry.empty disk = (.ok st, disk')) :
    (⟨st, [], []⟩ : Tenants B W).Held := by
  obtain ⟨hregistry, hlifecycle⟩ := openAt_ok Registry.numbered_empty hopen
  exact ⟨_, (accounts_opened st.backend st.disk Registry.numbered_empty).congr hregistry
    (congrArg Lifecycle.inFlight hlifecycle)⟩

theorem onFiles_openAt {d : Disk} (h : Database.Vacant (dataDir ++ ["sessions"]) d)
    (syncWrite : Bool) (n : Nat) : ∃ st d', openAt dataDir syncWrite Registry.empty d = (.ok st, d') ∧
      OnFiles dataDir n ⟨st, [], []⟩ := by
  obtain ⟨st, d', hopen, hfiles⟩ := files_openAt h syncWrite
  exact ⟨st, d', hopen, held_opened hopen, hfiles⟩

theorem onSeries_openAt {d : Disk} (h : Database.Vacant (dataDir ++ ["tsdb"]) d) (syncWrite : Bool)
    (hn : n ≤ UInt64.size) : ∃ st d', openAt dataDir syncWrite Registry.empty d = (.ok st, d') ∧
      OnSeries dataDir n ⟨st, [], []⟩ := by
  obtain ⟨st, d', hopen, hregistry, hserves⟩ := serves_openAt h syncWrite
  obtain ⟨db, d'', hrun, _, hfollows⟩ := Database.follows_openAt h syncWrite
  have hdb : st.backend = db := by
    rw [openAt_eq dataDir syncWrite Registry.numbered_empty, hrun] at hopen
    cases hopen
    rfl
  refine ⟨st, d', hopen, ⟨held_opened hopen, ⟨⟨0, by omega, hserves⟩, fun _ hv => ?_⟩⟩, ?_,
    fun _ hv => absurd hv List.not_mem_nil⟩
  · exact absurd hv List.not_mem_nil
  · exact hdb ▸ hfollows.isOpen

/-- What is read from files was accepted. -/
theorem accepted_of_read_files {w : Tenants SessionFiles Handle} (h : OnFiles dataDir n w)
    {s : Session} (hs : s ∈ w.storage.registry.issued) {m : Measurement}
    (hm : .ok m ∈ (w.storage.read s).toList) : m ∈ acceptedOf s w.saved := by
  have hread : w.storage.read s = SessionFiles.read s (w.storage.backend, w.storage.disk) := rfl
  rw [hread] at hm
  obtain ⟨hnone, _⟩ | ⟨number, hfile⟩ := h.keeps.stored s hs
  · rw [SessionFiles.read, hnone] at hm
    simp [Reading.toList] at hm
  · rw [SessionFiles.read_file h.keeps.granting hfile, SessionFiles.records_encode] at hm
    obtain ⟨m', hm', heq⟩ := List.mem_map.1 hm
    cases heq
    exact hm'

/-- What is read from series are locations that were accepted, at the instants of them. -/
theorem accepted_of_read_series {w : Tenants Database Unit} (h : OnSeries dataDir n w)
    {s : Session} (hs : s ∈ w.storage.registry.issued) {m : Measurement}
    (hm : .ok m ∈ (w.storage.read s).toList) : m.locations ≠ [] ∧ ∀ l ∈ m.locations,
      ∃ m' ∈ acceptedOf s w.saved, m'.observedAt.nanos? = some m.time ∧ l ∈ m'.locations := by
  obtain ⟨_, _, hserves⟩ := h.serves
  have hread : w.storage.read s = SessionSeries.read s (w.storage.backend, w.storage.disk) := rfl
  by_cases hids : Measurement.DistinctIds (acceptedOf s w.saved)
  · obtain ⟨out, hout, hreassembled⟩ := hserves.read hs hids
    rw [hread, hout] at hm
    obtain ⟨m', hm', heq⟩ := List.mem_map.1 hm
    cases heq
    refine ⟨hreassembled.inhabited m hm', fun l hl => ?_⟩
    have htime : m.observedAt.nanos? = some m.time := by
      rw [hreassembled.timed m hm']
      exact Timestamp.nanos?_ofNanos _
    have hat : l ∈ Measurement.locationsAt out m.time :=
      List.mem_flatMap.2 ⟨m, List.mem_filter.2 ⟨hm', decide_eq_true htime⟩, hl⟩
    obtain ⟨m'', hm'', hl⟩ := List.mem_flatMap.1 ((hreassembled.locations m.time).mem_iff.1 hat)
    obtain ⟨hm'', htime⟩ := List.mem_filter.1 hm''
    exact ⟨m'', hm'', of_decide_eq_true htime, hl⟩
  · obtain ⟨k, hfailed⟩ := (hserves.contains.read (hserves.key hs)).2 hids
    rw [hread, hfailed] at hm
    simp [Reading.toList] at hm

/-- Whatever the sessions of a registry are called, they have keys and files of their own,
the files lie three plain components below the root, and what is broadcast for one of them
reaches no subscriber of another. On either backend, at every point of every run, reading a
session yields what was accepted of it, and neither what is read nor what is accepted of it
later depends on what is done with the others. What others save or close seals none of its
series. -/
theorem sessions_isolated (dataDir : Path) {d : Disk}
    (hfiles : Database.Vacant (dataDir ++ ["sessions"]) d)
    (hseries : Database.Vacant (dataDir ++ ["tsdb"]) d) (syncWrite : Bool)
    (requests : List Registry.Request) (events : List Event) (uses : List Use)
    (hcloses : (uses.map Use.closes).sum + (events.map Event.closes).sum ≤ UInt64.size) :
    (Registry.runAll requests).issued.Nodup ∧
    (∀ s ∈ (Registry.runAll requests).issued, ∀ f : SessionFiles,
      (∃ a b c, f.path s = f.root ++ [a, b, c] ∧
        PlainComponent a ∧ PlainComponent b ∧ PlainComponent c) ∧
      ∀ t ∈ (Registry.runAll requests).issued, s ≠ t → s.key ≠ t.key ∧ f.path s ≠ f.path t ∧
        ∀ {α : Type} (feed : Feed α) (update : α),
          (feed.broadcast t.key update).2.subscribers s.key = feed.subscribers s.key) ∧
    (∃ st d', openAt dataDir syncWrite Registry.empty d = (.ok st, d') ∧
      let w : Tenants SessionFiles Handle := runAll ⟨st, [], []⟩ events
      ∀ s ∈ w.storage.registry.issued,
        (∀ m, .ok m ∈ (w.storage.read s).toList → m ∈ acceptedOf s w.saved) ∧
        Alike s (w.useAll uses) (w.useAll (uses.filter (·.session = s)))) ∧
    ∃ st d', openAt dataDir syncWrite Registry.empty d = (.ok st, d') ∧
      let w : Tenants Database Unit := runAll ⟨st, [], []⟩ events
      ∀ s ∈ w.storage.registry.issued,
        (∀ m, .ok m ∈ (w.storage.read s).toList → m.locations ≠ [] ∧ ∀ l ∈ m.locations,
          ∃ m' ∈ acceptedOf s w.saved, m'.observedAt.nanos? = some m.time ∧ l ∈ m'.locations) ∧
        Alike s (w.useAll uses) (w.useAll (uses.filter (·.session = s))) ∧
        ((∀ u ∈ uses, u.session ≠ s) → ∀ l,
          Matcher.allAccept [SiteSeries.sessionMatcher s] l = true →
            (w.useAll uses).storage.backend.sealedIn.contains l =
              w.storage.backend.sealedIn.contains l) := by
  have hchecked := Registry.checked_runAll requests
  refine ⟨hchecked.numbered.nodup_issued, ?names, ?files, ?series⟩
  case names =>
    refine fun s hs f => ⟨f.path_components (hchecked.owners s hs), fun t ht hne => ?_⟩
    obtain ⟨_, hkey, hpath⟩ := hchecked.apart hs ht hne f
    refine ⟨hkey, hpath, fun feed update => ?_⟩
    rw [Feed.subscribers_broadcast, if_neg (Ne.symm hkey)]
  case files =>
    obtain ⟨st, d', hopen, hstart⟩ := onFiles_openAt hfiles syncWrite
      ((uses.map Use.closes).sum + (events.map Event.closes).sum)
    have hisolating := isolating_files dataDir
    have hw := hisolating.runAll hstart
    exact ⟨st, d', hopen, fun s hs => ⟨fun m => accepted_of_read_files hw hs,
      hisolating.alike_useAll hw hs⟩⟩
  case series =>
    obtain ⟨st, d', hopen, hstart⟩ := onSeries_openAt hseries syncWrite hcloses
    have hisolating := isolating_series dataDir
    have hw := hisolating.runAll hstart
    refine ⟨st, d', hopen, fun s hs => ⟨fun m => accepted_of_read_series hw hs,
      hisolating.alike_useAll hw hs, fun hothers l hl => ?_⟩⟩
    rw [← Nat.zero_add (uses.map Use.closes).sum] at hw
    exact hw.sealed_useAll hs hothers hl

/-- Owners whose names run together in keys or in paths. -/
def confusable : List Instance := [⟨"a", "b::c"⟩, ⟨"a::b", "c"⟩, ⟨"..", "é/."⟩, ⟨"__", "é_."⟩]

/-- All of them are started, the first two save the same, and one of these is closed. -/
def confusableRun : List Event :=
  let m : Measurement := ⟨Timestamp.ofNanos 5, [⟨⟨[⟨"grow", "heap.c", 7⟩]⟩, ⟨2, 64, 1, 32⟩⟩]⟩
  confusable.map (Event.start · []) ++ [.use (.save ⟨⟨"a", "b::c"⟩, 1⟩ m),
    .use (.save ⟨⟨"a::b", "c"⟩, 2⟩ m), .use (.close ⟨⟨"a", "b::c"⟩, 1⟩ [.grant, .refuse])]

theorem sessions_isolated_confusable :
    let uses : List Use := [.close ⟨⟨"a::b", "c"⟩, 2⟩ [],
      .save ⟨⟨"..", "é/."⟩, 3⟩ ⟨Timestamp.ofNanos 0, []⟩]
    (uses.map Use.closes).sum + (confusableRun.map Event.closes).sum ≤ UInt64.size ∧
      (Registry.runAll (confusable.map .start)).issued.Nodup ∧
      ∃ st d', openAt ["data"] true Registry.empty Disk.empty = (.ok st, d') ∧
        let w : Tenants Database Unit := runAll ⟨st, [], []⟩ confusableRun
        ∀ s ∈ w.storage.registry.issued,
          Alike s (w.useAll uses) (w.useAll (uses.filter (·.session = s))) := by
  intro uses
  have hcloses :
      (uses.map Use.closes).sum + (confusableRun.map Event.closes).sum ≤ UInt64.size := by decide
  obtain ⟨hnodup, _, _, st, d', hopen, hsessions⟩ := sessions_isolated ["data"]
    (Database.vacant_empty ["data", "sessions"]) (Database.vacant_empty ["data", "tsdb"]) true
    (confusable.map .start) confusableRun uses hcloses
  exact ⟨hcloses, hnodup, st, d', hopen, fun s hs => (hsessions s hs).2.1⟩

end Tenants
end HeapTelemetry
