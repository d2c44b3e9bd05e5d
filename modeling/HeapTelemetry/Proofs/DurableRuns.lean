import HeapTelemetry.Proofs.Accounting
import HeapTelemetry.Proofs.Residents
import HeapTelemetry.Proofs.Storage.Durable

/-! Runs of a collector on durable storage. While the device grants what is saved, the
storage keeps its invariant, the windows of every session of the process mirror what was
saved of it, and what can be read back of a session that is not resident stays as it is. -/

namespace HeapTelemetry
open Step SessionSeries

theorem Collector.expecting_nil {B : Type} {c : Collector B} (h : c.storage.disk.verdicts = []) :
    c.expecting [] = c := by
  rw [expecting, Disk.facing_of_granting h]

namespace Deployment
variable {B W : Type} [Backend B W] {d d' : Deployment B W}

/-! ## Calls on streams -/

/-- The device grants what a measurement asks of it. -/
def Event.SavesGranted : Event → Prop
  | .request _ (.measurement _) answers => answers = []
  | _ => True

/-- What a call on a stream comes to: nothing, a measurement offered to the storage, the end
of the stream, or a saver that it asks for. -/
inductive Turn (answers : List Verdict) (d d' : Deployment B W) : Prop
  | nothing (same : d' = d)
  | offered (v : Saver W) (m : Measurement) (held : v ∈ d.savers)
      (collector : d'.collector = (d.collector.offered v m).expecting [])
      (savers : d'.savers.Perm d.savers)
      (saved : d'.saved =
        d.saved ++ Storage.taken v m (run (Storage.save v m) d.collector.storage).1)
  | released (saver : Option (Saver W)) (rest : List (Saver W))
      (before : d.savers.Perm (saver.toList ++ rest)) (after : d'.savers.Perm rest)
      (collector : d'.collector = ((d.collector.expecting answers).released saver).expecting [])
      (saved : d'.saved = d.saved)
  | opened (owner : Instance)
      (collector : d'.collector = { d.collector with
        storage := (run (Storage.openSaver owner)
          (d.collector.storage.expecting answers)).2.expecting [] })
      (savers : d'.savers.Perm ((run (Storage.openSaver owner)
        (d.collector.storage.expecting answers)).1.toOption.toList ++ d.savers))
      (saved : d'.saved = d.saved)

theorem turn_request (dataDir : Path) (hgranting : d.collector.storage.disk.verdicts = [])
    {place : Nat} {r : Request} {answers : List Verdict}
    (hsaves : Event.SavesGranted (.request place r answers)) :
    Turn answers d (d.happen dataDir (.request place r answers)) := by
  rw [happen, onStream, saving]
  cases hp : d.streams[place]? with
  | none => exact .nothing (by simp)
  | some p =>
    obtain ⟨rest, hbefore, hafter⟩ := exists_perm_filterMap_set SaveProtocol.saver? hp
    simp only [Option.bind_some]
    cases hoffer : p.offering? r with
    | some offer =>
      obtain ⟨v, m⟩ := offer
      obtain ⟨hphase, rfl⟩ := SaveProtocol.offering?_eq_some hoffer
      have hsaver : p.saver? = some v := SaveProtocol.saver?_eq_some.2 hphase
      have hanswers : answers = [] := hsaves
      subst hanswers
      obtain ⟨p', hrun, hp'⟩ := Collector.run_offering hoffer d.collector
      simp only [Collector.expecting_nil hgranting, hrun]
      have hmem : v ∈ d.savers := hbefore.mem_iff.2 (by simp [hsaver])
      refine .offered v m hmem rfl ((hafter p').trans (hp' ▸ hbefore.symm)) ?_
      cases (run (Storage.save v m) d.collector.storage).1 <;> rfl
    | none =>
      simp only [List.append_nil]
      rcases Collector.run_other hoffer (d.collector.expecting answers) with
        hrun | ⟨hnone, owner, p', hrun, hp'⟩
      · simp only [hrun]
        exact .released p.saver? rest hbefore (hafter p.ended) rfl rfl
      · -- Only a stream that holds no saver asks for one.
        simp only [hrun]
        refine .opened owner rfl ?_ rfl
        rw [hnone] at hbefore
        exact (hafter p').trans (hp' ▸ hbefore.symm.append_left _)

theorem turn_close (dataDir : Path) (d : Deployment B W) (place : Nat) (answers : List Verdict) :
    Turn answers d (d.happen dataDir (.close place answers)) := by
  rw [happen, onStream]
  cases hp : d.streams[place]? with
  | none => exact .nothing rfl
  | some p =>
    obtain ⟨rest, hbefore, hafter⟩ := exists_perm_filterMap_set SaveProtocol.saver? hp
    simp only [Collector.run_close]
    exact .released p.saver? rest hbefore (hafter p.ended) rfl rfl

theorem turn_drop (dataDir : Path) (d : Deployment B W) (place : Nat) (answers : List Verdict) :
    Turn answers d (d.happen dataDir (.drop place answers)) := by
  rw [happen, onStream]
  cases hp : d.streams[place]? with
  | none => exact .nothing rfl
  | some p =>
    obtain ⟨rest, hbefore, hafter⟩ := exists_perm_filterMap_set SaveProtocol.saver? hp
    simp only [SaveProtocol.run_abandon, Collector.released_ports]
    exact .released p.saver? rest hbefore (hafter p.ended) rfl rfl

omit [Backend B W] in
theorem earlier_onStream (d : Deployment B W) (place : Nat) (answers : List Verdict)
    (x : Step (SaveProtocol (Saver W) × Collector B) Unit) :
    (d.onStream place answers x).earlier = d.earlier := by
  rw [onStream]
  cases d.streams[place]? <;> rfl

/-! ## The invariant -/

/-- The storage keeps its invariant and its books, the windows are current, and only
sessions of which this process saved something are resident. -/
structure Upheld (Inv : Nat → List (Session × Measurement) → List (Saver W) → Storage B → Prop)
    (n : Nat) (d : Deployment B W) : Prop where
  storage : Inv n d.saved d.savers d.collector.storage
  accounted : d.Accounted
  current : d.collector.engine.Current d.saved d.earlier
  recent : ∀ s, d.collector.engine.resident.contains s = true →
    s ∉ d.earlier ∧ acceptedOf s d.saved ≠ []

/-- Nothing is lost on the way: sessions stay known and resident, and what can be read back
of one that is not resident stays as it is. -/
structure Advances (d d' : Deployment B W) : Prop where
  window : d'.collector.engine.window = d.collector.engine.window
  issued : ∀ s ∈ d.collector.storage.registry.issued, s ∈ d'.collector.storage.registry.issued
  resident : ∀ s, d.collector.engine.resident.contains s = true →
    d'.collector.engine.resident.contains s = true
  persists : ∀ s ∈ d.collector.storage.registry.issued,
    d'.collector.engine.resident.contains s = true ∨
      Storage.Persists s d.collector.storage d'.collector.storage

variable {dataDir : Path}
  {Inv : Nat → List (Session × Measurement) → List (Saver W) → Storage B → Prop} {n : Nat}

theorem Advances.refl (d : Deployment B W) : d.Advances d :=
  ⟨rfl, fun _ hs => hs, fun _ hs => hs, fun s _ => Or.inr (Storage.Persists.refl s _)⟩

/-- Nothing was saved, and the same sessions are resident. -/
theorem Upheld.keeping {bound : Nat} (h : d.Upheld Inv bound) (haccounted : d'.Accounted)
    (hinv : Inv n d.saved d'.savers d'.collector.storage) (hsaved : d'.saved = d.saved)
    (hearlier : d'.earlier = d.earlier)
    (hcurrent : d'.collector.engine.window = d.collector.engine.window ∧
      d'.collector.engine.Current d.saved d.earlier)
    (hresident : ∀ s, d'.collector.engine.resident.contains s =
      d.collector.engine.resident.contains s)
    (hold : ∀ s ∈ d.collector.storage.registry.issued,
      s ∈ d'.collector.storage.registry.issued ∧
        Storage.Persists s d.collector.storage d'.collector.storage) :
    d'.Upheld Inv n ∧ d.Advances d' := by
  refine ⟨⟨?_, haccounted, ?_, fun s hs => ?_⟩, ⟨hcurrent.1, fun s hs => (hold s hs).1,
    fun s hs => (hresident s).trans hs, fun s hs => Or.inr (hold s hs).2⟩⟩
  · rw [hsaved]
    exact hinv
  · rw [hsaved, hearlier]
    exact hcurrent.2
  · rw [hearlier, hsaved]
    exact h.recent s (hresident s ▸ hs)

section Steps
variable (hdur : Storage.Durable dataDir Inv)
include hdur

/-! ### Turns of a stream -/

/-- Ending a stream closes its saver, whatever the device answers. -/
theorem Upheld.released (h : d.Upheld Inv (n + 1)) {answers : List Verdict}
    {saver : Option (Saver W)} {rest : List (Saver W)}
    (hbefore : d.savers.Perm (saver.toList ++ rest)) (hafter : d'.savers.Perm rest)
    (hcollector : d'.collector = ((d.collector.expecting answers).released saver).expecting [])
    (hsaved : d'.saved = d.saved) (haccounted : d'.Accounted) (hearlier : d'.earlier = d.earlier) :
    d'.Upheld Inv n ∧ d.Advances d' := by
  have hmine := hdur.perm h.storage hbefore
  have hengine : d'.collector.engine = d.collector.engine := by
    rw [hcollector]
    cases saver <;> rfl
  have hreleased : Inv n d.saved rest d'.collector.storage ∧
      d'.collector.storage.registry.issued = d.collector.storage.registry.issued ∧
      ∀ s ∈ d.collector.storage.registry.issued,
        Storage.Persists s d.collector.storage d'.collector.storage := by
    rw [hcollector]
    cases saver with
    | none =>
      have hsame : (((d.collector.expecting answers).released none).expecting []).storage =
          d.collector.storage := Storage.expecting_nil (hdur.granting h.storage)
      rw [hsame]
      exact ⟨hdur.fewer hmine, rfl, fun s _ => Storage.Persists.refl s _⟩
    | some v => exact hdur.closeSaver hmine answers
  obtain ⟨hinv, hissued, hpersists⟩ := hreleased
  exact h.keeping haccounted (hdur.perm hinv hafter.symm) hsaved hearlier
    ⟨congrArg Engine.window hengine, hengine.symm ▸ h.current⟩ (fun s => by rw [hengine])
    fun s hs => ⟨hissued ▸ hs, hpersists s hs⟩

/-- Who asks for a saver changes no session that there is. -/
theorem Upheld.opened (h : d.Upheld Inv (n + 1)) {answers : List Verdict} {owner : Instance}
    (hcollector : d'.collector = { d.collector with
      storage := (run (Storage.openSaver owner)
        (d.collector.storage.expecting answers)).2.expecting [] })
    (hsavers : d'.savers.Perm ((run (Storage.openSaver owner)
      (d.collector.storage.expecting answers)).1.toOption.toList ++ d.savers))
    (hsaved : d'.saved = d.saved) (haccounted : d'.Accounted) (hearlier : d'.earlier = d.earlier) :
    d'.Upheld Inv n ∧ d.Advances d' := by
  obtain ⟨hinv, hold⟩ := hdur.openSaver (hdur.fewer h.storage) answers owner
  have hengine : d'.collector.engine = d.collector.engine := by rw [hcollector]
  have hstorage : d'.collector.storage = (run (Storage.openSaver owner)
    (d.collector.storage.expecting answers)).2.expecting [] := by rw [hcollector]
  rw [← hstorage] at hinv hold
  exact h.keeping haccounted (hdur.perm hinv hsavers.symm) hsaved hearlier
    ⟨congrArg Engine.window hengine, hengine.symm ▸ h.current⟩ (fun s => by rw [hengine]) hold

/-- What is offered is saved and put to the windows of its session, or neither. -/
theorem Upheld.offered (h : d.Upheld Inv (n + 1)) {v : Saver W} {m : Measurement}
    (hheld : v ∈ d.savers) (hcollector : d'.collector = (d.collector.offered v m).expecting [])
    (hsavers : d'.savers.Perm d.savers)
    (hsaved : d'.saved =
      d.saved ++ Storage.taken v m (run (Storage.save v m) d.collector.storage).1)
    (haccounted : d'.Accounted) (hearlier : d'.earlier = d.earlier) :
    d'.Upheld Inv n ∧ d.Advances d' := by
  obtain ⟨hinv, hregistry, hpersists⟩ := hdur.save (hdur.fewer h.storage) v hheld m
  rw [Collector.offered] at hcollector
  cases hrun : run (Storage.save v m) d.collector.storage with
  | mk r st =>
    rw [hrun] at hcollector hsaved hinv hregistry hpersists
    have hback : st.expecting [] = st := Storage.expecting_nil (hdur.granting hinv)
    have hstorage : d'.collector.storage = st := by
      rw [hcollector]
      cases r <;> exact hback
    replace hinv := hdur.perm hinv hsavers.symm
    rw [← hstorage] at hinv hregistry hpersists
    cases r with
    | error e =>
      have hengine : d'.collector.engine = d.collector.engine := by
        rw [hcollector]
        rfl
      rw [Storage.taken, List.append_nil] at hsaved hinv
      exact h.keeping haccounted hinv hsaved hearlier
        ⟨congrArg Engine.window hengine, hengine.symm ▸ h.current⟩ (fun s => by rw [hengine])
        fun s hs => ⟨hregistry.symm ▸ hs, hpersists s hs fun _ => rfl⟩
    | ok u =>
      have hengine : d'.collector.engine = (run (Engine.put v.session m) d.collector.engine).2 := by
        rw [hcollector]
        rfl
      -- Savers do not outlive their process, so this session is of the present one.
      have hrecent : v.session ∉ d.earlier := by
        have hactive := h.accounted.active.mem_iff.2 (List.mem_map_of_mem hheld)
        exact of_decide_eq_true (List.mem_filter.1 hactive).2
      obtain ⟨hwindow, hcurrent⟩ := h.current.put v.session m
      have hcontains := Engine.contains_put d.collector.engine v.session m
      rw [← hengine] at hwindow hcurrent hcontains
      refine ⟨⟨hsaved ▸ hinv, haccounted, ?_, fun s hs => ?_⟩,
        ⟨hwindow, fun s hs => hregistry.symm ▸ hs, fun s hs => ?_, fun s hs => ?_⟩⟩
      · rw [hsaved, hearlier]
        exact hcurrent
      · rw [hcontains, Bool.or_eq_true, decide_eq_true_iff] at hs
        rw [hearlier, hsaved, Storage.taken]
        by_cases hsame : s = v.session
        · subst hsame
          exact ⟨hrecent, by simp [acceptedOf_concat]⟩
        · rw [acceptedOf_concat_other hsame]
          exact h.recent s (hs.resolve_left (Ne.symm hsame))
      · rw [hcontains, hs, Bool.or_true]
      · by_cases hsame : v.session = s
        · refine Or.inl ?_
          rw [hcontains, decide_eq_true hsame, Bool.true_or]
        · exact Or.inr (hpersists s hs fun heq => absurd heq.symm hsame)

/-- A call on a stream that grants what it saves. -/
theorem Upheld.turn (h : d.Upheld Inv (n + 1)) {answers : List Verdict}
    (hturn : Turn answers d d') (haccounted : d'.Accounted) (hearlier : d'.earlier = d.earlier) :
    d'.Upheld Inv n ∧ d.Advances d' := by
  cases hturn with
  | nothing same =>
    subst same
    exact ⟨{ h with storage := hdur.fewer h.storage }, Advances.refl _⟩
  | released saver rest before after collector saved =>
    exact h.released hdur before after collector saved haccounted hearlier
  | opened owner collector savers saved =>
    exact h.opened hdur collector savers saved haccounted hearlier
  | offered v m held collector savers saved =>
    exact h.offered hdur held collector savers saved haccounted hearlier

/-! ## Events -/

/-- The storage is the same but for who is counted, and nothing was saved. -/
theorem Upheld.elsewhere (h : d.Upheld Inv (n + 1)) (haccounted : d'.Accounted)
    (lifecycle : Lifecycle)
    (hstorage : d'.collector.storage = { d.collector.storage with lifecycle })
    (hsavers : d'.savers = d.savers) (hsaved : d'.saved = d.saved) (hearlier : d'.earlier = d.earlier)
    (hcurrent : d'.collector.engine.window = d.collector.engine.window ∧
      d'.collector.engine.Current d.saved d.earlier)
    (hresident : ∀ s, d'.collector.engine.resident.contains s =
      d.collector.engine.resident.contains s) : d'.Upheld Inv n ∧ d.Advances d' := by
  refine h.keeping haccounted ?_ hsaved hearlier hcurrent hresident fun s hs => ?_
  · rw [hstorage, hsavers]
    exact hdur.lifecycle lifecycle (hdur.fewer h.storage)
  · rw [hstorage]
    exact ⟨hs, fun _ _ hr => hr⟩

theorem Upheld.openLoader (h : d.Upheld Inv (n + 1)) (s : Session) :
    (d.happen dataDir (.openLoader s)).Upheld Inv n ∧
      d.Advances (d.happen dataDir (.openLoader s)) := by
  have haccounted := (h.accounted.openLoader dataDir s).1
  have hlocate := hdur.locate s (d.collector.storage.backend, d.collector.storage.disk)
  obtain ⟨lifecycle, hst⟩ := Storage.openLoader_lifecycle hlocate
  rw [happen_openLoader] at haccounted ⊢
  exact h.elsewhere hdur haccounted lifecycle hst rfl rfl rfl ⟨rfl, h.current⟩ fun _ => rfl

theorem Upheld.closeLoader (h : d.Upheld Inv (n + 1)) (place : Nat) :
    (d.happen dataDir (.closeLoader place)).Upheld Inv n ∧
      d.Advances (d.happen dataDir (.closeLoader place)) := by
  have haccounted := (h.accounted.closeLoader dataDir place).1
  rw [happen] at haccounted ⊢
  cases hplace : d.loaders[place]? with
  | none => exact ⟨{ h with storage := hdur.fewer h.storage }, Advances.refl d⟩
  | some s =>
    rw [hplace] at haccounted
    exact h.elsewhere hdur haccounted d.collector.storage.lifecycle.leave rfl rfl rfl
      rfl ⟨rfl, h.current⟩ fun _ => rfl

theorem Upheld.query (h : d.Upheld Inv (n + 1)) (cancelAfter : Option Nat) (s : Session) :
    (d.happen dataDir (.query cancelAfter s)).Upheld Inv n ∧
      d.Advances (d.happen dataDir (.query cancelAfter s)) := by
  obtain ⟨_, hst⟩ := Storage.run_metrics hdur.locate d.collector.engine cancelAfter s
    d.collector.storage
  exact h.elsewhere hdur (h.accounted.query cancelAfter s).1
    d.collector.storage.lifecycle hst rfl rfl rfl
    (h.current.metrics cancelAfter s d.collector.storage)
    (Engine.contains_metrics d.collector.engine cancelAfter s d.collector.storage)

/-- Nor do the feed and the clock matter. -/
theorem Upheld.onEngine (h : d.Upheld Inv (n + 1)) {f : Engine → Engine}
    (hwindow : (f d.collector.engine).window = d.collector.engine.window)
    (hresident : (f d.collector.engine).resident = d.collector.engine.resident) :
    (d.onEngine f).Upheld Inv n ∧ d.Advances (d.onEngine f) :=
  h.elsewhere hdur h.accounted d.collector.storage.lifecycle rfl rfl rfl rfl
    ⟨hwindow, h.current.congr hwindow hresident⟩ fun s => congrArg (·.contains s) hresident

theorem Upheld.shutDown (h : d.Upheld Inv (n + 1)) :
    (d.happen dataDir .shutDown).Upheld Inv n ∧ d.Advances (d.happen dataDir .shutDown) := by
  have haccounted := (h.accounted.happen dataDir .shutDown).1
  obtain ⟨hinv, hpersists⟩ := hdur.shutDown (hdur.fewer h.storage)
  obtain ⟨x, hst⟩ := Storage.shutDown_eq (W := W) d.collector.storage
  refine h.keeping haccounted hinv rfl rfl ⟨rfl, h.current.congr rfl rfl⟩ (fun _ => rfl)
    fun s hs => ⟨?_, hpersists s hs⟩
  show s ∈ (run Storage.shutDown d.collector.storage).2.registry.issued
  rw [hst]
  exact hs

/-- A collector that is started on what another one left has its storage, and nobody is
resident. -/
theorem Upheld.restart (h : d.Upheld Inv (n + 1)) (settings : Settings) (now : Nat) :
    (d.happen dataDir (.restart settings now)).Upheld Inv n := by
  have haccounted := (h.accounted.happen dataDir (.restart settings now)).1
  rw [Deployment.happen] at haccounted ⊢
  simp only at haccounted ⊢
  cases hstart : (Collector.start settings dataDir now d.collector.storage.registry
      d.collector.storage.disk : Except Error (Collector B) × Disk) with
  | mk r disk =>
    rw [hstart] at haccounted
    cases r with
    | error e => exact { h with storage := hdur.fewer h.storage }
    | ok c =>
      obtain ⟨_, hopen, hengine⟩ := start_ok hstart
      obtain ⟨st, disk', hreopen, hinv⟩ := hdur.reopen (hdur.fewer h.storage) settings.storage.syncWrite
      have hst : c.storage = st := by
        rw [hopen] at hreopen
        exact Except.ok.inj (congrArg Prod.fst hreopen)
      subst hst
      refine ⟨hinv, haccounted, ?_, fun s hs => ?_⟩
      · simp only [started, hengine]
        exact Engine.current_initial _ _ _ (hdur.issued hinv)
      · simp only [started, hengine] at hs
        cases hs

/-- Every event upholds the invariant, and nothing is lost as long as the process lasts. -/
theorem Upheld.happen (h : d.Upheld Inv (n + 1)) {event : Event} (hsaves : event.SavesGranted) :
    (d.happen dataDir event).Upheld Inv n ∧
      (event.isRestart = false → d.Advances (d.happen dataDir event)) := by
  have haccounted := (h.accounted.happen dataDir event).1
  have hkept : ∀ {d' : Deployment B W}, d'.Upheld Inv n ∧ d.Advances d' →
      d'.Upheld Inv n ∧ (event.isRestart = false → d.Advances d') := fun hd => ⟨hd.1, fun _ => hd.2⟩
  cases event with
  | connect =>
    refine hkept (h.elsewhere hdur haccounted d.collector.storage.lifecycle rfl ?_
      rfl rfl ⟨rfl, h.current⟩ fun _ => rfl)
    simp [Deployment.happen, savers]
  | request place r answers =>
    exact hkept (h.turn hdur (turn_request dataDir (hdur.granting h.storage) hsaves) haccounted
      (earlier_onStream d place answers _))
  | close place answers =>
    exact hkept (h.turn hdur (turn_close dataDir d place answers) haccounted
      (earlier_onStream d place answers _))
  | drop place answers =>
    exact hkept (h.turn hdur (turn_drop dataDir d place answers) haccounted
      (earlier_onStream d place answers _))
  | openLoader s => exact hkept (h.openLoader hdur s)
  | closeLoader place => exact hkept (h.closeLoader hdur place)
  | query cancelAfter s => exact hkept (h.query hdur cancelAfter s)
  | listen change =>
    rw [Deployment.happen]
    exact hkept (h.onEngine hdur rfl rfl)
  | advance duration =>
    rw [Deployment.happen]
    exact hkept (h.onEngine hdur rfl rfl)
  | setClock time =>
    exact hkept (h.keeping haccounted (hdur.setClock time (hdur.fewer h.storage)) rfl rfl
      ⟨rfl, h.current⟩ (fun _ => rfl) fun _ hs => ⟨hs, fun _ _ hr => hr⟩)
  | collect elapsed =>
    rw [Deployment.happen]
    exact hkept (h.onEngine hdur rfl rfl)
  | shutDown => exact hkept (h.shutDown hdur)
  | restart settings now => exact ⟨h.restart hdur settings now, fun hrestart => by cases hrestart⟩

theorem Upheld.runAll {events : List Event} (h : d.Upheld Inv (n + events.length))
    (hsaves : ∀ event ∈ events, event.SavesGranted) : (d.runAll dataDir events).Upheld Inv n := by
  induction events generalizing d with
  | nil => exact h
  | cons event events ih =>
    have hnext := (h.happen hdur (hsaves event List.mem_cons_self)).1
    exact ih hnext fun e he => hsaves e (List.mem_cons_of_mem _ he)

end Steps

omit [Backend B W] in
/-- A collector that was just started on a registry without sessions, whatever its windows. -/
theorem upheld_started {c : Collector B} (hstorage : Inv n [] [] c.storage)
    (haccounted : (started c : Deployment B W).Accounted) {window feedDepth : Nat}
    {cache : Option TimedCache} (hengine : c.engine = Engine.initial window feedDepth cache) :
    (started c : Deployment B W).Upheld Inv n := by
  refine ⟨hstorage, haccounted, ?_, fun s hs => ?_⟩
  · simp only [started, hengine]
    exact Engine.current_initial _ _ _ fun _ he => absurd he List.not_mem_nil
  · simp only [started, hengine] at hs
    cases hs

end Deployment
end HeapTelemetry
