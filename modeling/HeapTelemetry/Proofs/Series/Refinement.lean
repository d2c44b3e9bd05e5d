import HeapTelemetry.Proofs.Series.Upkeep
import Mathlib.Algebra.GroupWithZero.Nat

/-! The series database refines a map from label sets to samples. A ledger
follows the outcomes of a run of calls, seals that meet failures and reopenings
included; after every run the database answers and accepts as the ledger says. -/

namespace HeapTelemetry.Database
open Step

/-! ## Calls and the ledger -/

/-- What is called on a database. A transaction ends by commit or rollback; the
device gives these answers to a seal; who reopens a database has dropped it. -/
inductive Call
  | commit (adds : List (Labels × Sample))
  | rollback (adds : List (Labels × Sample))
  | sealing (ms : List Matcher) (answers : List Verdict)
  | close
  | reopen (syncWrite : Bool)

/-- Makes a call; everything but a seal meets a device that grants all. -/
def perform [Compressor] : Call → Step (Database × Disk) Unit
  | .commit adds => discard (commit (Batch.ofAdds adds))
  | .rollback _ => pure ()
  | .sealing ms answers => fun (db, d) =>
    let r := run (sealMatching ms) (db, d.facing answers)
    (r.1.map fun _ => (), r.2.1, r.2.2.facing [])
  | .close => close
  | .reopen syncWrite => fun (db, d) =>
    match run (openAt db.dir syncWrite) d with
    | (.ok reopened, d) => (.ok (), reopened, d)
    | (.error e, d) => (.error e, db, d)

/-- How many block numbers a call may use. -/
def Call.seals : Call → Nat
  | .sealing .. => 1
  | _ => 0

/-- A plain map of label sets to samples, with the series that take no more. -/
structure Ledger where
  samples : Labels → List Sample
  isSealed : Labels → Bool
  isOpen : Bool

namespace Ledger

def empty : Ledger := ⟨fun _ => [], fun _ => false, true⟩

/-- The samples that a transaction adds to a label set. -/
def added (adds : List (Labels × Sample)) (l : Labels) : List Sample :=
  (adds.filter (·.1 = l)).map Prod.snd

/-- The ledger after a call with this outcome; a call that failed left no trace. -/
def after (ledger : Ledger) : Call → Except Error Unit → Ledger
  | .commit adds, .ok _ =>
    { ledger with samples := fun l => ledger.samples l ++ added adds l }
  | .sealing ms _, .ok _ =>
    { ledger with isSealed := fun l =>
        ledger.isSealed l || (!(ledger.samples l).isEmpty && Matcher.allAccept ms l) }
  | .close, .ok _ => { ledger with isOpen := false }
  | .reopen _, .ok _ => { ledger with isOpen := true }
  | _, _ => ledger

/-- Only transactions bring samples. -/
theorem after_samples (ledger : Ledger) {call : Call} (h : ∀ adds, call ≠ .commit adds)
    (r : Except Error Unit) : (ledger.after call r).samples = ledger.samples := by
  cases call with
  | commit adds => exact absurd rfl (h adds)
  | rollback | sealing | close | reopen => cases r <;> rfl

/-- No series of the transaction is sealed, and each goes on from its last sample. -/
def Admits (ledger : Ledger) (adds : List (Labels × Sample)) : Prop :=
  ∀ l, added adds l ≠ [] →
    ledger.isSealed l = false ∧ Continues (ledger.samples l) (added adds l)

end Ledger

/-- Makes the calls one after the other, with the ledger beside. -/
def follow [Compressor] : List Call → Ledger × (Database × Disk) → Ledger × (Database × Disk)
  | [], s => s
  | call :: calls, (ledger, s) =>
    follow calls (ledger.after call (run (perform call) s).1, (run (perform call) s).2)

/-! ## The invariant of a run -/

/-- A sound database that holds the samples of the ledger. -/
structure Follows [Compressor] (ledger : Ledger) (bound : Nat) (db : Database) (d : Disk) :
    Prop where
  sound : ∃ blocks logNumber batches, Sound blocks logNumber batches bound db d ∧
    ∀ l, held db blocks l = ledger.samples l
  isSealed : ∀ l, db.sealedIn.contains l = ledger.isSealed l
  isOpen : db.log.isSome = ledger.isOpen
  ascending : ∀ l, (ledger.samples l).Pairwise (·.time < ·.time)

variable {ledger : Ledger} {bound : Nat} {db : Database} {d : Disk}

theorem Follows.mono [Compressor] (h : Follows ledger bound db d) {bound' : Nat}
    (hle : bound ≤ bound') : Follows ledger bound' db d := by
  obtain ⟨blocks, logNumber, batches, hs, hheld⟩ := h.sound
  exact { h with
    sound := ⟨blocks, logNumber, batches,
      { hs with bounded := Nat.le_trans hs.bounded hle }, hheld⟩ }

theorem Follows.select [Compressor] (h : Follows ledger bound db d) (ms : List Matcher) :
    ∃ found, run (Database.select ms) (db, d) = (.ok found, db, d) ∧
      Answers ledger.samples ms found := by
  obtain ⟨blocks, logNumber, batches, hs, hheld⟩ := h.sound
  obtain ⟨found, hrun, hfound⟩ := hs.run_select ms
  have hsamples : held db blocks = ledger.samples := funext hheld
  exact ⟨found, hrun, hsamples ▸ hfound⟩

/-! ### Commit -/

theorem size_ofAdds_ne_zero {adds : List (Labels × Sample)} (h : adds ≠ []) :
    (Batch.ofAdds adds).size ≠ 0 := by
  rw [Batch.size_ofAdds]
  exact fun hlen => h (List.eq_nil_of_length_eq_zero hlen)

section
variable [Compressor]

theorem check_iff_admits (h : Follows ledger bound db d) (adds : List (Labels × Sample)) :
    db.check (Batch.ofAdds adds) = .ok () ↔ ledger.Admits adds := by
  obtain ⟨blocks, logNumber, batches, hs, hheld⟩ := h.sound
  have hmem := Batch.mem_iff_samples (Batch.sorted_ofAdds adds).distinct
    (Batch.samples_ne_nil_ofAdds adds)
  rw [hs.check_iff]
  constructor
  · intro hall l hl
    have hx : (⟨l, Ledger.added adds l⟩ : Series) ∈ Batch.ofAdds adds :=
      (hmem _).2 ⟨hl, Batch.samples_ofAdds adds l⟩
    have hl' := hall _ hx
    rw [h.isSealed, hheld] at hl'
    exact hl'
  · intro hadmits x hx
    obtain ⟨hne, hsamples⟩ := (hmem x).1 hx
    have hadded : Ledger.added adds x.labels = x.samples :=
      (Batch.samples_ofAdds adds x.labels).symm.trans hsamples
    rw [h.isSealed, hheld, ← hadded]
    exact hadmits x.labels (hadded ▸ hne)

theorem run_perform_commit (adds : List (Labels × Sample)) (s : Database × Disk) :
    run (perform (.commit adds)) s = ((run (commit (Batch.ofAdds adds)) s).1.map fun _ => (),
      (run (commit (Batch.ofAdds adds)) s).2) :=
  run_discard _ _

/-- A commit that is refused leaves everything as it was. -/
theorem Follows.commit_refused (h : Follows ledger bound db d) {adds : List (Labels × Sample)}
    (hadds : adds ≠ []) (hno : ¬ (ledger.isOpen = true ∧ ledger.Admits adds ∧
      Log.Fits (Batch.ofAdds adds))) :
    ∃ e, run (perform (.commit adds)) (db, d) = (.error e, db, d) := by
  have hsize := size_ofAdds_ne_zero hadds
  rw [run_perform_commit]
  cases hlog : db.log with
  | none =>
    rw [run_commit_closed hsize hlog]
    exact ⟨_, rfl⟩
  | some log =>
    cases hcheck : db.check (Batch.ofAdds adds) with
    | error e =>
      rw [run_commit_rejected hsize hlog hcheck]
      exact ⟨_, rfl⟩
    | ok u =>
      cases hframe : Log.frame (Batch.ofAdds adds) with
      | error e =>
        rw [run_commit_oversized hsize hlog hcheck hframe]
        exact ⟨_, rfl⟩
      | ok bytes =>
        have hopen : ledger.isOpen = true := by
          rw [← h.isOpen, hlog]
          rfl
        have hfits := (Log.exists_frame_iff _).1 ⟨bytes, hframe⟩
        exact absurd ⟨hopen, (check_iff_admits h adds).1 hcheck, hfits⟩ hno

/-- A commit that is admitted is made, and the ledger goes with it. -/
theorem Follows.commit_made (h : Follows ledger bound db d) {adds : List (Labels × Sample)}
    (hadds : adds ≠ []) (hopen : ledger.isOpen = true) (hadmits : ledger.Admits adds)
    (hfits : Log.Fits (Batch.ofAdds adds)) :
    ∃ db' d', run (perform (.commit adds)) (db, d) = (.ok (), db', d') ∧ db'.dir = db.dir ∧
      Follows (ledger.after (.commit adds) (.ok ())) bound db' d' := by
  obtain ⟨bytes, hframe⟩ := (Log.exists_frame_iff _).2 hfits
  obtain ⟨blocks, logNumber, batches, hs, hheld⟩ := h.sound
  obtain ⟨log, hlog⟩ := Option.isSome_iff_exists.1 (h.isOpen.trans hopen)
  obtain ⟨db', d', hrun, hs', hdir, hopen', hsealed, hheld'⟩ :=
    hs.commit_accepted (size_ofAdds_ne_zero hadds) (Batch.samples_ne_nil_ofAdds adds) hlog
      ((check_iff_admits h adds).2 hadmits) hframe
  refine ⟨db', d', ?_, hdir, ⟨blocks, logNumber, _, hs', fun l => ?_⟩, fun l => ?_, ?_,
    fun l => ?_⟩
  · rw [run_perform_commit, hrun]
    rfl
  · rw [hheld', hheld, Batch.samples_ofAdds]
    rfl
  · rw [hsealed]
    exact h.isSealed l
  · rw [hopen']
    exact hopen.symm
  · show (ledger.samples l ++ Ledger.added adds l).Pairwise _
    by_cases hl : Ledger.added adds l = []
    · rw [hl, List.append_nil]
      exact h.ascending l
    · exact pairwise_append_of_continues (h.ascending l) (hadmits l hl).2

theorem Follows.commit_ok_iff (h : Follows ledger bound db d) {adds : List (Labels × Sample)}
    (hadds : adds ≠ []) : (run (perform (.commit adds)) (db, d)).1 = .ok () ↔
      ledger.isOpen = true ∧ ledger.Admits adds ∧ Log.Fits (Batch.ofAdds adds) := by
  constructor
  · intro hok
    apply Classical.byContradiction
    intro hno
    obtain ⟨e, he⟩ := h.commit_refused hadds hno
    rw [he] at hok
    cases hok
  · rintro ⟨hopen, hadmits, hfits⟩
    obtain ⟨db', d', hrun, _⟩ := h.commit_made hadds hopen hadmits hfits
    rw [hrun]

/-- A transaction that a frame has room for is committed as it is admitted. -/
theorem Follows.commit_ok_iff_of_room (h : Follows ledger bound db d)
    {adds : List (Labels × Sample)} (hadds : adds ≠ [])
    (hroom : (Packed.ofList Packed.ofSeries (Batch.ofAdds adds)).length ≤ FileFrame.room) :
    (run (perform (.commit adds)) (db, d)).1 = .ok () ↔
      ledger.isOpen = true ∧ ledger.Admits adds := by
  have hfits : Log.Fits (Batch.ofAdds adds) := FileFrame.fits_of_length_le hroom
  rw [h.commit_ok_iff hadds]
  exact ⟨fun ⟨hopen, hadmits, _⟩ => ⟨hopen, hadmits⟩,
    fun ⟨hopen, hadmits⟩ => ⟨hopen, hadmits, hfits⟩⟩

theorem run_perform_commit_empty (s : Database × Disk) :
    run (perform (.commit [])) s = (.ok (), s) := by
  rw [run_perform_commit, run_commit_empty rfl]
  rfl

/-! ### Seal, close and reopen -/

theorem Follows.sealing (h : Follows ledger bound db d) (hbound : bound < UInt64.size)
    (ms : List Matcher) (answers : List Verdict) : ∃ r db' d',
      run (perform (.sealing ms answers)) (db, d) = (r, db', d') ∧ db'.dir = db.dir ∧
      Follows (ledger.after (.sealing ms answers) r) (bound + 1) db' d' := by
  obtain ⟨blocks, logNumber, batches, hs, hheld⟩ := h.sound
  cases hlog : db.log with
  | none =>
    have hback : (d.facing answers).facing [] = d := Disk.facing_of_granting hs.granting
    refine ⟨.error .databaseClosed, db, d, ?_, rfl, ?_⟩
    · show ((run (sealMatching ms) (db, d.facing answers)).1.map _, _, _) = _
      rw [run_seal_closed hlog]
      simp only [hback]
      rfl
    · exact h.mono (Nat.le_succ bound)
  | some log =>
    obtain ⟨r, db', d', blocks', logNumber', batches', hrun, hs', hdir, hopen, hheld', hsealed⟩ :=
      hs.seal hlog hbound ms answers
    refine ⟨r.map fun _ => (), db', d'.facing [], ?_, hdir, ?_⟩
    · show ((run (sealMatching ms) (db, d.facing answers)).1.map _, _, _) = _
      rw [hrun]
    · have hkept : ∀ l, held db' blocks' l = ledger.samples l := fun l =>
        (hheld' l).trans (hheld l)
      have hopen' : db'.log.isSome = ledger.isOpen := by
        rw [hopen, ← h.isOpen, hlog]
        rfl
      cases r with
      | error e =>
        refine ⟨⟨blocks', logNumber', batches', hs', hkept⟩, fun l => ?_, hopen', h.ascending⟩
        show Table.contains db'.sealedIn l = ledger.isSealed l
        rw [Bool.eq_iff_iff, hsealed, ← h.isSealed]
        simp
      | ok n =>
        refine ⟨⟨blocks', logNumber', batches', hs', hkept⟩, fun l => ?_, hopen', h.ascending⟩
        show Table.contains db'.sealedIn l = (ledger.isSealed l || _)
        rw [Bool.eq_iff_iff, hsealed, ← h.isSealed, hheld]
        simp

theorem Follows.closing (h : Follows ledger bound db d) : ∃ db',
    run (perform .close) (db, d) = (.ok (), db', d) ∧ db'.dir = db.dir ∧
      Follows (ledger.after .close (.ok ())) bound db' d := by
  obtain ⟨blocks, logNumber, batches, hs, hheld⟩ := h.sound
  obtain ⟨hrun, hs'⟩ := hs.close
  exact ⟨_, hrun, rfl, ⟨blocks, logNumber, batches, hs', hheld⟩, h.isSealed, rfl, h.ascending⟩

theorem Follows.reopening (h : Follows ledger bound db d) (syncWrite : Bool) : ∃ db' d',
    run (openAt db.dir syncWrite) d = (.ok db', d') ∧
      run (perform (.reopen syncWrite)) (db, d) = (.ok (), db', d') ∧ db'.dir = db.dir ∧
      Follows (ledger.after (.reopen syncWrite) (.ok ())) bound db' d' := by
  obtain ⟨blocks, logNumber, batches, hs, hheld⟩ := h.sound
  obtain ⟨db', d', hrun, hs', hdir, hopen, hheld', hsealed⟩ := hs.reopen syncWrite
  refine ⟨db', d', hrun, ?_, hdir, ⟨blocks, logNumber, batches, hs', fun l => ?_⟩, fun l => ?_,
    hopen, h.ascending⟩
  · show (match run (openAt db.dir syncWrite) d with
      | (Except.ok reopened, d) => (Except.ok (), reopened, d)
      | (Except.error e, d) => (Except.error e, db, d)) = _
    rw [hrun]
  · exact (hheld' l).trans (hheld l)
  · exact (hsealed l).trans (h.isSealed l)

/-! ## Runs -/

/-- One call keeps the database in step with the ledger. -/
theorem Follows.step (h : Follows ledger bound db d) {call : Call}
    (hbound : bound + call.seals ≤ UInt64.size) :
    Follows (ledger.after call (run (perform call) (db, d)).1) (bound + call.seals)
      (run (perform call) (db, d)).2.1 (run (perform call) (db, d)).2.2 := by
  cases call with
  | commit adds =>
    by_cases hadds : adds = []
    · subst hadds
      rw [run_perform_commit_empty]
      exact { h with
        sound := by
          obtain ⟨blocks, logNumber, batches, hs, hheld⟩ := h.sound
          refine ⟨blocks, logNumber, batches, hs, fun l => ?_⟩
          rw [hheld]
          exact (List.append_nil _).symm
        ascending := fun l => by
          show (ledger.samples l ++ []).Pairwise _
          rw [List.append_nil]
          exact h.ascending l }
    · by_cases hok : ledger.isOpen = true ∧ ledger.Admits adds ∧ Log.Fits (Batch.ofAdds adds)
      · obtain ⟨hopen, hadmits, hfits⟩ := hok
        obtain ⟨db', d', hrun, _, h'⟩ := h.commit_made hadds hopen hadmits hfits
        rw [hrun]
        exact h'
      · obtain ⟨e, hrun⟩ := h.commit_refused hadds hok
        rw [hrun]
        exact h
  | rollback adds => exact h
  | sealing ms answers =>
    have hlt : bound < UInt64.size := hbound
    obtain ⟨r, db', d', hrun, _, h'⟩ := h.sealing hlt ms answers
    rw [hrun]
    exact h'
  | close =>
    obtain ⟨db', hrun, _, h'⟩ := h.closing
    rw [hrun]
    exact h'
  | reopen syncWrite =>
    obtain ⟨db', d', _, hrun, _, h'⟩ := h.reopening syncWrite
    rw [hrun]
    exact h'

/-- So do any number of calls, as long as there are block numbers. -/
theorem Follows.run (h : Follows ledger bound db d) (calls : List Call)
    (hbound : bound + (calls.map Call.seals).sum ≤ UInt64.size) :
    Follows (follow calls (ledger, db, d)).1 (bound + (calls.map Call.seals).sum)
      (follow calls (ledger, db, d)).2.1 (follow calls (ledger, db, d)).2.2 := by
  induction calls generalizing ledger bound db d with
  | nil => exact h
  | cons call calls ih =>
    rw [List.map_cons, List.sum_cons, ← Nat.add_assoc] at hbound ⊢
    exact ih (h.step (Nat.le_trans (Nat.le_add_right _ _) hbound)) hbound

theorem follows_openAt {dir : Path} (h : Vacant dir d) (syncWrite : Bool) : ∃ db d',
    Step.run (openAt dir syncWrite) d = (.ok db, d') ∧ db.dir = dir ∧
      Follows Ledger.empty 0 db d' := by
  obtain ⟨db, d', logNumber, hrun, hs, hdir, hopen, hheld, hsealed⟩ := sound_openAt h syncWrite
  exact ⟨db, d', hrun, hdir, ⟨[], logNumber, [], hs, hheld⟩, hsealed, hopen,
    fun _ => List.Pairwise.nil⟩

/-- The database answers every query, and takes or refuses every transaction, as
the ledger says; a call that fails changes no answer. A transaction goes to the log
in one frame, so one that compresses to more than its length field counts is refused
as well; up to the room of a frame no transaction is. -/
structure Mirrors (ledger : Ledger) (s : Database × Disk) : Prop where
  answers : ∀ ms, ∃ found, Step.run (Database.select ms) s = (.ok found, s) ∧
    Answers ledger.samples ms found
  ascending : ∀ l, (ledger.samples l).Pairwise (·.time < ·.time)
  commits : ∀ adds, adds ≠ [] →
    (Packed.ofList Packed.ofSeries (Batch.ofAdds adds)).length ≤ FileFrame.room →
    ((Step.run (perform (.commit adds)) s).1 = .ok () ↔
      ledger.isOpen = true ∧ ledger.Admits adds)
  commitsOfAnySize : ∀ adds, adds ≠ [] → ((Step.run (perform (.commit adds)) s).1 = .ok () ↔
    ledger.isOpen = true ∧ ledger.Admits adds ∧ Log.Fits (Batch.ofAdds adds))
  reopens : ∀ syncWrite, (Step.run (perform (.reopen syncWrite)) s).1 = .ok ()
  failures : ∀ call e, (Step.run (perform call) s).1 = .error e → ∀ ms,
    (Step.run (Database.select ms) (Step.run (perform call) s).2).1 =
      (Step.run (Database.select ms) s).1

end

theorem after_error_samples (ledger : Ledger) (call : Call) (e : Error) :
    (ledger.after call (.error e)).samples = ledger.samples := by
  cases call <;> rfl

theorem Follows.mirrors [Compressor] (h : Follows ledger bound db d)
    (hbound : bound < UInt64.size) : Mirrors ledger (db, d) where
  answers := h.select
  ascending := h.ascending
  commits := fun _ hadds hroom => h.commit_ok_iff_of_room hadds hroom
  commitsOfAnySize := fun _ hadds => h.commit_ok_iff hadds
  reopens := by
    intro syncWrite
    obtain ⟨db', d', _, hrun, _⟩ := h.reopening syncWrite
    rw [hrun]
  failures := by
    intro call e he ms
    have hseals : bound + call.seals ≤ UInt64.size := by
      cases call <;> simp only [Call.seals] <;> omega
    obtain ⟨found, hrun, hfound⟩ := h.select ms
    obtain ⟨found', hrun', hfound'⟩ := (h.step hseals).select ms
    rw [he, after_error_samples] at hfound'
    rw [hrun, hrun', hfound'.unique hfound]

/-- After every run of calls from a vacant directory, failing seals and
reopenings included, the database mirrors the ledger of what was accepted. -/
theorem database_refines_ledger [Compressor] {dir : Path} (h : Vacant dir d) (syncWrite : Bool)
    (calls : List Call) (hcalls : (calls.map Call.seals).sum < UInt64.size) :
    ∃ opened d', Step.run (openAt dir syncWrite) d = (.ok opened, d') ∧
      let ended := follow calls (Ledger.empty, opened, d')
      Mirrors ended.1 ended.2 := by
  obtain ⟨opened, d', hrun, _, hfollows⟩ := follows_openAt h syncWrite
  have hend := hfollows.run calls (by omega)
  exact ⟨opened, d', hrun, hend.mirrors (by omega)⟩

/-- One sample of one job. -/
def firstAdds : List (Labels × Sample) := [(Labels.ofList [("job", "a")], ⟨5, Binary64.zero⟩)]

/-- A run in which one seal cannot write its block, another cannot cut the log,
and the database is then dropped and opened again. -/
def failingRun : List Call :=
  [.commit firstAdds, .sealing [] [.refuse],
    .sealing [⟨"job", "a"⟩] [.grant, .grant, .grant, .refuse], .reopen true]

/-- The sample is committed, and it is there at the end. -/
theorem database_refines_ledger_failing :
    (failingRun.map Call.seals).sum < UInt64.size ∧
    ∃ opened d', Step.run (openAt ["tsdb"] true) Disk.empty = (.ok opened, d') ∧
      (Step.run (perform (.commit firstAdds)) (opened, d')).1 = .ok () ∧
      let ended := follow failingRun (Ledger.empty, opened, d')
      ended.1.samples (Labels.ofList [("job", "a")]) = [⟨5, Binary64.zero⟩] ∧
        Mirrors ended.1 ended.2 := by
  obtain ⟨opened, d', hrun, hempty⟩ :=
    database_refines_ledger (vacant_empty ["tsdb"]) true [] (by decide)
  obtain ⟨opened', d'', hrun', hend⟩ :=
    database_refines_ledger (vacant_empty ["tsdb"]) true failingRun (by decide)
  obtain ⟨⟨⟩, rfl⟩ : Except.ok opened = Except.ok opened' ∧ d' = d'' :=
    Prod.mk.inj (hrun.symm.trans hrun')
  have hadmits : Ledger.empty.Admits firstAdds := by
    intro l _
    have hone : (Ledger.added firstAdds l).Sublist [⟨5, Binary64.zero⟩] :=
      List.filter_sublist.map Prod.snd
    exact ⟨rfl, (List.pairwise_singleton _ _).sublist hone,
      fun _ hlast => absurd hlast (Option.not_mem_none _)⟩
  have hcommitted : (Step.run (perform (.commit firstAdds)) (opened, d')).1 = .ok () :=
    (hempty.commits firstAdds (List.cons_ne_nil _ _) (by decide +kernel)).2 ⟨rfl, hadmits⟩
  refine ⟨by decide, opened, d', hrun, hcommitted, ?_, hend⟩
  simp only [failingRun, follow, hcommitted]
  rw [Ledger.after_samples _ (by rintro _ ⟨⟩), Ledger.after_samples _ (by rintro _ ⟨⟩),
    Ledger.after_samples _ (by rintro _ ⟨⟩)]
  decide +kernel

end HeapTelemetry.Database
