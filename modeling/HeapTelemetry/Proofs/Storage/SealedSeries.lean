import HeapTelemetry.Proofs.Storage.Saves

/-! What seals and saves of one session leave alone of another: which of its series are
sealed, what they answer, and whether they take a measurement. -/

namespace HeapTelemetry
open Step

/-! ## Ledgers that agree on some series -/

namespace Database
variable {ledger ledger' : Ledger} {bound : Nat} {db : Database} {d : Disk}

theorem Ledger.admits_congr {adds : List (Labels × Sample)}
    (h : ∀ l, Ledger.added adds l ≠ [] →
      ledger.isSealed l = ledger'.isSealed l ∧ ledger.samples l = ledger'.samples l) :
    ledger.Admits adds ↔ ledger'.Admits adds := by
  refine forall_congr' fun l => imp_congr_right fun hl => ?_
  rw [(h l hl).1, (h l hl).2]

theorem Answers.congr {samples samples' : Labels → List Sample} {ms : List Matcher}
    {found : List Series} (hf : Answers samples ms found)
    (h : ∀ l, Matcher.allAccept ms l = true → samples l = samples' l) :
    Answers samples' ms found := by
  refine ⟨hf.sorted, fun x => ?_⟩
  rw [hf.mem]
  constructor
  · rintro ⟨hne, hsamples, haccepts⟩
    exact ⟨hne, hsamples.trans (h _ haccepts), haccepts⟩
  · rintro ⟨hne, hsamples, haccepts⟩
    exact ⟨hne, hsamples.trans (h _ haccepts).symm, haccepts⟩

/-- A series that is sealed has samples. -/
theorem Follows.samples_of_sealed [Compressor] (h : Follows ledger bound db d) {l : Labels}
    (hl : db.sealedIn.contains l = true) : ledger.samples l ≠ [] := by
  obtain ⟨blocks, logNumber, batches, hs, hheld⟩ := h.sound
  obtain ⟨id, hid⟩ := (hs.indexes.contains_iff l).1 hl
  obtain ⟨series, hget⟩ := mem_keys_of_mem_labelSets hid
  rw [labelSets_of_get? hget] at hid
  obtain ⟨x, hx, rfl⟩ := List.mem_map.1 hid
  have hmem : x ∈ contents db blocks :=
    List.mem_append_right _ ((mem_flatMap_blocks hs.numbered x).2 ⟨id, series, hget, hx⟩)
  rw [← hheld, held, Batch.samples_of_mem hs.distinct_contents hmem]
  exact hs.filled_contents x hmem

/-- A commit seals nothing, and leaves an open database open. -/
theorem Follows.commit_kept [Compressor] (h : Follows ledger bound db d)
    (hbound : bound ≤ UInt64.size) (adds : List (Labels × Sample)) :
    let x := (Step.run (perform (.commit adds)) (db, d)).2.1
    (∀ l, x.sealedIn.contains l = db.sealedIn.contains l) ∧ x.log.isSome = db.log.isSome := by
  have hseals : bound + (Call.commit adds).seals ≤ UInt64.size := hbound
  have hstep := h.step hseals
  refine ⟨fun l => ?_, ?_⟩
  · rw [hstep.isSealed, h.isSealed]
    cases (Step.run (perform (.commit adds)) (db, d)).1 <;> rfl
  · rw [hstep.isOpen, h.isOpen]
    cases (Step.run (perform (.commit adds)) (db, d)).1 <;> rfl

/-- A seal leaves the series alone that its matchers do not accept, and an open database
open, whatever the device answers. -/
theorem Follows.sealing_kept [Compressor] (h : Follows ledger bound db d)
    (hbound : bound < UInt64.size) (ms : List Matcher) (answers : List Verdict) :
    let x := (Step.run (sealMatching ms) (db, d.facing answers)).2.1
    (∀ l, Matcher.allAccept ms l = false → x.sealedIn.contains l = db.sealedIn.contains l) ∧
      x.log.isSome = db.log.isSome := by
  obtain ⟨r, db', d', hrun, _, hstep⟩ := h.sealing hbound ms answers
  have hdb : (Step.run (sealMatching ms) (db, d.facing answers)).2.1 = db' :=
    congrArg (fun x => x.2.1) hrun
  simp only [hdb]
  refine ⟨fun l hl => ?_, ?_⟩
  · rw [hstep.isSealed, h.isSealed]
    cases r with
    | error e => rfl
    | ok u => simp [Ledger.after, hl]
  · rw [hstep.isOpen, h.isOpen]
    cases r <;> rfl

end Database

/-! ## Series of a session -/

namespace SessionSeries
open Database
variable {accepted accepted' : List (Session × Measurement)} {bound bound' : Nat}
  {db db' : Database} {d d' : Disk} {s : Session}

/-- What was saved of the series that a session's matcher accepts was accepted of it. -/
theorem saved_of_accepts (hkey : ∀ e ∈ accepted, e.1.key = s.key → e.1 = s) {l : Labels}
    (hl : Matcher.allAccept [SiteSeries.sessionMatcher s] l = true) :
    saved accepted l = Ledger.added ((acceptedOf s accepted).flatMap (adds s)) l := by
  induction accepted with
  | nil => rfl
  | cons e accepted ih =>
    obtain ⟨t, m⟩ := e
    obtain ⟨hkeye, hkeys⟩ := List.forall_mem_cons.1 hkey
    have hsaved : saved ((t, m) :: accepted) l = Ledger.added (adds t m) l ++ saved accepted l := by
      rw [saved, List.flatMap_cons, added_append]
      rfl
    rw [hsaved, ih hkeys]
    by_cases ht : t = s
    · subst ht
      have hof : acceptedOf t ((t, m) :: accepted) = m :: acceptedOf t accepted := by
        simp [acceptedOf]
      rw [hof, List.flatMap_cons, added_append]
    · have hof : acceptedOf s ((t, m) :: accepted) = acceptedOf s accepted := by
        simp [acceptedOf, ht]
      have hnone : Ledger.added (adds t m) l = [] := by
        apply Classical.byContradiction
        intro hne
        obtain ⟨x, _, k, rfl⟩ := exists_of_added hne
        exact ht (hkeye ((SiteSeries.accepts_labels s t x.stack k).1 hl))
      rw [hof, hnone, List.nil_append]

variable [Compressor]

/-- A session reads the same wherever the same was accepted of it. -/
theorem Contains.read_congr (h : Contains accepted bound db d)
    (h' : Contains accepted' bound' db' d') (hkey : ∀ e ∈ accepted, e.1.key = s.key → e.1 = s)
    (hkey' : ∀ e ∈ accepted', e.1.key = s.key → e.1 = s)
    (hsame : acceptedOf s accepted = acceptedOf s accepted') :
    SessionSeries.read s (db, d) = SessionSeries.read s (db', d') := by
  obtain ⟨ledger, hfollows, hsamples⟩ := h.follows
  obtain ⟨ledger', hfollows', hsamples'⟩ := h'.follows
  obtain ⟨found, hrun, hfound⟩ := hfollows.select [SiteSeries.sessionMatcher s]
  obtain ⟨found', hrun', hfound'⟩ := hfollows'.select [SiteSeries.sessionMatcher s]
  have hagree : ∀ l, Matcher.allAccept [SiteSeries.sessionMatcher s] l = true →
      ledger.samples l = ledger'.samples l := by
    intro l hl
    rw [hsamples, hsamples', saved_of_accepts hkey hl, saved_of_accepts hkey' hl, hsame]
  have hone : found = found' := (hfound.congr hagree).unique hfound'
  rw [SessionSeries.read, SessionSeries.read, hrun, hrun', hone]

/-- Of a session that was saved nothing no series is sealed. -/
theorem Contains.unsealed (h : Contains accepted bound db d)
    (hkey : ∀ e ∈ accepted, e.1.key ≠ s.key) {l : Labels}
    (hl : Matcher.allAccept [SiteSeries.sessionMatcher s] l = true) :
    db.sealedIn.contains l = false := by
  obtain ⟨ledger, hfollows, hsamples⟩ := h.follows
  cases hsealed : db.sealedIn.contains l with
  | false => rfl
  | true =>
    have hne := hfollows.samples_of_sealed hsealed
    rw [hsamples] at hne
    obtain ⟨e, he, stack, k, rfl⟩ := exists_of_saved hne
    rw [SiteSeries.accepts_labels] at hl
    exact absurd hl (hkey e he)

theorem Contains.save_kept (h : Contains accepted bound db d) (hbound : bound ≤ UInt64.size)
    (s : Session) (m : Measurement) :
    let x := (run (SessionSeries.save s () m) (db, d)).2.1
    (∀ l, x.sealedIn.contains l = db.sealedIn.contains l) ∧ x.log.isSome = db.log.isSome := by
  obtain ⟨ledger, hfollows, _⟩ := h.follows
  by_cases hm : Storable m
  · rw [run_save hm]
    exact hfollows.commit_kept hbound (adds s m)
  · obtain ⟨e, hrun⟩ := run_save_refused hm s (db, d)
    rw [hrun]
    exact ⟨fun _ => rfl, rfl⟩

theorem Contains.finish_kept (h : Contains accepted bound db d) (hbound : bound < UInt64.size)
    (s : Session) (answers : List Verdict) :
    let x := (run (SessionSeries.finish s ()) (db, d.facing answers)).2.1
    (∀ l, Matcher.allAccept [SiteSeries.sessionMatcher s] l = false →
      x.sealedIn.contains l = db.sealedIn.contains l) ∧ x.log.isSome = db.log.isSome := by
  obtain ⟨ledger, hfollows, _⟩ := h.follows
  rw [SessionSeries.finish, run_discard, run_attempt]
  exact hfollows.sealing_kept hbound _ answers

/-- Whether an open session's measurement is taken depends on what was accepted of it. -/
theorem Contains.save_congr (h : Contains accepted bound db d)
    (h' : Contains accepted' bound' db' d') (hkey : ∀ e ∈ accepted, e.1.key = s.key → e.1 = s)
    (hkey' : ∀ e ∈ accepted', e.1.key = s.key → e.1 = s)
    (hsame : acceptedOf s accepted = acceptedOf s accepted')
    (hopen : db.log.isSome = db'.log.isSome)
    (hsealed : ∀ l, Matcher.allAccept [SiteSeries.sessionMatcher s] l = true →
      db.sealedIn.contains l = db'.sealedIn.contains l) (m : Measurement) :
    (run (SessionSeries.save s () m) (db, d)).1.toOption =
      (run (SessionSeries.save s () m) (db', d')).1.toOption := by
  obtain ⟨ledger, hfollows, hsamples⟩ := h.follows
  obtain ⟨ledger', hfollows', hsamples'⟩ := h'.follows
  by_cases hm : Storable m
  · rw [run_save hm, run_save hm]
    by_cases hadds : adds s m = []
    · rw [hadds, run_perform_commit_empty, run_perform_commit_empty]
    · have hadmits : ledger.Admits (adds s m) ↔ ledger'.Admits (adds s m) := by
        refine Ledger.admits_congr fun l hl => ?_
        have haccepts : Matcher.allAccept [SiteSeries.sessionMatcher s] l = true := by
          obtain ⟨x, _, k, rfl⟩ := exists_of_added hl
          exact (SiteSeries.accepts_labels s s x.stack k).2 rfl
        rw [← hfollows.isSealed, ← hfollows'.isSealed, hsamples, hsamples',
          saved_of_accepts hkey haccepts, saved_of_accepts hkey' haccepts, hsame]
        exact ⟨hsealed l haccepts, rfl⟩
      have hok := hfollows.commit_ok_iff hadds
      have hok' := hfollows'.commit_ok_iff hadds
      rw [← hfollows.isOpen, hopen, hadmits] at hok
      rw [← hfollows'.isOpen, ← hok] at hok'
      cases hr : (run (perform (.commit (adds s m))) (db, d)).1 with
      | ok u => rw [hok'.2 hr]
      | error e =>
        cases hr' : (run (perform (.commit (adds s m))) (db', d')).1 with
        | ok u =>
          rw [hok'.1 hr'] at hr
          cases hr
        | error e' => rfl
  · obtain ⟨e, hrun⟩ := run_save_refused hm s (db, d)
    obtain ⟨e', hrun'⟩ := run_save_refused hm s (db', d')
    rw [hrun, hrun']
    rfl

end SessionSeries
end HeapTelemetry
