import HeapTelemetry.Proofs.Series.Replies

/-! Processes that stop while they seal. A device that makes some steps, and perhaps a part of
a write, and refuses the rest leaves the disk as such a process does. Whoever opens the
directory next finds all the series sealed or none of them, and nothing is lost or held twice. -/

namespace HeapTelemetry.Database
open Step

/-! ## Where label sets are held -/

variable {ledger : Ledger} {bound : Nat} {db : Database} {d : Disk}
  {blocks : Table Nat (List Series)} {logNumber : Nat} {batches : List Batch}

theorem Follows.dir_perform (h : Follows ledger bound db d) (call : Call)
    (hbound : bound + call.seals ≤ UInt64.size) :
    (Step.run (perform call) (db, d)).2.1.dir = db.dir := by
  cases call with
  | commit adds =>
    by_cases hadds : adds = []
    · rw [hadds, run_perform_commit_empty]
    by_cases hok : ledger.isOpen = true ∧ ledger.Admits adds ∧ Log.Fits (Batch.ofAdds adds)
    · obtain ⟨hopen, hadmits, hfits⟩ := hok
      obtain ⟨_, _, hrun, hdir, _⟩ := h.commit_made hadds hopen hadmits hfits
      rw [hrun]
      exact hdir
    · obtain ⟨e, hrun⟩ := h.commit_refused hadds hok
      rw [hrun]
  | rollback adds => rfl
  | sealing ms answers =>
    obtain ⟨_, _, _, hrun, hdir, _⟩ := h.sealing hbound ms answers
    rw [hrun]
    exact hdir
  | close =>
    obtain ⟨_, hrun, hdir, _⟩ := h.closing
    rw [hrun]
    exact hdir
  | reopen syncWrite =>
    obtain ⟨_, _, _, hrun, hdir, _⟩ := h.reopening syncWrite
    rw [hrun]
    exact hdir

theorem Follows.callAll (h : Follows ledger bound db d) (calls : List Call)
    (hbound : bound + (calls.map Call.seals).sum ≤ UInt64.size) :
    let s := (Database.callAll calls (db, d)).2
    s.1.dir = db.dir ∧ ∃ ledger', Follows ledger' (bound + (calls.map Call.seals).sum) s.1 s.2 := by
  induction calls generalizing ledger bound db d with
  | nil => exact ⟨rfl, ledger, h⟩
  | cons call calls ih =>
    rw [List.map_cons, List.sum_cons, ← Nat.add_assoc] at hbound ⊢
    have hseals := Nat.le_trans (Nat.le_add_right _ _) hbound
    obtain ⟨hdir, hfollows⟩ := ih (h.step hseals) hbound
    exact ⟨hdir.trans (h.dir_perform call hseals), hfollows⟩

/-! ## Stopping while sealing -/

/-- The disk that is left of a process that seals, once the device with these answers makes
no more steps. -/
def left (ms : List Matcher) (answers : List Verdict) (s : Database × Disk) : Disk :=
  (run (sealMatching ms) (s.1, s.2.facing answers)).2.2.facing []

end HeapTelemetry.Database
