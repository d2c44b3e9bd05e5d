import HeapTelemetry.Proofs.Lists
import HeapTelemetry.Proofs.Series.Soundness

/-! Every operation keeps a sound database sound. A commit lengthens the samples
of its series, a seal moves series without changing what is held, and opening
the directory again brings all of it back. -/

namespace HeapTelemetry.Database
open Step

variable {blocks : Table Nat (List Series)} {logNumber : Nat} {batches : List Batch}
  {bound : Nat} {db : Database} {d : Disk}

/-- All samples of a label set, in memory or in a block. -/
abbrev held (db : Database) (blocks : Table Nat (List Series)) : Labels → List Sample :=
  Batch.samples (contents db blocks)

theorem held_eq (db : Database) (blocks : Table Nat (List Series)) (l : Labels) :
    held db blocks l =
      Batch.samples db.head.series l ++ Batch.samples (blocks.flatMap Prod.snd) l :=
  Batch.samples_append _ _ l

/-! ## Steps on the log -/

theorem run_onLog {α : Type} {db : Database} {log : Log} (h : db.log = some log)
    (x : Step (Log × Disk) α) (d : Disk) : run (onLog x) (db, d) =
      ((run x (log, d)).1, { db with log := some (run x (log, d)).2.1 }, (run x (log, d)).2.2) := by
  rw [onLog, run_bind_ok (run_get _)]
  simp only [h]
  rfl

theorem run_requireOpen {db : Database} {log : Log} (h : db.log = some log) (d : Disk) :
    run requireOpen (db, d) = (.ok ⟨⟩, db, d) := by
  rw [requireOpen, run_onLog h]
  obtain ⟨dir, head, sealedIn, nextBlock, log'⟩ := db
  cases h
  rfl

theorem run_requireOpen_closed {db : Database} (h : db.log = none) (d : Disk) :
    run requireOpen (db, d) = (.error .databaseClosed, db, d) := by
  rw [requireOpen, onLog, run_bind_ok (run_get _)]
  simp only [h]
  rfl

/-! ## Commit -/

/-- The added samples ascend in time and start after the last one before them. -/
def Continues (before added : List Sample) : Prop :=
  added.Pairwise (·.time < ·.time) ∧
    ∀ last ∈ before.getLast?, ∀ first ∈ added.head?, last.time < first.time

theorem checkTimes_iff (labels : Labels) (last : Option Int64) (added : List Sample) :
    checkTimes labels last added = .ok () ↔
      added.Pairwise (·.time < ·.time) ∧ ∀ t ∈ last, ∀ first ∈ added.head?, t < first.time := by
  induction added generalizing last with
  | nil => cases last <;> simp [checkTimes]
  | cons s rest ih =>
    have hrest : checkTimes labels (some s.time) rest = .ok () ↔
        (s :: rest).Pairwise (·.time < ·.time) := by
      rw [ih, List.pairwise_cons]
      constructor
      · rintro ⟨hp, hfirst⟩
        refine ⟨fun x hx => ?_, hp⟩
        cases rest with
        | nil => cases hx
        | cons y rest =>
          have hy : s.time < y.time := hfirst s.time rfl y rfl
          rcases List.mem_cons.1 hx with rfl | hx
          · exact hy
          · exact Int64.lt_trans hy ((List.pairwise_cons.1 hp).1 x hx)
      · rintro ⟨hall, hp⟩
        refine ⟨hp, ?_⟩
        rintro _ ⟨rfl⟩ first hf
        exact hall first (List.mem_of_head? hf)
    cases last with
    | none => simp [checkTimes, hrest]
    | some t =>
      rw [checkTimes]
      by_cases hle : s.time ≤ t
      · have hnot : ¬ t < s.time := Int64.not_lt.2 hle
        simp [hle, hnot]
      · have hlt : t < s.time := Int64.not_le.1 hle
        simp [hle, hlt, hrest]

/-- A batch is accepted if none of its series is sealed and each goes on from
what is held of it. -/
theorem Sound.check_iff [Compressor] (h : Sound blocks logNumber batches bound db d) (b : Batch) :
    db.check b = .ok () ↔ ∀ s ∈ b, db.sealedIn.contains s.labels = false ∧
      Continues (held db blocks s.labels) s.samples := by
  rw [check, forM_eq_ok]
  refine forall_congr' fun s => imp_congr_right fun _ => ?_
  rw [checkSeries]
  cases hs : db.sealedIn.contains s.labels with
  | true => simp
  | false =>
    rw [held_eq, h.samples_blocks hs, List.append_nil, Continues]
    simp only [Bool.false_eq_true, ↓reduceIte, true_and]
    rw [checkTimes_iff, Head.lastTime_eq h.head]
    simp

theorem pairwise_append_of_continues {before added : List Sample}
    (hb : before.Pairwise (·.time < ·.time)) (h : Continues before added) :
    (before ++ added).Pairwise (·.time < ·.time) := by
  refine List.pairwise_append.2 ⟨hb, h.1, fun x hx y hy => ?_⟩
  obtain ⟨last, hlast⟩ : ∃ last, before.getLast? = some last :=
    ⟨_, List.getLast?_eq_some_getLast (List.ne_nil_of_mem hx)⟩
  obtain ⟨first, hfirst⟩ : ∃ first, added.head? = some first :=
    ⟨_, List.head?_eq_some_head (List.ne_nil_of_mem hy)⟩
  have hstep : last.time < first.time := h.2 last hlast first hfirst
  have hx' : x.time ≤ last.time := by
    obtain ⟨front, rfl⟩ := List.getLast?_eq_some_iff.1 hlast
    rcases List.mem_append.1 hx with hm | hm
    · exact Int64.le_of_lt ((List.pairwise_append.1 hb).2.2 x hm last (by simp))
    · rw [List.mem_singleton.1 hm]
      exact Int64.le_refl _
  have hy' : first.time ≤ y.time := by
    obtain ⟨rest, rfl⟩ := List.head?_eq_some_iff.1 hfirst
    rcases List.mem_cons.1 hy with rfl | hm
    · exact Int64.le_refl _
    · exact Int64.le_of_lt ((List.pairwise_cons.1 h.1).1 y hm)
  exact Int64.lt_of_le_of_lt hx' (Int64.lt_of_lt_of_le hstep hy')

section
variable [Compressor]

theorem run_commit_empty {b : Batch} (hb : b.size = 0) (db : Database) (d : Disk) :
    run (commit b) (db, d) = (.ok 0, db, d) := by
  rw [commit, if_pos hb]
  rfl

theorem run_commit_closed {b : Batch} (hb : b.size ≠ 0) (hlog : db.log = none) (d : Disk) :
    run (commit b) (db, d) = (.error .databaseClosed, db, d) := by
  rw [commit, if_neg hb]
  exact run_bind_error (run_requireOpen_closed hlog d)

theorem run_commit_rejected {b : Batch} {log : Log} {e : Error} (hb : b.size ≠ 0)
    (hlog : db.log = some log) (hcheck : db.check b = .error e) (d : Disk) :
    run (commit b) (db, d) = (.error e, db, d) := by
  rw [commit, if_neg hb, run_bind_ok (run_requireOpen hlog d), run_bind_ok (run_get _), hcheck]
  exact run_bind_error (run_ofExcept _ _)

theorem run_commit_oversized {b : Batch} {log : Log} {e : Error} (hb : b.size ≠ 0)
    (hlog : db.log = some log) (hcheck : db.check b = .ok ()) (hframe : Log.frame b = .error e)
    (d : Disk) : run (commit b) (db, d) = (.error e, db, d) := by
  have hon : run (onLog (Log.append b)) (db, d) = (.error e, db, d) := by
    rw [run_onLog hlog, Log.run_append_oversized hframe]
    obtain ⟨dir, head, sealedIn, nextBlock, log'⟩ := db
    cases hlog
    rfl
  rw [commit, if_neg hb, run_bind_ok (run_requireOpen hlog d), run_bind_ok (run_get _), hcheck,
    run_bind_ok (run_ofExcept _ _)]
  exact run_bind_error hon

theorem run_commit_accepted {b : Batch} {log : Log} {bytes : Bytes} (hb : b.size ≠ 0)
    (hlog : db.log = some log) (ht : log.torn = false) (hv : d.verdicts = [])
    (hcheck : db.check b = .ok ()) (hframe : Log.frame b = .ok bytes) :
    run (commit b) (db, d) = (.ok b.size, { db with
      head := db.head.apply b, log := some { log with length := log.length + bytes.length } },
      d.change log.handle (· ++ bytes)) := by
  have hon := run_onLog hlog (Log.append b) d
  rw [Log.run_append hv ht hframe] at hon
  rw [commit, if_neg hb, run_bind_ok (run_requireOpen hlog d), run_bind_ok (run_get _), hcheck,
    run_bind_ok (run_ofExcept _ _), run_bind_ok hon, run_bind_ok (run_modify _ _)]
  rfl

theorem Sound.stored_append (h : Sound blocks logNumber batches bound db d) {log : Log}
    (hlog : db.log = some log) {b : Batch} {bytes : Bytes} (hframe : Log.frame b = .ok bytes) :
    Stored db.dir blocks logNumber (batches ++ [b]) (d.change log.handle (· ++ bytes)) := by
  obtain ⟨_, hhandle, _⟩ := h.log log hlog
  obtain ⟨content, hfile, hholds⟩ := h.stored.log
  have hkept := Disk.kept_change (d := d) log.handle (· ++ bytes)
  rw [hhandle] at hkept ⊢
  have hfile' := Disk.find?_change (h := ⟨logPath db.dir, logNumber⟩) hfile (· ++ bytes)
  exact h.stored.kept_log (hkept.mono (by simp)) ⟨_, hfile', hholds.append hframe⟩

/-- The head after a batch whose series are not sealed has no sealed series. -/
theorem Sound.headOpen_apply (h : Sound blocks logNumber batches bound db d) {b : Batch}
    (hf : ∀ x ∈ b, x.samples ≠ []) (hopen : ∀ x ∈ b, db.sealedIn.contains x.labels = false) :
    ∀ x ∈ (db.head.apply b).series, db.sealedIn.contains x.labels = false := by
  intro x hx
  cases hs : db.sealedIn.contains x.labels with
  | false => rfl
  | true =>
    have hb : Batch.samples b x.labels = [] := by
      apply Batch.samples_eq_nil
      intro y hy hyx
      rw [← hyx, hopen y hy] at hs
      cases hs
    have hsamples := Batch.samples_of_mem (h.head.apply b).distinct hx
    rw [Head.samples_apply h.head, h.samples_head hs, hb] at hsamples
    exact absurd hsamples.symm (Head.samples_ne_nil_apply h.headFilled hf x hx)

/-- A commit that is accepted lengthens what is held by what the batch has. -/
theorem Sound.commit_accepted (h : Sound blocks logNumber batches bound db d) {b : Batch}
    {log : Log} {bytes : Bytes} (hb : b.size ≠ 0) (hf : ∀ x ∈ b, x.samples ≠ [])
    (hlog : db.log = some log) (hcheck : db.check b = .ok ()) (hframe : Log.frame b = .ok bytes) :
    ∃ db' d', run (commit b) (db, d) = (.ok b.size, db', d') ∧
      Sound blocks logNumber (batches ++ [b]) bound db' d' ∧ db'.dir = db.dir ∧
      db'.log.isSome = true ∧ db'.sealedIn = db.sealedIn ∧
        ∀ l, held db' blocks l = held db blocks l ++ Batch.samples b l := by
  have hon := h.log log hlog
  have hopen : ∀ x ∈ b, db.sealedIn.contains x.labels = false := fun x hx =>
    ((h.check_iff b).1 hcheck x hx).1
  have hclosed : ∀ l, db.sealedIn.contains l = true → Batch.samples b l = [] := by
    intro l hl
    apply Batch.samples_eq_nil
    rintro x hx rfl
    rw [hopen x hx] at hl
    cases hl
  refine ⟨_, _, run_commit_accepted hb hlog hon.intact h.granting hcheck hframe, ?_, rfl, rfl,
    rfl, fun l => ?_⟩
  · exact {
      stored := h.stored_append hlog hframe
      granting := (Disk.kept_change log.handle _).granting h.granting
      numbered := h.numbered
      below := h.below
      bounded := h.bounded
      distinct := h.distinct
      filled := h.filled
      indexes := h.indexes
      head := h.head.apply b
      headFilled := Head.samples_ne_nil_apply h.headFilled hf
      headOpen := h.headOpen_apply hf hopen
      logFilled := by
        intro c hc
        rcases List.mem_append.1 hc with hc | hc
        · exact h.logFilled c hc
        · rw [List.mem_singleton.1 hc]
          exact hf
      logged := by
        intro l hl
        rw [List.flatten_append, Batch.samples_append, h.logged l hl, Head.samples_apply h.head,
          List.flatten_singleton]
      log := by
        rintro log' ⟨rfl⟩
        exact ⟨hon.path, hon.handle, hon.intact⟩ }
  · rw [held_eq, held_eq, Head.samples_apply h.head]
    cases hl : db.sealedIn.contains l with
    | true => simp [hclosed l hl]
    | false => simp [h.samples_blocks hl]

/-! ## Seal -/

theorem run_sealMatching {log : Log} (h : db.log = some log) (ms : List Matcher) (d : Disk) :
    run (sealMatching ms) (db, d) =
      if (db.head.take ms).1.isEmpty then (.ok 0, db, d)
      else match run (Block.write (blocksDir db.dir) db.nextBlock (db.head.take ms).1) d with
        | (.error e, d) =>
          (.error e, { db with head := (db.head.take ms).2.apply (db.head.take ms).1 }, d)
        | (.ok _, d) =>
          let r := run (Log.replace (db.head.take ms).2.series) (log, d)
          (.ok (db.head.take ms).1.length,
            { db with
              head := (db.head.take ms).2, nextBlock := db.nextBlock + 1
              sealedIn := (db.head.take ms).1.foldl (fun t s => t.set s.labels db.nextBlock)
                db.sealedIn
              log := some r.2.1 }, r.2.2) := by
  rw [sealMatching, run_bind_ok (run_requireOpen h d), run_bind_ok (run_get _)]
  simp only
  split
  · rfl
  · rw [run_bind_ok (run_attempt _ _)]
    simp only [onDisk, run_on]
    cases run (Block.write (blocksDir db.dir) db.nextBlock (db.head.take ms).1) d with
    | mk r d1 =>
      cases r with
      | error e => rfl
      | ok u =>
        simp only
        rw [run_bind_ok (run_modify _ _)]
        simp only [run_discard, run_attempt, run_bind]
        have hopen : ({ db with
            head := (db.head.take ms).2, nextBlock := db.nextBlock + 1
            sealedIn := (db.head.take ms).1.foldl (fun t s => t.set s.labels db.nextBlock)
              db.sealedIn } : Database).log = some log := h
        rw [run_onLog hopen]
        rfl

end

theorem samples_taken (h : Head) (ms : List Matcher) (l : Labels) :
    Batch.samples (h.take ms).1 l =
      if Matcher.allAccept ms l then Batch.samples h.series l else [] := by
  rw [Head.take_fst, Batch.samples_filter h.series (Matcher.allAccept ms)]

theorem samples_kept {h : Head} (hi : h.Indexed) (ms : List Matcher) (l : Labels) :
    Batch.samples (h.take ms).2.series l =
      if Matcher.allAccept ms l then [] else Batch.samples h.series l := by
  rw [(Head.take_snd hi ms).2, Batch.samples_filter h.series fun l => !Matcher.allAccept ms l]
  cases Matcher.allAccept ms l <;> rfl

section
variable [Compressor]

/-- Another head that holds the same samples, over a disk that stores the same. -/
theorem Sound.with_head (h : Sound blocks logNumber batches bound db d) {head : Head} {d' : Disk}
    (hst : Stored db.dir blocks logNumber batches d') (hv : d'.verdicts = [])
    (hi : head.Indexed) (hf : ∀ x ∈ head.series, x.samples ≠ [])
    (hs : ∀ l, Batch.samples head.series l = Batch.samples db.head.series l) :
    Sound blocks logNumber batches bound { db with head } d' :=
  { h with
    stored := hst
    granting := hv
    head := hi
    headFilled := hf
    headOpen := by
      intro x hx
      cases hsealed : db.sealedIn.contains x.labels with
      | false => rfl
      | true =>
        have hsamples := Batch.samples_of_mem hi.distinct hx
        rw [hs, h.samples_head hsealed] at hsamples
        exact absurd hsamples.symm (hf x hx)
    logged := by
      intro l hl
      rw [hs]
      exact h.logged l hl }

/-- Checkpointing the log fails without harm, or leaves just the given series in it. -/
theorem Stored.checkpoint {dir : Path} {log : Log} (h : Stored dir blocks logNumber batches d)
    (hon : OpenOn dir logNumber log) (kept : List Series) :
    ∃ logNumber' batches', Stored dir blocks logNumber' batches'
        (run (Log.replace kept) (log, d)).2.2 ∧
      OpenOn dir logNumber' (run (Log.replace kept) (log, d)).2.1 ∧
      (batches' = batches ∨ batches' = Log.renewed kept) := by
  obtain ⟨content, hfile, hholds⟩ := h.log
  rcases Log.replace_cases kept log d with ⟨e, d', hrun, hk⟩ | ⟨number, bytes, d', hrun, hb, hf, hk⟩
  · rw [hon.path] at hk
    have hfile' : d'.find? (logPath dir) = some (.file logNumber content) := by
      rw [hk.others _ ?_, hfile]
      rw [List.mem_singleton]
      exact (Log.temporary_ne _).symm
    rw [hrun]
    exact ⟨logNumber, batches, h.kept_log (hk.mono (by simp)) ⟨content, hfile', hholds⟩, hon,
      Or.inl rfl⟩
  · rw [hon.path] at hk hf
    rw [hrun]
    refine ⟨number, Log.renewed kept, h.kept_log hk ⟨bytes, hf, hb⟩, ⟨hon.path, ?_, rfl⟩,
      Or.inr rfl⟩
    rw [hon.path]

/-- The series that a seal takes are in no block yet. -/
theorem Sound.taken_open (h : Sound blocks logNumber batches bound db d) (ms : List Matcher)
    {x : Series} (hx : x ∈ (db.head.take ms).1) :
    x ∈ db.head.series ∧ Matcher.allAccept ms x.labels = true ∧
      db.sealedIn.contains x.labels = false := by
  rw [Head.take_fst] at hx
  obtain ⟨hm, ha⟩ := List.mem_filter.1 hx
  exact ⟨hm, ha, h.headOpen x hm⟩

theorem Sound.mem_taken_labels (h : Sound blocks logNumber batches bound db d)
    (ms : List Matcher) (l : Labels) : l ∈ (db.head.take ms).1.map Series.labels ↔
      Matcher.allAccept ms l = true ∧ Batch.samples db.head.series l ≠ [] := by
  rw [List.mem_map]
  constructor
  · rintro ⟨x, hx, rfl⟩
    obtain ⟨hm, ha, _⟩ := h.taken_open ms hx
    rw [Batch.samples_of_mem h.head.distinct hm]
    exact ⟨ha, h.headFilled x hm⟩
  · rintro ⟨ha, hne⟩
    apply Classical.byContradiction
    intro hno
    apply hne
    apply Batch.samples_eq_nil
    rintro x hx rfl
    refine hno ⟨x, ?_, rfl⟩
    rw [Head.take_fst]
    exact List.mem_filter.2 ⟨hx, ha⟩

theorem Sound.next_free (h : Sound blocks logNumber batches bound db d) :
    blocks.get? db.nextBlock = none := by
  cases hs : blocks.get? db.nextBlock with
  | none => rfl
  | some series => exact absurd (h.below _ _ hs) (Nat.lt_irrefl _)

end

theorem labelSets_set (blocks : Table Nat (List Series)) (id : Nat) (series : List Series)
    (i : Nat) : labelSets (blocks.set id series) i =
      if id = i then series.map Series.labels else labelSets blocks i := by
  rw [labelSets, Table.get?_set]
  split <;> rfl

/-- The index after a seal: the taken series are in the new block. -/
theorem Sound.indexes_seal [Compressor] (h : Sound blocks logNumber batches bound db d)
    (ms : List Matcher) :
    Indexes ((db.head.take ms).1.foldl (fun t s => t.set s.labels db.nextBlock) db.sealedIn)
      (blocks.set db.nextBlock (db.head.take ms).1) where
  keys := Table.nodup_keys_foldl_set Series.labels db.nextBlock _ h.indexes.keys
  blockOf := by
    intro l i
    rw [Table.get?_foldl_set Series.labels, labelSets_set]
    by_cases hl : l ∈ (db.head.take ms).1.map Series.labels
    · have hold : l ∉ labelSets blocks i := by
        intro hi
        obtain ⟨x, hx, rfl⟩ := List.mem_map.1 hl
        have hopen := (h.taken_open ms hx).2.2
        rw [(h.indexes.contains_iff x.labels).2 ⟨i, hi⟩] at hopen
        cases hopen
      rw [if_pos hl]
      by_cases hi : db.nextBlock = i
      · simp [hi, hl]
      · simp [hi, hold]
    · have hnext : l ∉ labelSets blocks db.nextBlock := by
        rw [labelSets, h.next_free]
        simp
      rw [if_neg hl, h.indexes.blockOf]
      by_cases hi : db.nextBlock = i
      · subst hi
        simp [hl, hnext]
      · simp [hi]

theorem contains_foldl_set (table : Table Labels Nat) (taken : List Series) (id : Nat)
    (l : Labels) : (taken.foldl (fun t s => t.set s.labels id) table).contains l =
      (table.contains l || decide (l ∈ taken.map Series.labels)) := by
  rw [Table.contains, Table.get?_foldl_set Series.labels]
  by_cases hl : l ∈ taken.map Series.labels
  · simp [hl]
  · rw [if_neg hl, decide_eq_false hl, Bool.or_false]
    rfl

/-- Which series a seal that succeeds has sealed: those sealed before, and those
that hold samples and are accepted. -/
theorem Sound.sealed_iff [Compressor] (h : Sound blocks logNumber batches bound db d)
    (ms : List Matcher)
    (l : Labels) : (db.sealedIn.contains l = true ∨ l ∈ (db.head.take ms).1.map Series.labels) ↔
      (db.sealedIn.contains l = true ∨
        (held db blocks l ≠ [] ∧ Matcher.allAccept ms l = true)) := by
  rw [h.mem_taken_labels, held_eq]
  cases hl : db.sealedIn.contains l with
  | true => simp
  | false => simp [h.samples_blocks hl, and_comm]

theorem flatMap_set_new {blocks : Table Nat (List Series)} {id : Nat} (hid : blocks.get? id = none)
    (series : List Series) :
    (blocks.set id series).flatMap Prod.snd = blocks.flatMap Prod.snd ++ series := by
  induction blocks with
  | nil => simp [Table.set]
  | cons e rest ih =>
    obtain ⟨i, s⟩ := e
    rw [Table.get?] at hid
    split at hid
    · cases hid
    · rename_i hne
      rw [Table.set, if_neg hne, List.flatMap_cons, List.flatMap_cons, ih hid, List.append_assoc]

variable [Compressor]

/-- A seal moves samples from memory into the new block. -/
theorem Sound.held_seal (h : Sound blocks logNumber batches bound db d) (ms : List Matcher)
    (l : Labels) : Batch.samples ((db.head.take ms).2.series ++
      (blocks.set db.nextBlock (db.head.take ms).1).flatMap Prod.snd) l = held db blocks l := by
  rw [held_eq, flatMap_set_new h.next_free, Batch.samples_append, Batch.samples_append,
    samples_kept h.head, samples_taken]
  cases hl : db.sealedIn.contains l with
  | true => simp [h.samples_head hl]
  | false =>
    rw [h.samples_blocks hl]
    cases Matcher.allAccept ms l <;> simp

/-- The database after its block was written and its log cut down or not. -/
theorem Sound.written (h : Sound blocks logNumber batches bound db d) (ms : List Matcher)
    {d' : Disk} {logNumber' : Nat} {batches' : List Batch} {log : Log}
    (hst : Stored db.dir (blocks.set db.nextBlock (db.head.take ms).1) logNumber' batches' d')
    (hv : d'.verdicts = []) (hon : OpenOn db.dir logNumber' log)
    (hlog : batches' = batches ∨ batches' = Log.renewed (db.head.take ms).2.series) :
    Sound (blocks.set db.nextBlock (db.head.take ms).1) logNumber' batches' (bound + 1)
      { db with
        head := (db.head.take ms).2, nextBlock := db.nextBlock + 1
        sealedIn := (db.head.take ms).1.foldl (fun t s => t.set s.labels db.nextBlock) db.sealedIn
        log := some log } d' where
  stored := hst
  granting := hv
  numbered := Table.nodup_keys_set h.numbered _ _
  below := by
    intro id series hs
    rw [Table.get?_set] at hs
    split at hs
    · rename_i he
      exact he ▸ Nat.lt_succ_self _
    · exact Nat.lt_succ_of_lt (h.below id series hs)
  bounded := Nat.succ_le_succ h.bounded
  distinct := by
    intro id series hs
    rw [Table.get?_set] at hs
    split at hs
    · cases hs
      rw [Head.take_fst]
      exact h.head.distinct.sublist (List.filter_sublist.map _)
    · exact h.distinct id series hs
  filled := by
    intro id series hs x hx
    rw [Table.get?_set] at hs
    split at hs
    · cases hs
      exact h.headFilled x (h.taken_open ms hx).1
    · exact h.filled id series hs x hx
  indexes := h.indexes_seal ms
  head := (Head.take_snd h.head ms).1
  headFilled := by
    intro x hx
    rw [(Head.take_snd h.head ms).2] at hx
    exact h.headFilled x (List.mem_filter.1 hx).1
  headOpen := by
    intro x hx
    rw [(Head.take_snd h.head ms).2] at hx
    obtain ⟨hm, ha⟩ := List.mem_filter.1 hx
    have hno : x.labels ∉ (db.head.take ms).1.map Series.labels := by
      intro hl
      rw [((h.mem_taken_labels ms _).1 hl).1] at ha
      cases ha
    rw [contains_foldl_set, h.headOpen x hm, decide_eq_false hno]
    rfl
  logFilled := by
    rcases hlog with rfl | rfl
    · exact h.logFilled
    · intro b hb x hx
      have hm : x ∈ (Log.renewed (db.head.take ms).2.series).flatten :=
        List.mem_flatten.2 ⟨b, hb, hx⟩
      rw [Log.flatten_renewed, (Head.take_snd h.head ms).2] at hm
      exact h.headFilled x (List.mem_filter.1 hm).1
  logged := by
    intro l hl
    rw [contains_foldl_set, Bool.or_eq_false_iff, decide_eq_false_iff_not, h.mem_taken_labels] at hl
    rcases hlog with rfl | rfl
    · rw [h.logged l hl.1, samples_kept h.head]
      cases ha : Matcher.allAccept ms l with
      | false => rfl
      | true => exact Decidable.not_not.1 fun hne => hl.2 ⟨ha, hne⟩
    · rw [Log.flatten_renewed]
  log := by
    rintro log' ⟨rfl⟩
    exact hon

/-- The head into which the taken series were put back. -/
theorem Sound.restored (h : Sound blocks logNumber batches bound db d) (ms : List Matcher)
    {d' : Disk} (hst : Stored db.dir blocks logNumber batches d') (hv : d'.verdicts = []) :
    let db' := { db with head := (db.head.take ms).2.apply (db.head.take ms).1 }
    Sound blocks logNumber batches bound db' d' ∧ ∀ l, held db' blocks l = held db blocks l := by
  have hkept := Head.take_snd h.head ms
  have hsamples : ∀ l, Batch.samples ((db.head.take ms).2.apply (db.head.take ms).1).series l =
      Batch.samples db.head.series l := by
    intro l
    rw [Head.samples_apply hkept.1, samples_kept h.head, samples_taken]
    cases Matcher.allAccept ms l <;> simp
  have hkeptFilled : ∀ x ∈ (db.head.take ms).2.series, x.samples ≠ [] := by
    intro x hx
    rw [hkept.2] at hx
    exact h.headFilled x (List.mem_filter.1 hx).1
  have htakenFilled : ∀ x ∈ (db.head.take ms).1, x.samples ≠ [] := fun x hx =>
    h.headFilled x (h.taken_open ms hx).1
  refine ⟨h.with_head hst hv (hkept.1.apply _)
    (Head.samples_ne_nil_apply hkeptFilled htakenFilled) hsamples, fun l => ?_⟩
  rw [held_eq, held_eq, hsamples]

/-- A seal fails and nothing is sealed, or the accepted series are sealed. What
is held stays the same, whatever the device answers on the way. -/
theorem Sound.seal (h : Sound blocks logNumber batches bound db d) {log : Log}
    (hlog : db.log = some log) (hbound : bound < UInt64.size) (ms : List Matcher)
    (vs : List Verdict) : ∃ r db' d' blocks' logNumber' batches',
      run (sealMatching ms) (db, d.facing vs) = (r, db', d') ∧
      Sound blocks' logNumber' batches' (bound + 1) db' (d'.facing []) ∧
      db'.dir = db.dir ∧ db'.log.isSome = true ∧ (∀ l, held db' blocks' l = held db blocks l) ∧
      ∀ l, db'.sealedIn.contains l = true ↔ db.sealedIn.contains l = true ∨
        (∃ n, r = .ok n) ∧ held db blocks l ≠ [] ∧ Matcher.allAccept ms l = true := by
  have hst := h.stored.facing vs
  have hlonger : Sound blocks logNumber batches (bound + 1) db d :=
    { h with bounded := Nat.le_succ_of_le h.bounded }
  rw [run_sealMatching hlog]
  by_cases hempty : (db.head.take ms).1.isEmpty = true
  · rw [if_pos hempty]
    refine ⟨.ok 0, db, d.facing vs, blocks, logNumber, batches, rfl, ?_, rfl, by rw [hlog]; rfl,
      fun l => rfl, fun l => ?_⟩
    · have hback : (d.facing vs).facing [] = d := Disk.facing_of_granting h.granting
      rw [hback]
      exact hlonger
    · have hsealed := h.sealed_iff ms l
      rw [List.isEmpty_iff.1 hempty, List.map_nil] at hsealed
      simpa using hsealed
  · rw [if_neg hempty]
    have hkept := Block.keeps_write (blocksDir db.dir) db.nextBlock (db.head.take ms).1
      (d.facing vs)
    have hfailed := Block.write_ifFailing (blocksDir db.dir) db.nextBlock (db.head.take ms).1
      (d.facing vs)
    cases hw : run (Block.write (blocksDir db.dir) db.nextBlock (db.head.take ms).1)
        (d.facing vs) with
    | mk r d1 =>
      rw [hw] at hkept hfailed
      cases r with
      | error e =>
        have hst1 := hst.kept_temporary (hfailed e rfl)
        obtain ⟨hsound, hheld⟩ := hlonger.restored ms (hst1.facing []) rfl
        refine ⟨.error e, _, d1, blocks, logNumber, batches, rfl, hsound, rfl, ?_, hheld,
          fun l => ?_⟩
        · show db.log.isSome = true
          rw [hlog]
          rfl
        · simp
      | ok u =>
        obtain ⟨bytes, number, henc, hfile⟩ := Block.find?_of_write hw
        have hst1 := hst.add_block (Nat.lt_of_le_of_lt h.bounded hbound) henc hfile hkept
        obtain ⟨logNumber', batches', hst2, hon, hbatches⟩ :=
          hst1.checkpoint (h.log log hlog) (db.head.take ms).2.series
        have hsound := h.written ms (hst2.facing []) rfl hon hbatches
        refine ⟨_, _, _, _, logNumber', batches', rfl, hsound, rfl, rfl, h.held_seal ms,
          fun l => ?_⟩
        show Table.contains _ l = true ↔ _
        rw [contains_foldl_set, Bool.or_eq_true, decide_eq_true_iff, h.sealed_iff]
        simp

theorem run_seal_closed (hlog : db.log = none) (ms : List Matcher) (d : Disk) :
    run (sealMatching ms) (db, d) = (.error .databaseClosed, db, d) := by
  rw [sealMatching]
  exact run_bind_error (run_requireOpen_closed hlog d)

/-! ## Close and open -/

theorem Sound.close (h : Sound blocks logNumber batches bound db d) :
    run close (db, d) = (.ok ⟨⟩, { db with log := none }, d) ∧
      Sound blocks logNumber batches bound { db with log := none } d := by
  constructor
  · rw [Database.close, run_bind_ok (run_get _)]
    cases hlog : db.log with
    | none =>
      obtain ⟨dir, head, sealedIn, nextBlock, log⟩ := db
      cases hlog
      rfl
    | some log =>
      simp only [hlog, Option.isSome_some, ↓reduceIte]
      rw [run_bind_ok (run_modify _ _), onDisk, run_on, Disk.run_sync_of_granting h.granting]
  · exact { h with log := fun log hl => by cases hl }

/-- Opening the directory again gives a database that holds the same. -/
theorem Sound.reopen (h : Sound blocks logNumber batches bound db d) (sync : Bool) :
    ∃ db' d', run (openAt db.dir sync) d = (.ok db', d') ∧
      Sound blocks logNumber batches bound db' d' ∧ db'.dir = db.dir ∧
      db'.log.isSome = true ∧ (∀ l, held db' blocks l = held db blocks l) ∧
      ∀ l, db'.sealedIn.contains l = db.sealedIn.contains l := by
  obtain ⟨table, ids, log, d', hrun, hv, hst, hindexes, hsorted, hids, hon⟩ :=
    run_openAt h.stored h.granting h.indexes.disjoint sync
  obtain ⟨hi, hf, hs⟩ := replay_spec table h.logFilled
  have hcontains : ∀ l, table.contains l = db.sealedIn.contains l := by
    intro l
    rw [Bool.eq_iff_iff, hindexes.contains_iff, h.indexes.contains_iff]
  have hsamples : ∀ l, Batch.samples (replay table batches).series l =
      Batch.samples db.head.series l := by
    intro l
    rw [hs, hcontains]
    cases hl : db.sealedIn.contains l with
    | true => simp [h.samples_head hl]
    | false => simp [h.logged l hl]
  refine ⟨_, d', hrun, ?_, rfl, rfl, fun l => ?_, hcontains⟩
  · exact {
      stored := hst
      granting := hv
      numbered := h.numbered
      below := fun id series hs => lt_numberAfter hsorted ((hids id).2 ⟨series, hs⟩)
      bounded := by
        refine Nat.le_trans (numberAfter_le fun id hid => ?_) h.bounded
        obtain ⟨series, hs⟩ := (hids id).1 hid
        exact h.below id series hs
      distinct := h.distinct
      filled := h.filled
      indexes := hindexes
      head := hi
      headFilled := hf
      headOpen := by
        intro x hx
        cases hl : Table.contains table x.labels with
        | false => rfl
        | true =>
          have hsamples := Batch.samples_of_mem hi.distinct hx
          rw [hs, hl] at hsamples
          exact absurd hsamples.symm (hf x hx)
      logFilled := h.logFilled
      logged := by
        intro l hl
        have hl : db.sealedIn.contains l = false := by
          rw [← hcontains]
          exact hl
        rw [h.logged l hl, hsamples]
      log := by
        rintro log' ⟨rfl⟩
        exact hon }
  · rw [held_eq, held_eq, hsamples]

/-- A database opened in a vacant directory is sound and holds nothing. -/
theorem sound_openAt {dir : Path} (h : Vacant dir d) (sync : Bool) :
    ∃ db d' logNumber, run (openAt dir sync) d = (.ok db, d') ∧
      Sound [] logNumber [] 0 db d' ∧ db.dir = dir ∧ db.log.isSome = true ∧
      (∀ l, held db [] l = []) ∧ ∀ l, db.sealedIn.contains l = false := by
  obtain ⟨logNumber, log, d', hrun, hv, hst, hon⟩ := run_openAt_vacant h sync
  refine ⟨_, d', logNumber, hrun, ?_, rfl, rfl, fun l => rfl, fun l => rfl⟩
  exact {
    stored := hst
    granting := hv
    numbered := List.nodup_nil
    below := by simp
    bounded := Nat.le_refl 0
    distinct := by simp
    filled := by simp
    indexes := ⟨List.nodup_nil, fun l id => by simp [labelSets]⟩
    head := Head.indexed_empty
    headFilled := by simp [Head.empty]
    headOpen := by simp [Head.empty]
    logFilled := by simp [Filled]
    logged := fun l _ => rfl
    log := by
      rintro log' ⟨rfl⟩
      exact hon }

end HeapTelemetry.Database
