import HeapTelemetry.Rates.Pool
import HeapTelemetry.Proofs.ServedReports
import Mathlib.Data.List.Perm.Basic
import Mathlib.Algebra.BigOperators.Group.List.Basic

/-! The pool under every schedule. `Move` has one constructor for each thing that a thread can
do. `Sound` is kept by every move: each job is in one place, and no queue is closed while
somebody is still to send to it. From any sound state short of the end some thread can go on,
and every move brings the end one step nearer. -/

namespace HeapTelemetry.Pool
variable {α β : Type} {work : α → β} {p q : Pool α β}

/-! ## What a step does -/

inductive Move (work : α → β) (p : Pool α β) : Pool α β → Prop
  | startWorker {left : Nat} (h : p.caller = .starting (left + 1)) :
    Move work p { p with caller := .starting left, workers := p.workers ++ [.waiting] }
  | releaseJobs (h : p.caller = .starting 0) : Move work p { p with caller := .releasing }
  | releaseResults (h : p.caller = .releasing) : Move work p { p with caller := .feeding }
  | startFeeder (h : p.caller = .feeding) :
    Move work p { p with caller := .collecting, feeder := .feeding }
  | collect {r : β} {rest : List β} (h : p.caller = .collecting) (hr : p.results = r :: rest) :
    Move work p { p with results := rest, collected := p.collected ++ [r] }
  | close (h : p.caller = .collecting) (hr : p.results = []) (ho : p.resultsOpen = false) :
    Move work p { p with caller := .joining }
  | join (h : p.caller = .joining) (he : p.threadsEnded = true) :
    Move work p { p with caller := .returned }
  | send {x : α} {rest : List α} (h : p.feeder = .feeding) (hu : p.unsent = x :: rest)
      (hroom : p.jobs.length < p.depth) :
    Move work p { p with unsent := rest, jobs := p.jobs ++ [x] }
  | giveUp (h : p.feeder = .feeding) (hw : p.jobsWanted = false) :
    Move work p { p with feeder := .stopped }
  | finish (h : p.feeder = .feeding) (hu : p.unsent = []) :
    Move work p { p with feeder := .stopped }
  | receive {before after : List (Worker α β)} {x : α} {rest : List α}
      (h : p.workers = before ++ .waiting :: after) (hj : p.jobs = x :: rest) :
    Move work p { p with jobs := rest, workers := before ++ .holding x :: after }
  | leave {before after : List (Worker α β)} (h : p.workers = before ++ .waiting :: after)
      (hj : p.jobs = []) (ho : p.jobsOpen = false) :
    Move work p { p with workers := before ++ .leaving :: after }
  | compute {before after : List (Worker α β)} {x : α}
      (h : p.workers = before ++ .holding x :: after) :
    Move work p { p with workers := before ++ .sending (work x) :: after }
  | answer {before after : List (Worker α β)} {r : β}
      (h : p.workers = before ++ .sending r :: after) (hroom : p.results.length < p.depth) :
    Move work p { p with results := p.results ++ [r], workers := before ++ .waiting :: after }
  | abandon {before after : List (Worker α β)} {r : β}
      (h : p.workers = before ++ .sending r :: after) (hw : p.resultsWanted = false) :
    Move work p { p with workers := before ++ .leaving :: after }
  | stop {before after : List (Worker α β)} (h : p.workers = before ++ .leaving :: after) :
    Move work p { p with workers := before ++ .stopped :: after }

theorem exists_split {γ : Type} {l : List γ} {i : Nat} {a : γ} (h : l[i]? = some a) :
    ∃ before after, l = before ++ a :: after ∧ ∀ b, l.set i b = before ++ b :: after := by
  obtain ⟨hi, ha⟩ := List.getElem?_eq_some_iff.1 h
  have hset (b : γ) : l.set i b = l.take i ++ b :: l.drop (i + 1) := by
    rw [List.set_eq_take_append_cons_drop, if_pos hi]
  refine ⟨l.take i, l.drop (i + 1), ?_, hset⟩
  rw [← hset, ← ha, List.set_getElem_self]

theorem callerStep_move (h : p.callerStep = some q) : Move work p q := by
  rw [callerStep] at h
  split at h
  · cases h; exact .startWorker ‹_›
  · cases h; exact .releaseJobs ‹_›
  · cases h; exact .releaseResults ‹_›
  · cases h; exact .startFeeder ‹_›
  · split at h
    · cases h; exact .collect ‹_› ‹_›
    · split at h
      · cases h
      · cases h; exact .close ‹_› ‹_› (Bool.eq_false_iff.2 ‹_›)
  · split at h
    · cases h; exact .join ‹_› ‹_›
    · cases h
  · cases h

theorem feederStep_move (h : p.feederStep = some q) : Move work p q := by
  rw [feederStep] at h
  split at h
  · cases h; exact .finish ‹_› ‹_›
  · split at h
    · rename_i hw
      cases h; exact .giveUp ‹_› (by simpa using hw)
    · split at h
      · cases h; exact .send ‹_› ‹_› ‹_›
      · cases h
  · cases h

theorem workerStep_move {i : Nat} (h : p.workerStep work i = some q) : Move work p q := by
  rw [workerStep] at h
  split at h
  · obtain ⟨before, after, hsplit, hset⟩ := exists_split ‹_›
    split at h
    · cases h
      rw [setWorker, hset]
      exact .receive hsplit ‹_›
    · split at h
      · cases h
      · cases h
        rw [setWorker, hset]
        exact .leave hsplit ‹_› (Bool.eq_false_iff.2 ‹_›)
  · obtain ⟨before, after, hsplit, hset⟩ := exists_split ‹_›
    cases h
    rw [setWorker, hset]
    exact .compute hsplit
  · obtain ⟨before, after, hsplit, hset⟩ := exists_split ‹_›
    split at h
    · rename_i hw
      cases h
      rw [setWorker, hset]
      exact .abandon hsplit (by simpa using hw)
    · split at h
      · cases h
        rw [setWorker, hset]
        exact .answer hsplit ‹_›
      · cases h
  · obtain ⟨before, after, hsplit, hset⟩ := exists_split ‹_›
    cases h
    rw [setWorker, hset]
    exact .stop hsplit
  · cases h
  · cases h

theorem step_move {who : Party} (h : step work p who = some q) : Move work p q := by
  cases who with
  | caller => exact callerStep_move h
  | feeder => exact feederStep_move h
  | worker i => exact workerStep_move h

/-! ## What every move keeps -/

def Worker.job : Worker α β → List α
  | holding x => [x]
  | _ => []

def Worker.result : Worker α β → List β
  | sending r => [r]
  | _ => []

def Caller.unstarted : Caller → Nat
  | starting left => left
  | _ => 0

/-- The caller has not started the feeder yet. -/
def Caller.isEarly : Caller → Bool
  | starting _ | releasing | feeding => true
  | _ => false

/-- The caller has seen the queue of results closed. -/
def Caller.isLate : Caller → Bool
  | joining | returned => true
  | _ => false

/-- Jobs that are no results yet, from the workers back to the feeder. -/
def pending (p : Pool α β) : List α := p.workers.flatMap Worker.job ++ p.jobs ++ p.unsent

/-- Results that were computed, from the caller back to the workers. -/
def computed (p : Pool α β) : List β :=
  p.collected ++ p.results ++ p.workers.flatMap Worker.result

structure Sound (work : α → β) (workers : Nat) (all : List α) (p : Pool α β) : Prop where
  depth_eq : p.depth = workers
  crew : p.workers.length + p.caller.unstarted = workers
  accounted : ∃ done, (p.pending ++ done).Perm all ∧ p.computed.Perm (done.map work)
  bounded : p.jobs.length ≤ workers ∧ p.results.length ≤ workers
  early : p.caller.isEarly = true ↔ p.feeder = .absent
  fed : p.feeder = .stopped → p.unsent = []
  drained : ∀ w ∈ p.workers, w.holdsJobs = false → p.feeder = .stopped ∧ p.jobs = []
  closed : p.caller.isLate = true →
    p.results = [] ∧ ∀ w ∈ p.workers, w.holdsResults = false

theorem sound_start (workers : Nat) (all : List α) : Sound work workers all (start workers all) where
  depth_eq := rfl
  crew := Nat.zero_add _
  accounted := ⟨[], by simp [pending, start], by simp [computed, start]⟩
  bounded := ⟨Nat.zero_le _, Nat.zero_le _⟩
  early := by simp [start, Caller.isEarly]
  fed h := by cases h
  drained w hw := by cases hw
  closed h := by cases h

section
variable {workers : Nat} {all : List α}

/-- While the feeder sends there is a worker that receives. -/
theorem Sound.jobsWanted (h : Sound work workers all p) (hworkers : 0 < workers)
    (hfeeding : p.feeder = .feeding) : p.jobsWanted = true := by
  have hstarted : p.caller.unstarted = 0 := by
    cases hc : p.caller with
    | starting left =>
      have habsent := h.early.1 (by rw [hc]; rfl)
      rw [hfeeding] at habsent
      cases habsent
    | _ => rfl
  have hcrew := h.crew
  obtain ⟨w, hw⟩ := List.exists_mem_of_length_pos (l := p.workers) (by omega)
  have hholds : w.holdsJobs = true := by
    refine Decidable.byContradiction fun hno => ?_
    have hstopped := (h.drained w hw (Bool.eq_false_iff.2 hno)).1
    rw [hfeeding] at hstopped
    cases hstopped
  rw [Pool.jobsWanted, List.any_eq_true.2 ⟨w, hw, hholds⟩, Bool.or_true]

theorem Sound.not_late (h : Sound work workers all p) {w : Worker α β} (hw : w ∈ p.workers)
    (hholds : w.holdsResults = true) : p.caller.isLate = false := by
  refine Bool.eq_false_iff.2 fun hlate => ?_
  have hno := (h.closed hlate).2 w hw
  rw [hholds] at hno
  cases hno

/-- While a worker has a result to send the caller is there to receive it. -/
theorem Sound.resultsWanted (h : Sound work workers all p) {w : Worker α β} (hw : w ∈ p.workers)
    (hholds : w.holdsResults = true) : p.resultsWanted = true := by
  refine decide_eq_true fun hreturned => ?_
  have hlate := h.not_late hw hholds
  rw [hreturned] at hlate
  cases hlate

/-- A move passes jobs and results on, or turns one job into its result. -/
theorem Sound.accounted_move (h : Sound work workers all p) (hmove : Move work p q) :
    ∃ done, (q.pending ++ done).Perm all ∧ q.computed.Perm (done.map work) := by
  obtain ⟨done, hpending, hcomputed⟩ := h.accounted
  cases hmove with
  | startWorker hc =>
    refine ⟨done, ?_, ?_⟩
    · simpa [pending, Worker.job] using hpending
    · simpa [computed, Worker.result] using hcomputed
  | collect hc hr =>
    rw [computed, hr] at hcomputed
    exact ⟨done, hpending, by simpa [computed] using hcomputed⟩
  | send hf hu hroom =>
    rw [pending, hu] at hpending
    exact ⟨done, by simpa [pending] using hpending, hcomputed⟩
  | @receive before after x rest hs hj =>
    rw [pending, hs, hj] at hpending
    rw [computed, hs] at hcomputed
    refine ⟨done, .trans ?_ hpending, by simpa [computed, Worker.result] using hcomputed⟩
    simp only [pending, List.flatMap_append, List.flatMap_cons, Worker.job, List.nil_append]
    exact (((List.perm_middle.append_right rest).trans List.perm_middle.symm).append_right
      p.unsent).append_right done
  | @compute before after x hs =>
    rw [pending, hs] at hpending
    rw [computed, hs] at hcomputed
    refine ⟨x :: done, List.perm_middle.trans (.trans ?_ hpending), ?_⟩
    · simp only [pending, List.flatMap_append, List.flatMap_cons, Worker.job, List.nil_append]
      exact ((List.perm_middle.symm.append_right p.jobs).append_right p.unsent).append_right done
    · refine .trans ?_ (hcomputed.cons (work x))
      simp only [computed, List.flatMap_append, List.flatMap_cons, Worker.result, List.nil_append]
      exact (List.perm_middle.append_left _).trans List.perm_middle
  | @answer before after r hs hroom =>
    rw [pending, hs] at hpending
    rw [computed, hs] at hcomputed
    refine ⟨done, by simpa [pending, Worker.job] using hpending, .trans ?_ hcomputed⟩
    simp only [computed, List.flatMap_append, List.flatMap_cons, Worker.result, List.nil_append,
      List.append_assoc, List.cons_append]
    exact (List.perm_middle.symm.append_left _).append_left _
  | @abandon before after r hs hw =>
    have hwanted := h.resultsWanted (w := .sending r) (by simp [hs]) rfl
    rw [hwanted] at hw
    cases hw
  | leave hs _ _ | stop hs =>
    rw [pending, hs] at hpending
    rw [computed, hs] at hcomputed
    exact ⟨done, by simpa [pending, Worker.job] using hpending,
      by simpa [computed, Worker.result] using hcomputed⟩
  | _ => exact ⟨done, hpending, hcomputed⟩

/-- One worker goes on, and one of the queues with it. -/
theorem Sound.worker_move (h : Sound work workers all p) {before after : List (Worker α β)}
    {w w' : Worker α β} {jobs : List α} {results : List β}
    (hs : p.workers = before ++ w :: after) (hholds : w.holdsResults = true)
    (hjobs : jobs.length ≤ workers) (hresults : results.length ≤ workers)
    (hdrained : w'.holdsJobs = false → p.feeder = .stopped ∧ jobs = [])
    (hkept : p.jobs = [] → jobs = [])
    (hmove : Move work p { p with jobs, results, workers := before ++ w' :: after }) :
    Sound work workers all { p with jobs, results, workers := before ++ w' :: after } where
  depth_eq := h.depth_eq
  crew := by simpa [hs] using h.crew
  accounted := h.accounted_move hmove
  bounded := ⟨hjobs, hresults⟩
  early := h.early
  fed := h.fed
  drained x hx hno := by
    have hothers : ∀ y ∈ before ++ after, y ∈ p.workers := fun y hy => by
      rw [hs]
      exact List.perm_middle.mem_iff.2 (List.mem_cons_of_mem _ hy)
    obtain rfl | hx := List.mem_cons.1 (List.perm_middle.mem_iff.1 hx)
    · exact hdrained hno
    · exact (h.drained x (hothers x hx) hno).imp_right hkept
  closed hlate := by
    have hnot := h.not_late (w := w) (by simp [hs]) hholds
    rw [hnot] at hlate
    cases hlate

theorem Sound.move (h : Sound work workers all p) (hworkers : 0 < workers)
    (hmove : Move work p q) : Sound work workers all q := by
  have haccounted := h.accounted_move hmove
  have hcrew := h.crew
  have hearly := h.early
  obtain ⟨hjobs, hresults⟩ := h.bounded
  have hmove' := hmove
  cases hmove with
  | @startWorker left hc =>
    rw [hc] at hcrew hearly
    have hcrew : p.workers.length + (left + 1) = workers := hcrew
    exact { h with
      accounted := haccounted
      crew := by
        rw [List.length_append, List.length_singleton, ← hcrew, Nat.add_assoc, Nat.add_comm 1]
        rfl
      early := hearly
      drained := by simpa [Worker.holdsJobs, or_imp, forall_and] using h.drained
      closed := fun hlate => by cases hlate }
  | releaseJobs hc | releaseResults hc =>
    rw [hc] at hcrew hearly
    exact { h with
      accounted := haccounted, crew := hcrew, early := hearly
      closed := fun hlate => by cases hlate }
  | startFeeder hc =>
    rw [hc] at hcrew hearly
    have habsent : p.feeder = .absent := hearly.1 rfl
    exact { h with
      accounted := haccounted, crew := hcrew
      early := by simp [Caller.isEarly]
      fed := fun hstopped => by cases hstopped
      drained := fun w hw hno => by
        have hstopped := (h.drained w hw hno).1
        rw [habsent] at hstopped
        cases hstopped
      closed := fun hlate => by cases hlate }
  | collect hc hr =>
    rw [hr, List.length_cons] at hresults
    exact { h with
      accounted := haccounted
      bounded := ⟨hjobs, Nat.le_of_succ_le hresults⟩
      closed := fun hlate => by
        rw [hc] at hlate
        cases hlate }
  | close hc hr ho =>
    rw [hc] at hcrew hearly
    exact { h with
      accounted := haccounted, crew := hcrew, early := hearly
      closed := fun _ => ⟨hr, by simpa [resultsOpen, hc, Caller.holdsResults] using ho⟩ }
  | join hc he =>
    rw [hc] at hcrew hearly
    exact { h with
      accounted := haccounted, crew := hcrew, early := hearly
      closed := fun _ => h.closed (by rw [hc]; rfl) }
  | send hf hu hroom =>
    rw [h.depth_eq] at hroom
    exact { h with
      accounted := haccounted
      bounded := ⟨by rw [List.length_append]; exact hroom, hresults⟩
      fed := fun hstopped => by
        rw [hf] at hstopped
        cases hstopped
      drained := fun w hw hno => by
        have hstopped := (h.drained w hw hno).1
        rw [hf] at hstopped
        cases hstopped }
  | giveUp hf hw =>
    rw [h.jobsWanted hworkers hf] at hw
    cases hw
  | finish hf hu =>
    rw [hf] at hearly
    exact { h with
      accounted := haccounted
      early := by simpa using hearly
      fed := fun _ => hu
      drained := fun w hw hno => ⟨rfl, (h.drained w hw hno).2⟩ }
  | @receive before after x rest hs hj =>
    rw [hj, List.length_cons] at hjobs
    exact h.worker_move hs rfl (Nat.le_of_succ_le hjobs) hresults (fun hno => by cases hno)
      (fun hempty => by rw [hj] at hempty; cases hempty) hmove'
  | leave hs hj ho =>
    exact h.worker_move hs rfl hjobs hresults (fun _ => ⟨by simpa [jobsOpen] using ho, hj⟩) id hmove'
  | compute hs => exact h.worker_move hs rfl hjobs hresults (fun hno => by cases hno) id hmove'
  | answer hs hroom =>
    rw [h.depth_eq] at hroom
    exact h.worker_move hs rfl hjobs (by rw [List.length_append]; exact hroom)
      (fun hno => by cases hno) id hmove'
  | @abandon before after r hs hw =>
    have hwanted := h.resultsWanted (w := .sending r) (by simp [hs]) rfl
    rw [hwanted] at hw
    cases hw
  | stop hs =>
    exact h.worker_move hs rfl hjobs hresults (fun _ => h.drained .leaving (by simp [hs]) rfl) id hmove'

/-! ## Moves that are left -/

def Caller.left : Caller → Nat
  | starting left => 3 * left + 5
  | releasing => 4
  | feeding => 3
  | collecting => 2
  | joining => 1
  | returned => 0

def Feeder.left : Feeder → Nat
  | stopped => 0
  | _ => 1

def Worker.left : Worker α β → Nat
  | waiting => 2
  | holding _ => 5
  | sending _ => 4
  | leaving => 1
  | stopped => 0

/-- How many moves are left: a job takes five until its result is collected, and each thread
has its own to start and to end. -/
def left (p : Pool α β) : Nat :=
  p.caller.left + p.feeder.left + (p.workers.map Worker.left).sum + 5 * p.unsent.length +
    4 * p.jobs.length + p.results.length

theorem left_start (workers : Nat) (all : List α) :
    (start workers all : Pool α β).left = 5 * all.length + 3 * workers + 6 := by
  simp only [left, start, Caller.left, Feeder.left, List.map_nil, List.sum_nil, List.length_nil]
  omega

theorem Sound.left_move (h : Sound work workers all p) (hmove : Move work p q) :
    q.left + 1 = p.left := by
  cases hmove with
  | startFeeder hc =>
    have habsent := h.early.1 (by rw [hc]; rfl)
    simp only [left, hc, habsent, Caller.left, Feeder.left]
    omega
  | abandon hs hw =>
    rw [h.resultsWanted (w := .sending _) (hs ▸ List.mem_append_right _ List.mem_cons_self) rfl] at hw
    cases hw
  | startWorker hc =>
    simp only [left, hc, Caller.left, Worker.left, List.map_append, List.sum_append, List.map_cons,
      List.map_nil, List.sum_cons, List.sum_nil]
    omega
  | releaseJobs hc | releaseResults hc | close hc | join hc =>
    simp only [left, hc, Caller.left]
    omega
  | collect hc hr =>
    simp only [left, hr, List.length_cons]
    omega
  | send hf hu hroom =>
    simp only [left, hu, List.length_cons, List.length_append, List.length_nil]
    omega
  | giveUp hf | finish hf =>
    simp only [left, hf, Feeder.left]
    omega
  | receive hs hj =>
    simp only [left, hs, hj, Worker.left, List.map_append, List.sum_append, List.map_cons,
      List.sum_cons, List.length_cons]
    omega
  | leave hs | compute hs | answer hs | stop hs =>
    simp only [left, hs, Worker.left, List.map_append, List.sum_append, List.map_cons,
      List.sum_cons, List.length_append, List.length_cons, List.length_nil]
    omega

/-! ## Progress -/

theorem Worker.eq_stopped {w : Worker α β} (h : w.holdsResults = false) : w = .stopped := by
  cases w with
  | stopped => rfl
  | _ => cases h

/-- When the queue of results is closed all threads have come to their end. -/
theorem Sound.late (h : Sound work workers all p) (hworkers : 0 < workers)
    (hlate : p.caller.isLate = true) : p.feeder = .stopped ∧ p.unsent = [] ∧ p.jobs = [] ∧
      p.results = [] ∧ ∀ w ∈ p.workers, w = .stopped := by
  obtain ⟨hresults, hended⟩ := h.closed hlate
  have hall : ∀ w ∈ p.workers, w = .stopped := fun w hw => Worker.eq_stopped (hended w hw)
  have hcrew := h.crew
  have hstarted : p.caller.unstarted = 0 := by
    cases hc : p.caller with
    | starting left =>
      rw [hc] at hlate
      cases hlate
    | _ => rfl
  obtain ⟨w, hw⟩ := List.exists_mem_of_length_pos (l := p.workers) (by omega)
  obtain ⟨hstopped, hjobs⟩ := h.drained w hw (by rw [hall w hw]; rfl)
  exact ⟨hstopped, h.fed hstopped, hjobs, hresults, hall⟩

/-- A worker goes on unless it waits for a job or for room. -/
theorem exists_workerStep {i : Nat} {w : Worker α β} (hw : p.workers[i]? = some w)
    (hholds : w.holdsResults = true) (hjob : p.jobs ≠ [] ∨ p.feeder = .stopped ∨ w ≠ .waiting)
    (hroom : p.results.length < p.depth) : ∃ q, p.workerStep work i = some q := by
  rw [workerStep, hw]
  cases w with
  | waiting =>
    cases hj : p.jobs with
    | cons x rest => exact ⟨_, rfl⟩
    | nil =>
      have hstopped : p.feeder = .stopped := by simpa [hj] using hjob
      have hclosed : p.jobsOpen = false := by simp [jobsOpen, hstopped]
      exact ⟨_, if_neg (by simp [hclosed])⟩
  | holding x => exact ⟨_, rfl⟩
  | sending r =>
    by_cases hwanted : p.resultsWanted = true
    · exact ⟨_, (if_neg (by simp [hwanted])).trans (if_pos hroom)⟩
    · exact ⟨_, if_pos (by simpa using hwanted)⟩
  | leaving => exact ⟨_, rfl⟩
  | stopped => cases hholds

theorem exists_feederStep (hf : p.feeder = .feeding) (hroom : p.jobs.length < p.depth) :
    ∃ q, p.feederStep = some q := by
  rw [feederStep, hf]
  cases hu : p.unsent with
  | nil => exact ⟨_, rfl⟩
  | cons x rest =>
    by_cases hwanted : p.jobsWanted = true
    · exact ⟨_, by simp only [hwanted, hroom]; rfl⟩
    · exact ⟨_, if_pos (by simpa using hwanted)⟩

/-- Until the caller has returned some thread can go on. -/
theorem Sound.progress (h : Sound work workers all p) (hworkers : 0 < workers)
    (hend : p.caller ≠ .returned) : ∃ who q, step work p who = some q := by
  have hdepth := h.depth_eq
  have hcaller (hnext : ∃ q, p.callerStep = some q) : ∃ who q, step work p who = some q :=
    hnext.elim fun q hq => ⟨.caller, q, hq⟩
  cases hc : p.caller with
  | starting left => exact hcaller (by rw [callerStep, hc]; cases left <;> exact ⟨_, rfl⟩)
  | releasing => exact hcaller (by rw [callerStep, hc]; exact ⟨_, rfl⟩)
  | feeding => exact hcaller (by rw [callerStep, hc]; exact ⟨_, rfl⟩)
  | returned => exact absurd hc hend
  | joining =>
    obtain ⟨hstopped, -, -, -, hall⟩ := h.late hworkers (by rw [hc]; rfl)
    have hthreads : p.threadsEnded = true := by
      rw [threadsEnded, Bool.and_eq_true, List.all_eq_true]
      exact ⟨decide_eq_true hstopped, fun w hw => by rw [hall w hw]; rfl⟩
    exact hcaller (by rw [callerStep, hc]; exact ⟨_, if_pos hthreads⟩)
  | collecting =>
    cases hr : p.results with
    | cons r rest => exact hcaller (by rw [callerStep, hc, hr]; exact ⟨_, rfl⟩)
    | nil =>
      by_cases hopen : p.resultsOpen = true
      · obtain ⟨w, hw, hholds⟩ : ∃ w ∈ p.workers, w.holdsResults = true := by
          simpa [resultsOpen, hc, Caller.holdsResults] using hopen
        obtain ⟨i, hi⟩ := List.getElem?_of_mem hw
        by_cases hjob : p.jobs ≠ [] ∨ p.feeder = .stopped ∨ w ≠ .waiting
        · obtain ⟨q, hq⟩ : ∃ q, p.workerStep work i = some q :=
            exists_workerStep hi hholds hjob (by rw [hr, hdepth]; exact hworkers)
          exact ⟨.worker i, q, hq⟩
        · -- the queue of jobs is empty, so the feeder has room
          simp only [ne_eq, not_or, Decidable.not_not] at hjob
          have hfeeding : p.feeder = .feeding := by
            cases hf : p.feeder with
            | feeding => rfl
            | stopped => exact absurd hf hjob.2.1
            | absent =>
              have hearly := h.early.2 hf
              rw [hc] at hearly
              cases hearly
          obtain ⟨q, hq⟩ := exists_feederStep hfeeding (by rw [hjob.1, hdepth]; exact hworkers)
          exact ⟨.feeder, q, hq⟩
      · exact hcaller (by rw [callerStep, hc, hr]; exact ⟨_, if_neg hopen⟩)

/-- Nothing is left to do when the caller returns, and every job has its result. -/
theorem Sound.returned (h : Sound work workers all p) (hworkers : 0 < workers)
    (hend : p.caller = .returned) : p.left = 0 ∧ p.collected.Perm (all.map work) := by
  obtain ⟨hstopped, hunsent, hjobs, hresults, hall⟩ := h.late hworkers (by rw [hend]; rfl)
  obtain ⟨done, hpending, hcomputed⟩ := h.accounted
  have hlefts : (p.workers.map Worker.left).sum = 0 :=
    List.sum_eq_zero fun n hn => by
      obtain ⟨w, hw, rfl⟩ := List.mem_map.1 hn
      rw [hall w hw]
      rfl
  have hjob : p.workers.flatMap Worker.job = [] :=
    List.flatMap_eq_nil_iff.2 fun w hw => by rw [hall w hw]; rfl
  have hresult : p.workers.flatMap Worker.result = [] :=
    List.flatMap_eq_nil_iff.2 fun w hw => by rw [hall w hw]; rfl
  constructor
  · simp [left, hend, hstopped, hunsent, hjobs, hresults, hlefts, Caller.left, Feeder.left]
  · rw [computed, hresults, hresult, List.append_nil, List.append_nil] at hcomputed
    rw [pending, hjob, hjobs, hunsent] at hpending
    exact hcomputed.trans (hpending.map work)

end

/-! ## Runs -/

theorem run_cons (who : Party) (schedule : List Party) :
    run work (who :: schedule) p = (step work p who).bind (run work schedule) := rfl

/-- What one move keeps a run keeps, and it is as long as the moves that it takes away. -/
theorem Sound.of_run {workers : Nat} {all : List α} (h : Sound work workers all p)
    (hworkers : 0 < workers) {schedule : List Party} (hrun : run work schedule p = some q) :
    Sound work workers all q ∧ schedule.length + q.left = p.left := by
  induction schedule generalizing p with
  | nil =>
    obtain rfl : p = q := Option.some.inj hrun
    exact ⟨h, Nat.zero_add _⟩
  | cons who rest ih =>
    rw [run_cons] at hrun
    obtain ⟨next, hstep, hrest⟩ := Option.bind_eq_some_iff.1 hrun
    have hmove := step_move hstep
    obtain ⟨hq, hlength⟩ := ih (h.move hworkers hmove) hrest
    have hleft := h.left_move hmove
    exact ⟨hq, by rw [List.length_cons]; omega⟩

/-- From any sound state a run can be carried to its end. -/
theorem Sound.exists_end {workers : Nat} {all : List α} (h : Sound work workers all p)
    (hworkers : 0 < workers) : ∃ schedule q, run work schedule p = some q ∧ q.caller = .returned := by
  induction hn : p.left generalizing p with
  | zero =>
    by_cases hend : p.caller = .returned
    · exact ⟨[], p, rfl, hend⟩
    · obtain ⟨who, q, hstep⟩ := h.progress hworkers hend
      have hleft := h.left_move (step_move hstep)
      omega
  | succ n ih =>
    by_cases hend : p.caller = .returned
    · exact ⟨[], p, rfl, hend⟩
    · obtain ⟨who, q, hstep⟩ := h.progress hworkers hend
      have hmove := step_move hstep
      have hleft := h.left_move hmove
      obtain ⟨schedule, last, hrun, hlast⟩ := ih (h.move hworkers hmove) (by omega)
      exact ⟨who :: schedule, last, by rw [run_cons, hstep]; exact hrun, hlast⟩

theorem outcome_of_perm {all : List α} (h : p.collected.Perm (all.map work)) :
    p.outcome all.length = .ok p.collected := by
  rw [outcome, if_pos (h.length_eq.trans (List.length_map work))]

/-- Whichever way the pool takes, it gives each window's rates once and no error. -/
theorem computed_perm {cores : Nat} (hcores : 0 < cores) {windows : List Window}
    {r : Except Error Report} (h : Window.Computed cores windows r) :
    ∃ results, r = .ok results ∧ results.Perm (windows.map Window.rates) := by
  cases h with
  | unpooled => exact ⟨[], rfl, .refl _⟩
  | @pooled _ schedule p hsome hran hreturned =>
    have hworkers : 0 < min cores windows.length :=
      Nat.lt_min.2 ⟨hcores, List.length_pos_iff.2 hsome⟩
    have hend := ((sound_start _ windows).of_run hworkers hran).1
    have hperm := (hend.returned hworkers hreturned).2
    exact ⟨p.collected, outcome_of_perm hperm, hperm⟩

theorem exists_computed {cores : Nat} (hcores : 0 < cores) (windows : List Window) :
    ∃ r, Window.Computed cores windows r := by
  by_cases hsome : windows = []
  · subst hsome
    exact ⟨_, .unpooled⟩
  · have hworkers : 0 < min cores windows.length :=
      Nat.lt_min.2 ⟨hcores, List.length_pos_iff.2 hsome⟩
    obtain ⟨schedule, p, hran, hreturned⟩ := (sound_start _ windows).exists_end hworkers
    exact ⟨_, .pooled hsome hran hreturned⟩

/-- In whichever order the windows of a session are taken, and whichever way the pool takes,
ranking what it gives is the session's report up to the order of sites of equal growth. -/
theorem ranked_computed {cores : Nat} (hcores : 0 < cores) {w : SessionWindows}
    {windows : List Window} (hsites : windows.Perm (w.sites.map Prod.snd))
    {r : Except Error Report} (h : Window.Computed cores windows r) :
    ∃ results, r = .ok results ∧ (Report.ranked results).Perm w.compute ∧
      (Report.ranked results).map (·.rates.inUseBytes) = w.compute.map (·.rates.inUseBytes) := by
  obtain ⟨results, hr, hperm⟩ := computed_perm hcores h
  have hsorted := (List.mergeSort_perm w.sites fun a b => decide (a.1 ≤ b.1)).symm
  have hentries := hperm.trans ((hsites.trans (hsorted.map Prod.snd)).map Window.rates)
  rw [List.map_map] at hentries
  refine ⟨results, hr, ?_, Report.growth_ranked hentries⟩
  exact (List.mergeSort_perm _ _).trans (hentries.trans (List.mergeSort_perm _ _).symm)

/-- At every point of every schedule each window is unsent, queued, at a worker, or has its
rates, which are at the worker, queued or collected. A schedule can always go on until the
caller returns; then it has as many steps as every other, and gives one result a window. -/
theorem every_window_computed_once (workers : Nat) (hworkers : 1 ≤ workers)
    (windows : List Window) (schedule : List Party) (p : Pool Window SiteRates)
    (hrun : run Window.rates schedule (start workers windows) = some p) :
    (∃ done,
      (p.workers.flatMap Worker.job ++ p.jobs ++ p.unsent ++ done).Perm windows ∧
        (p.collected ++ p.results ++ p.workers.flatMap Worker.result).Perm
          (done.map Window.rates)) ∧
      p.jobs.length ≤ workers ∧ p.results.length ≤ workers ∧
      (p.caller ≠ .returned → ∃ who q, step Window.rates p who = some q) ∧
      schedule.length ≤ 5 * windows.length + 3 * workers + 6 ∧
      (p.caller = .returned ↔ schedule.length = 5 * windows.length + 3 * workers + 6) ∧
      (∃ more q, run Window.rates more p = some q ∧ q.caller = .returned) ∧
      (p.caller = .returned →
        p.outcome windows.length = .ok p.collected ∧
          p.collected.Perm (windows.map Window.rates)) := by
  obtain ⟨h, hlength⟩ := (sound_start workers windows).of_run hworkers hrun
  rw [left_start] at hlength
  refine ⟨h.accounted, h.bounded.1, h.bounded.2, h.progress hworkers, by omega,
    ⟨fun hend => ?_, fun hfull => ?_⟩, h.exists_end hworkers, fun hend => ?_⟩
  · have hleft := (h.returned hworkers hend).1
    omega
  · refine Decidable.byContradiction fun hend => ?_
    obtain ⟨who, q, hstep⟩ := h.progress hworkers hend
    have hleft := h.left_move (step_move hstep)
    omega
  · have hperm := (h.returned hworkers hend).2
    exact ⟨outcome_of_perm hperm, hperm⟩

theorem windows_computed_by_two_workers :
    let grow := Window.empty ⟨[⟨"grow", "m.go", 1⟩]⟩ 3
    let keep := Window.empty ⟨[⟨"keep", "m.go", 2⟩]⟩ 3
    let schedule : List Party :=
      [.caller, .caller, .caller, .caller, .caller, .feeder, .feeder, .worker 0, .worker 1,
        .worker 1, .worker 1, .worker 0, .worker 0, .caller, .feeder, .worker 1, .worker 0,
        .caller, .worker 0, .worker 1, .caller, .caller]
    let p : Pool Window SiteRates :=
      ⟨2, .returned, .stopped, [.stopped, .stopped], [], [], [], [keep.rates, grow.rates]⟩
    run Window.rates schedule (start 2 [grow, keep]) = some p ∧
      p.outcome 2 = .ok p.collected ∧ p.collected.Perm [grow.rates, keep.rates] := by
  intro grow keep schedule p
  have hrun : run Window.rates schedule (start 2 [grow, keep]) = some p := rfl
  have hall := every_window_computed_once 2 (by decide) [grow, keep] schedule p hrun
  exact ⟨hrun, hall.2.2.2.2.2.2.2 rfl⟩

end HeapTelemetry.Pool
