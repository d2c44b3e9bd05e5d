import HeapTelemetry.Lifecycle
import HeapTelemetry.Proofs.Lists
import HeapTelemetry.Proofs.Steps

/-! Any number of tasks at one lifecycle, interleaved at every atomic step. Some let
themselves in and leave again, others shut it down and wait until nobody is left. Once such a
wait is over nobody is inside, and nobody gets in any more. -/

namespace HeapTelemetry.Lifecycle
open Step

/-! ## Tasks -/

/-- What the tasks share: the lifecycle, and how often those that wait were woken. -/
structure Shared where
  lifecycle : Lifecycle
  notices : Nat
  deriving DecidableEq, Repr

/-- Where a task is between two atomic steps. -/
inductive Task
  /-- is about to be counted -/
  | arriving
  /-- is about to look whether shutdown has begun -/
  | counted
  /-- has seen that it has, and is still counted -/
  | refused
  /-- has seen that it has not, and is about to get in -/
  | admitted
  | inside
  /-- has left as the last, and is about to wake those that wait -/
  | noticing
  | gone
  /-- is about to begin the shutdown -/
  | stopping
  /-- is about to listen for notices -/
  | looping
  /-- hears every notice after so many, and is about to look whether anybody is left -/
  | listening (since : Nat)
  /-- waits for a notice after so many -/
  | asleep (since : Nat)
  /-- has found nobody left -/
  | stopped
  deriving DecidableEq, Repr

namespace Task

/-- The next atomic step of a task. -/
def next : Task → Shared → Task × Shared
  | arriving, s => (counted, { s with lifecycle := s.lifecycle.enter })
  | counted, s => (if s.lifecycle.shutDown then refused else admitted, s)
  | admitted, s => (inside, s)
  | refused, s | inside, s =>
    (if s.lifecycle.inFlight = 1 then noticing else gone,
      { s with lifecycle := s.lifecycle.leave })
  | noticing, s => (gone, { s with notices := s.notices + 1 })
  | stopping, s => (looping, { s with lifecycle := s.lifecycle.beginShutdown })
  | looping, s => (listening s.notices, s)
  | listening since, s => (if s.lifecycle.isIdle then stopped else asleep since, s)
  | asleep since, s => (if since < s.notices then looping else asleep since, s)
  | gone, s => (gone, s)
  | stopped, s => (stopped, s)

/-- Is on the way in, and counted already. -/
def isEntering : Task → Bool
  | counted | refused | admitted => true
  | _ => false

/-- Is counted: a shutdown waits for it. -/
def isCounted : Task → Bool
  | counted | refused | admitted | inside => true
  | _ => false

/-- Has got past the check, and has not left. -/
def isAdmitted : Task → Bool
  | admitted | inside => true
  | _ => false

/-- Will wake those that wait, should it be the last to leave. -/
def willWake : Task → Bool
  | counted | refused | admitted | inside | noticing => true
  | _ => false

/-- Has begun a shutdown. -/
def hasBegun : Task → Bool
  | looping | listening _ | asleep _ | stopped => true
  | _ => false

/-- The notices that a waiting task has not heard of come after these. -/
def since? : Task → Option Nat
  | listening since | asleep since => some since
  | _ => none

variable {t : Task} {s : Shared}

theorem next_shutDown (h : s.lifecycle.shutDown = true) :
    (t.next s).2.lifecycle.shutDown = true := by
  cases t <;> first | exact h | rfl

theorem notices_le_next : s.notices ≤ (t.next s).2.notices := by
  cases t <;> simp [next]

/-- A step counts its task in or out, and no other. -/
theorem next_inFlight (h : t.isCounted = true → 0 < s.lifecycle.inFlight) :
    (t.next s).2.lifecycle.inFlight + t.isCounted.toNat =
      s.lifecycle.inFlight + (t.next s).1.isCounted.toNat := by
  cases t with
  | refused | inside =>
    have hcounted := h rfl
    simp only [next, leave]
    split
    · simp only [isCounted, Bool.toNat_true, Bool.toNat_false]
      omega
    · simp only [isCounted, Bool.toNat_true, Bool.toNat_false]
      omega
  | counted =>
    simp only [next]
    split <;> rfl
  | listening since =>
    simp only [next]
    split <;> rfl
  | asleep since =>
    simp only [next]
    split <;> rfl
  | _ => rfl

theorem next_hasBegun (h : t.hasBegun = true → s.lifecycle.shutDown = true)
    (hnext : (t.next s).1.hasBegun = true) : (t.next s).2.lifecycle.shutDown = true := by
  cases t with
  | stopping => rfl
  | looping | listening | asleep | stopped => exact next_shutDown (h rfl)
  | counted | refused | inside => simp only [next] at hnext; split at hnext <;> cases hnext
  | _ => cases hnext

/-- Who gets past the check was past it, or found that shutdown had not begun. -/
theorem next_isAdmitted (hnext : (t.next s).1.isAdmitted = true) :
    t.isAdmitted = true ∨ s.lifecycle.shutDown = false := by
  cases t with
  | counted =>
    simp only [next] at hnext
    split at hnext
    · cases hnext
    · rename_i hopen
      exact .inr (Bool.eq_false_iff.2 hopen)
  | admitted | inside => exact .inl rfl
  | refused | listening | asleep => simp only [next] at hnext; split at hnext <;> cases hnext
  | _ => cases hnext

/-- A wait is over when nobody is counted. -/
theorem next_stopped (hnext : (t.next s).1 = stopped) :
    t = stopped ∨ t.hasBegun = true ∧ s.lifecycle.inFlight = 0 := by
  cases t with
  | listening since =>
    simp only [next] at hnext
    split at hnext
    · rename_i hidle
      exact .inr ⟨rfl, beq_iff_eq.1 hidle⟩
    · cases hnext
  | stopped => exact .inl rfl
  | counted | refused | inside | asleep => simp only [next] at hnext; split at hnext <;> cases hnext
  | _ => cases hnext

/-- What a task heard of has happened. -/
theorem next_since? (h : ∀ since ∈ t.since?, since ≤ s.notices) :
    ∀ since ∈ (t.next s).1.since?, since ≤ (t.next s).2.notices := by
  intro since hsince
  cases t with
  | looping => cases hsince; exact Nat.le_refl _
  | listening since' | asleep since' =>
    simp only [next] at hsince
    split at hsince
    · cases hsince
    · exact h since hsince
  | counted | refused | inside => simp only [next] at hsince; split at hsince <;> cases hsince
  | _ => cases hsince

theorem isCounted_of_isAdmitted (h : t.isAdmitted = true) : t.isCounted = true := by
  cases t with
  | admitted | inside => rfl
  | _ => cases h

theorem willWake_of_isCounted (h : t.isCounted = true) : t.willWake = true := by
  cases t with
  | counted | refused | admitted | inside => rfl
  | _ => cases h

/-- Who falls asleep has found somebody counted. -/
theorem next_asleep {since : Nat} (hnext : (t.next s).1 = asleep since) :
    t = asleep since ∨ (t.next s).2 = s ∧ 0 < s.lifecycle.inFlight := by
  cases t with
  | listening since' =>
    simp only [next] at hnext
    split at hnext
    · cases hnext
    · rename_i hidle
      exact .inr ⟨rfl, Nat.pos_of_ne_zero fun h => hidle (beq_iff_eq.2 h)⟩
  | asleep since' =>
    simp only [next] at hnext
    split at hnext
    · cases hnext
    · exact .inl hnext
  | counted | refused | inside => simp only [next] at hnext; split at hnext <;> cases hnext
  | _ => cases hnext

/-- Who will wake the others and has not done so will, unless it left with others behind. -/
theorem next_willWake (h : t.isCounted = true → 0 < s.lifecycle.inFlight)
    (ht : t.willWake = true) :
    (t.next s).1.willWake = true ∨ 0 < (t.next s).2.lifecycle.inFlight ∨
      (t.next s).2.notices = s.notices + 1 := by
  cases t with
  | refused | inside =>
    have hcounted := h rfl
    simp only [next, leave]
    split
    · exact .inl rfl
    · exact .inr (.inl (by omega))
  | counted => simp only [next]; split <;> exact .inl rfl
  | admitted => exact .inl rfl
  | noticing => exact .inr (.inr rfl)
  | _ => cases ht

end Task

/-! ## Crowds -/

/-- The tasks that came to a lifecycle, in the order of their coming. -/
structure Crowd where
  shared : Shared
  tasks : List Task
  deriving DecidableEq, Repr

/-- What happens: a user asks to be let in, a shutdown is called, or a task makes a step. -/
inductive Event
  | acquire
  | shutDown
  | step (place : Nat)
  deriving DecidableEq, Repr

namespace Crowd

def initial : Crowd := ⟨⟨Lifecycle.initial, 0⟩, []⟩

def happen (c : Crowd) : Event → Crowd
  | .acquire => { c with tasks := c.tasks ++ [.arriving] }
  | .shutDown => { c with tasks := c.tasks ++ [.stopping] }
  | .step place =>
    match c.tasks[place]? with
    | some t => ⟨(t.next c.shared).2, c.tasks.set place (t.next c.shared).1⟩
    | none => c

def run (events : List Event) (c : Crowd) : Crowd := events.foldl happen c

theorem run_append (events more : List Event) (c : Crowd) :
    run (events ++ more) c = run more (run events c) := List.foldl_append

variable {c : Crowd}

/-- The account of a crowd: who is counted, that shutdown has begun, that nobody is in once a
shutdown is over, and that somebody will wake those that would otherwise wait for ever. -/
structure Orderly (c : Crowd) : Prop where
  inFlight : c.shared.lifecycle.inFlight = c.tasks.countP Task.isCounted
  begun : ∀ t ∈ c.tasks, t.hasBegun = true → c.shared.lifecycle.shutDown = true
  vacated : .stopped ∈ c.tasks → ∀ t ∈ c.tasks, t.isAdmitted = false
  heard : ∀ t ∈ c.tasks, ∀ since ∈ t.since?, since ≤ c.shared.notices
  woken : .asleep c.shared.notices ∈ c.tasks → ∃ t ∈ c.tasks, t.willWake = true

theorem orderly_initial : Orderly initial := by
  refine ⟨rfl, ?_, ?_, ?_, ?_⟩ <;> simp [initial]

/-- A task that nobody waits for may come at any time. -/
theorem Orderly.come (h : Orderly c) {t : Task} (hcounted : t.isCounted = false)
    (hbegun : t.hasBegun = false) (hadmitted : t.isAdmitted = false) (hsince : t.since? = none) :
    Orderly { c with tasks := c.tasks ++ [t] } where
  inFlight := by
    simp only [List.countP_append, List.countP_singleton, hcounted]
    exact h.inFlight
  begun := by
    intro u hu hub
    rcases List.mem_append.1 hu with hu | hu
    · exact h.begun u hu hub
    · rw [List.mem_singleton.1 hu, hbegun] at hub
      cases hub
  vacated := by
    intro hstopped u hu
    rcases List.mem_append.1 hu with hu | hu
    · refine h.vacated ((List.mem_append.1 hstopped).resolve_right fun hs => ?_) u hu
      rw [← List.mem_singleton.1 hs] at hbegun
      cases hbegun
    · exact List.mem_singleton.1 hu ▸ hadmitted
  heard := by
    intro u hu
    rcases List.mem_append.1 hu with hu | hu
    · exact h.heard u hu
    · rw [List.mem_singleton.1 hu, hsince]
      nofun
  woken := by
    intro hasleep
    have hold := (List.mem_append.1 hasleep).resolve_right fun hs => by
      rw [← List.mem_singleton.1 hs] at hbegun
      cases hbegun
    obtain ⟨u, hu, hwake⟩ := h.woken hold
    exact ⟨u, List.mem_append_left _ hu, hwake⟩

/-- Who is counted is in flight, so nobody leaves a lifecycle with nobody in flight. -/
theorem Orderly.inFlight_pos (h : Orderly c) {t : Task} (ht : t ∈ c.tasks)
    (hcounted : t.isCounted = true) : 0 < c.shared.lifecycle.inFlight :=
  h.inFlight ▸ List.countP_pos_iff.2 ⟨t, ht, hcounted⟩

/-- A step of a task keeps the account. -/
theorem Orderly.step (h : Orderly c) {place : Nat} {t : Task} (ht : c.tasks[place]? = some t) :
    Orderly ⟨(t.next c.shared).2, c.tasks.set place (t.next c.shared).1⟩ := by
  have hmem := List.mem_of_getElem? ht
  have hcounted := h.inFlight_pos hmem
  have hold : ∀ u ∈ c.tasks.set place (t.next c.shared).1,
      u ∈ c.tasks ∨ u = (t.next c.shared).1 := fun u hu => List.mem_or_eq_of_mem_set hu
  have hinFlight : (t.next c.shared).2.lifecycle.inFlight =
      (c.tasks.set place (t.next c.shared).1).countP Task.isCounted := by
    have hset := countP_set_add Task.isCounted ht (t.next c.shared).1
    have hstep := Task.next_inFlight hcounted
    rw [h.inFlight] at hstep
    omega
  refine ⟨hinFlight, ?_, ?_, ?_, ?_⟩
  · intro u hu hub
    rcases hold u hu with hu | rfl
    · exact Task.next_shutDown (h.begun u hu hub)
    · exact Task.next_hasBegun (h.begun t hmem) hub
  · intro hstopped u hu
    -- whether the wait was over before or is over now, nobody was admitted, and nobody could be
    have hclosed : (∀ v ∈ c.tasks, v.isAdmitted = false) ∧ c.shared.lifecycle.shutDown = true := by
      have hwas : .stopped ∈ c.tasks → (∀ v ∈ c.tasks, v.isAdmitted = false) ∧
          c.shared.lifecycle.shutDown = true := fun hs => ⟨h.vacated hs, h.begun _ hs rfl⟩
      rcases hold _ hstopped with hs | hs
      · exact hwas hs
      · rcases Task.next_stopped hs.symm with rfl | ⟨hbegun, hzero⟩
        · exact hwas hmem
        · refine ⟨fun v hv => Bool.eq_false_iff.2 fun hadmitted => ?_, h.begun t hmem hbegun⟩
          have hpos := h.inFlight_pos hv (Task.isCounted_of_isAdmitted hadmitted)
          omega
    obtain ⟨hnobody, hshut⟩ := hclosed
    rcases hold u hu with hu | rfl
    · exact hnobody u hu
    · refine Bool.eq_false_iff.2 fun hadmitted => ?_
      rcases Task.next_isAdmitted hadmitted with hin | hopen
      · rw [hnobody t hmem] at hin
        cases hin
      · rw [hshut] at hopen
        cases hopen
  · intro u hu
    rcases hold u hu with hu | rfl
    · exact fun since hsince => Nat.le_trans (h.heard u hu since hsince) Task.notices_le_next
    · exact Task.next_since? (h.heard t hmem)
  · intro hasleep
    -- somebody counted will do; else who sleeps slept before, and who was to wake it still is
    by_cases hpos : 0 < (t.next c.shared).2.lifecycle.inFlight
    · obtain ⟨u, hu, huc⟩ := List.countP_pos_iff.1 (hinFlight ▸ hpos)
      exact ⟨u, hu, Task.willWake_of_isCounted huc⟩
    · have hwas : .asleep (t.next c.shared).2.notices ∈ c.tasks := by
        rcases hold _ hasleep with hs | hs
        · exact hs
        · rcases Task.next_asleep hs.symm with hwaits | ⟨hsame, hflight⟩
          · rw [hwaits] at hmem
            exact hmem
          · rw [hsame] at hpos
            exact absurd hflight hpos
      have hnotices : (t.next c.shared).2.notices = c.shared.notices :=
        Nat.le_antisymm (h.heard _ hwas _ rfl) Task.notices_le_next
      obtain ⟨u, hu, hwake⟩ := h.woken (hnotices ▸ hwas)
      rcases mem_set_or_eq ht (t.next c.shared).1 hu with hu | rfl
      · exact ⟨u, hu, hwake⟩
      · obtain ⟨hplace, _⟩ := List.getElem?_eq_some_iff.1 ht
        rcases Task.next_willWake hcounted hwake with hnext | hflight | hnoticed
        · exact ⟨_, List.mem_set hplace _, hnext⟩
        · exact absurd hflight hpos
        · omega

theorem Orderly.happen (h : Orderly c) (e : Event) : Orderly (c.happen e) := by
  cases e with
  | acquire => exact h.come rfl rfl rfl rfl
  | shutDown => exact h.come rfl rfl rfl rfl
  | step place =>
    simp only [Crowd.happen]
    split
    · rename_i t ht
      exact h.step ht
    · exact h

theorem Orderly.run (h : Orderly c) (events : List Event) : Orderly (run events c) := by
  induction events generalizing c with
  | nil => exact h
  | cons e events ih => exact ih (h.happen e)

theorem orderly_run (events : List Event) : Orderly (run events initial) :=
  orderly_initial.run events

/-! ## Users -/

/-- With nobody on the way in, those in flight are those inside. -/
theorem Orderly.inFlight_eq (h : Orderly c) (hentering : ∀ t ∈ c.tasks, t.isEntering = false) :
    c.shared.lifecycle.inFlight = c.tasks.countP (· = .inside) := by
  rw [h.inFlight]
  refine List.countP_congr fun t ht => ?_
  have hnot := hentering t ht
  cases t with
  | counted | refused | admitted => cases hnot
  | inside => simp [Task.isCounted]
  | _ => simp [Task.isCounted]

theorem stopped_happen (h : .stopped ∈ c.tasks) (e : Event) : .stopped ∈ (c.happen e).tasks := by
  cases e with
  | acquire | shutDown => exact List.mem_append_left _ h
  | step place =>
    simp only [Crowd.happen]
    split
    · rename_i t ht
      rcases mem_set_or_eq ht (t.next c.shared).1 h with hs | rfl
      · exact hs
      · obtain ⟨hplace, _⟩ := List.getElem?_eq_some_iff.1 ht
        exact List.mem_set hplace _
    · exact h

theorem stopped_run (h : .stopped ∈ c.tasks) (events : List Event) :
    .stopped ∈ (run events c).tasks := by
  induction events generalizing c with
  | nil => exact h
  | cons e events ih => exact ih (stopped_happen h e)

/-- Once a shutdown is over nobody is inside, whatever happens from then on. -/
theorem Orderly.nobody_admitted (h : Orderly c) (hstopped : .stopped ∈ c.tasks)
    (events : List Event) : ∀ t ∈ (Crowd.run events c).tasks, t.isAdmitted = false :=
  (h.run events).vacated (stopped_run hstopped events)

/-! ## Tasks that are not interleaved -/

end Crowd

namespace Task

/-- So many steps of a task with no step of another between them. -/
def alone : Nat → Task × Shared → Task × Shared
  | 0, x => x
  | n + 1, x => alone n (x.1.next x.2)

/-- Letting oneself in at once is what the steps of one task do. -/
theorem alone_arriving (l : Lifecycle) (notices : Nat) :
    let x := alone 3 (arriving, ⟨l, notices⟩)
    x.2.lifecycle = (run acquire l).2 ∧ (x.1 = inside ↔ (run acquire l).1 = .ok ()) := by
  obtain ⟨inFlight, shutDown⟩ := l
  cases shutDown with
  | false => exact ⟨rfl, iff_of_true rfl rfl⟩
  | true =>
    have hleft : (alone 3 (arriving, ⟨⟨inFlight, true⟩, notices⟩)).1 =
        if inFlight + 1 = 1 then noticing else gone := rfl
    have hrefused : (run acquire ⟨inFlight, true⟩).1 = .error .shutDown := rfl
    refine ⟨rfl, ?_⟩
    rw [hleft, hrefused]
    exact iff_of_false (by split <;> nofun) nofun

/-- A shutdown that is not interleaved looks once whether anybody is left. -/
theorem alone_stopping (l : Lifecycle) (notices : Nat) :
    let x := alone 3 (stopping, ⟨l, notices⟩)
    x.2.lifecycle = l.beginShutdown ∧ (x.1 = stopped ↔ l.beginShutdown.isIdle = true) := by
  refine ⟨rfl, ?_⟩
  simp only [alone, next]
  split
  · rename_i hidle
    exact iff_of_true rfl hidle
  · rename_i hidle
    exact iff_of_false nofun hidle

end Task

namespace Crowd
variable {c : Crowd}

theorem run_replicate {place : Nat} {t : Task} (h : c.tasks[place]? = some t) (n : Nat) :
    (run (List.replicate n (.step place)) c).tasks[place]? =
      some (Task.alone n (t, c.shared)).1 := by
  induction n generalizing c t with
  | zero => exact h
  | succ n ih =>
    obtain ⟨hplace, _⟩ := List.getElem?_eq_some_iff.1 h
    have hstep : c.happen (.step place) =
        ⟨(t.next c.shared).2, c.tasks.set place (t.next c.shared).1⟩ := by
      simp only [Crowd.happen, h]
    rw [List.replicate_succ]
    show (run (List.replicate n (.step place)) (c.happen (.step place))).tasks[place]? = _
    rw [hstep]
    exact ih (List.getElem?_set_self hplace)

/-- When everybody has left and those that wait were woken, every shutdown gets to its end. -/
theorem Orderly.stops (h : Orderly c) (hnobody : ∀ t ∈ c.tasks, t.willWake = false) {place : Nat}
    {t : Task} (ht : c.tasks[place]? = some t) (hshutdown : t = .stopping ∨ t.hasBegun = true) :
    ∃ n, (Crowd.run (List.replicate n (.step place)) c).tasks[place]? = some .stopped := by
  have hmem := List.mem_of_getElem? ht
  have hidle : c.shared.lifecycle.inFlight = 0 := by
    rw [h.inFlight, List.countP_eq_zero]
    intro u hu hcounted
    have hwake := Task.willWake_of_isCounted hcounted
    rw [hnobody u hu] at hwake
    cases hwake
  have hstops : ∃ n, (Task.alone n (t, c.shared)).1 = .stopped := by
    rcases hshutdown with rfl | hbegun
    · exact ⟨3, by simp [Task.alone, Task.next, beginShutdown, isIdle, hidle]⟩
    · cases t with
      | looping => exact ⟨2, by simp [Task.alone, Task.next, isIdle, hidle]⟩
      | listening since => exact ⟨1, by simp [Task.alone, Task.next, isIdle, hidle]⟩
      | asleep since =>
        have hne : since ≠ c.shared.notices := by
          rintro rfl
          obtain ⟨u, hu, hwake⟩ := h.woken hmem
          rw [hnobody u hu] at hwake
          cases hwake
        have hlt : since < c.shared.notices :=
          Nat.lt_of_le_of_ne (h.heard _ hmem since rfl) hne
        exact ⟨3, by simp [Task.alone, Task.next, isIdle, hidle, hlt]⟩
      | stopped => exact ⟨0, rfl⟩
      | _ => cases hbegun
  obtain ⟨n, hn⟩ := hstops
  exact ⟨n, by rw [run_replicate ht, hn]⟩

end Crowd
end HeapTelemetry.Lifecycle
