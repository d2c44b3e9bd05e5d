import HeapTelemetry.Proofs.Storage.Reassembly
import Mathlib.Data.List.Forall2

/-! Order of arrival and order of time. What is read back of measurements is
determined up to the order of locations at each instant; where measurements
arrived in the order of their instants, it is these measurements again. -/

namespace HeapTelemetry.Measurement

/-- The instants can be stored. -/
def Dated (ms : List Measurement) : Prop := ∀ m ∈ ms, m.observedAt.nanos? = some m.time

/-- Two measurements of the same locations at the same instant. -/
def Matches (a b : Measurement) : Prop :=
  a.observedAt = b.observedAt ∧ a.locations.Perm b.locations

/-- Every measurement has locations and a later instant than the one before it, and
none falls in a leap second. -/
structure Steady (ms : List Measurement) : Prop where
  located : ∀ m ∈ ms, m.locations ≠ []
  whole : ∀ m ∈ ms, m.observedAt = Timestamp.ofNanos m.time
  ascending : ms.Pairwise (·.time < ·.time)

theorem Steady.dated {ms : List Measurement} (h : Steady ms) : Dated ms := by
  intro m hm
  rw [h.whole m hm, Timestamp.nanos?_ofNanos]

theorem nodup_times {ms : List Measurement} (h : ms.Pairwise (·.time < ·.time)) :
    (ms.map Measurement.time).Nodup := by
  refine List.pairwise_map.2 (h.imp ?_)
  intro a b hlt heq
  exact Int64.lt_irrefl (heq ▸ hlt)

/-! ## Locations at an instant -/

theorem mem_locationsAt {ms : List Measurement} {time : Int64} {l : Location} :
    l ∈ locationsAt ms time ↔
      ∃ m ∈ ms, m.observedAt.nanos? = some time ∧ l ∈ m.locations := by
  simp [locationsAt, and_assoc]

theorem locationsAt_append (xs ys : List Measurement) (time : Int64) :
    locationsAt (xs ++ ys) time = locationsAt xs time ++ locationsAt ys time := by
  simp [locationsAt]

theorem locationsAt_eq_nil {ms : List Measurement} (hd : Dated ms) {time : Int64}
    (h : ∀ m ∈ ms, m.locations ≠ [] → m.time ≠ time) : locationsAt ms time = [] := by
  rw [List.eq_nil_iff_forall_not_mem]
  intro l hl
  obtain ⟨m, hm, htime, hl⟩ := mem_locationsAt.1 hl
  rw [hd m hm] at htime
  exact h m hm (List.ne_nil_of_mem hl) (Option.some.inj htime)

/-- At distinct instants every measurement keeps its locations to itself. -/
theorem locationsAt_of_mem {ms : List Measurement} (hd : Dated ms)
    (h : ms.Pairwise (·.time < ·.time)) {m : Measurement} (hm : m ∈ ms) :
    locationsAt ms m.time = m.locations := by
  induction ms with
  | nil => cases hm
  | cons x rest ih =>
    obtain ⟨hx, hrest⟩ := List.forall_mem_cons.1 hd
    obtain ⟨hlt, hascending⟩ := List.pairwise_cons.1 h
    have hcons : locationsAt (x :: rest) m.time = locationsAt [x] m.time ++ locationsAt rest m.time :=
      locationsAt_append [x] rest m.time
    rw [hcons]
    rcases List.mem_cons.1 hm with rfl | hm
    · have hnone : locationsAt rest m.time = [] :=
        locationsAt_eq_nil hrest fun y hy _ heq => Int64.lt_irrefl (heq ▸ hlt y hy)
      rw [hnone, List.append_nil]
      simp [locationsAt, hx]
    · have hnone : locationsAt [x] m.time = [] := by
        apply locationsAt_eq_nil
        · intro y hy
          rw [List.mem_singleton.1 hy]
          exact hx
        · intro y hy _ heq
          rw [List.mem_singleton.1 hy] at heq
          exact Int64.lt_irrefl (heq ▸ hlt m hm)
      rw [hnone, List.nil_append]
      exact ih hrest hascending hm

/-- Steady measurements reassemble to themselves. -/
theorem Steady.reassembled {ms : List Measurement} (h : Steady ms) : Reassembled ms ms where
  ascending := by
    refine h.ascending.imp_of_mem fun {a b} ha hb hlt => ?_
    rw [h.whole a ha, h.whole b hb]
    exact Timestamp.before_ofNanos_iff.2 hlt
  inhabited := h.located
  timed := h.whole
  locations _ := List.Perm.refl _

/-- In which order measurements arrived makes no difference to what is read back. -/
theorem Reassembled.of_perm {ms ms' out : List Measurement} (h : Reassembled ms out)
    (hperm : ms.Perm ms') : Reassembled ms' out :=
  { h with locations := fun time => (h.locations time).trans ((hperm.filter _).flatMap_right _) }

namespace Reassembled
variable {ms out out' : List Measurement} (h : Reassembled ms out)
include h

theorem steady : Steady out where
  located := h.inhabited
  whole := h.timed
  ascending := by
    refine h.ascending.imp_of_mem fun {a b} ha hb hlt => ?_
    rw [h.timed a ha, h.timed b hb] at hlt
    exact Timestamp.before_ofNanos_iff.1 hlt

theorem mem_times (time : Int64) :
    time ∈ out.map Measurement.time ↔ locationsAt ms time ≠ [] := by
  have hempty : locationsAt ms time = [] ↔ locationsAt out time = [] :=
    ⟨fun hnil => (hnil ▸ h.locations time).eq_nil,
      fun hnil => (hnil ▸ h.locations time).symm.eq_nil⟩
  rw [ne_eq, hempty]
  constructor
  · intro htime
    obtain ⟨m, hm, rfl⟩ := List.mem_map.1 htime
    rw [locationsAt_of_mem h.steady.dated h.steady.ascending hm]
    exact h.inhabited m hm
  · intro hne
    by_contra hnot
    refine hne (locationsAt_eq_nil h.steady.dated fun m hm _ heq => hnot ?_)
    exact List.mem_map.2 ⟨m, hm, heq⟩

/-- What reads measurements back reads back what else reads them back. -/
theorem again (h' : Reassembled ms out') : Reassembled out out' :=
  { h' with locations := fun time => (h'.locations time).trans (h.locations time).symm }

/-- There is one way to read measurements back. -/
theorem unique (h' : Reassembled ms out') : List.Forall₂ Matches out out' := by
  have hperm : (out.map Measurement.time).Perm (out'.map Measurement.time) := by
    rw [List.perm_ext_iff_of_nodup (nodup_times h.steady.ascending)
      (nodup_times h'.steady.ascending)]
    intro time
    rw [h.mem_times, h'.mem_times]
  have htimes : out.map Measurement.time = out'.map Measurement.time := by
    refine hperm.eq_of_pairwise ?_ (List.pairwise_map.2 h.steady.ascending)
      (List.pairwise_map.2 h'.steady.ascending)
    intro a b _ _ hab hba
    exact absurd (Int64.lt_trans hab hba) Int64.lt_irrefl
  have hsame : List.Forall₂ (fun a b => a.time = b.time) out out' := by
    have hmapped : List.Forall₂ (· = ·) (out.map Measurement.time) (out'.map Measurement.time) :=
      List.forall₂_eq_eq_eq ▸ htimes
    exact List.forall₂_map_right_iff.1 (List.forall₂_map_left_iff.1 hmapped)
  rw [List.forall₂_iff_zip] at hsame ⊢
  refine ⟨hsame.1, fun {a b} hab => ?_⟩
  obtain ⟨ha, hb⟩ := List.of_mem_zip hab
  have htime := hsame.2 hab
  refine ⟨by rw [h.timed a ha, h'.timed b hb, htime], ?_⟩
  rw [← locationsAt_of_mem h.steady.dated h.steady.ascending ha,
    ← locationsAt_of_mem h'.steady.dated h'.steady.ascending hb, ← htime]
  exact (h.locations _).trans (h'.locations _).symm

end Reassembled

/-! ## An early part and a late part -/

theorem filter_append_filter {ms : List Measurement} (h : ms.Pairwise (·.time < ·.time))
    (bound : Int64) : ms.filter (·.time < bound) ++ ms.filter (bound ≤ ·.time) = ms := by
  induction ms with
  | nil => rfl
  | cons m rest ih =>
    obtain ⟨hm, hrest⟩ := List.pairwise_cons.1 h
    by_cases hlt : m.time < bound
    · have hnot : ¬ bound ≤ m.time := Int64.not_le.2 hlt
      simpa [hlt, hnot] using ih hrest
    · have hle : bound ≤ m.time := Int64.not_lt.1 hlt
      have hall : rest.filter (bound ≤ ·.time) = rest := by
        rw [List.filter_eq_self]
        exact fun x hx => decide_eq_true (Int64.le_of_lt (Int64.lt_of_le_of_lt hle (hm x hx)))
      have hnone : rest.filter (·.time < bound) = [] := by
        rw [List.filter_eq_nil_iff]
        intro x hx hxlt
        exact Int64.not_lt.2 (Int64.le_of_lt (Int64.lt_of_le_of_lt hle (hm x hx)))
          (of_decide_eq_true hxlt)
      simp [hlt, hle, hall, hnone]

theorem locationsAt_filter {ms : List Measurement} (hd : Dated ms) (p : Int64 → Bool)
    (time : Int64) : locationsAt (ms.filter fun m => p m.time) time =
      if p time then locationsAt ms time else [] := by
  have hsame : ∀ m ∈ ms, (decide (m.observedAt.nanos? = some time) && p m.time) =
      (decide (m.observedAt.nanos? = some time) && p time) := by
    intro m hm
    by_cases htime : m.time = time
    · rw [htime]
    · simp [hd m hm, htime]
  rw [locationsAt, List.filter_filter, List.filter_congr hsame]
  by_cases hp : p time = true <;> simp [hp, locationsAt]

/-- Of measurements that are followed by steady ones at later instants, the later ones
are read back as they were, behind what the earlier ones read as. -/
theorem Reassembled.exists_parts {early late out : List Measurement}
    (h : Reassembled (early ++ late) out) (hearly : Dated early) (hlate : Steady late)
    (hbefore : ∀ e ∈ early, e.locations ≠ [] → ∀ m ∈ late, e.time < m.time) :
    ∃ earlyOut lateOut, out = earlyOut ++ lateOut ∧ Reassembled early earlyOut ∧
      List.Forall₂ Matches late lateOut := by
  cases late with
  | nil =>
    rw [List.append_nil] at h
    exact ⟨out, [], (List.append_nil out).symm, h, List.Forall₂.nil⟩
  | cons first rest =>
    obtain ⟨hfirst, _⟩ := List.pairwise_cons.1 hlate.ascending
    have hle : ∀ m ∈ first :: rest, first.time ≤ m.time :=
      List.forall_mem_cons.2 ⟨Int64.le_refl _, fun m hm => Int64.le_of_lt (hfirst m hm)⟩
    have hearlyNone : ∀ time, first.time ≤ time → locationsAt early time = [] := by
      intro time htime
      refine locationsAt_eq_nil hearly fun e he hne heq => ?_
      have hlt := hbefore e he hne first List.mem_cons_self
      exact Int64.lt_irrefl (Int64.lt_of_le_of_lt htime (heq ▸ hlt))
    have hlateNone : ∀ time, time < first.time → locationsAt (first :: rest) time = [] := by
      intro time htime
      refine locationsAt_eq_nil hlate.dated fun m hm _ heq => ?_
      exact Int64.lt_irrefl (Int64.lt_of_lt_of_le htime (heq ▸ hle m hm))
    have hpart : ∀ (p : Int64 → Bool) (part : List Measurement),
        (∀ time, (if p time then locationsAt (early ++ first :: rest) time else []) =
          locationsAt part time) → Reassembled part (out.filter fun m => p m.time) := by
      intro p part hsame
      refine ⟨h.ascending.filter _, fun m hm => h.inhabited m (List.mem_filter.1 hm).1,
        fun m hm => h.timed m (List.mem_filter.1 hm).1, fun time => ?_⟩
      rw [locationsAt_filter h.steady.dated, ← hsame]
      split
      · exact h.locations time
      · exact List.Perm.refl _
    have hparts := filter_append_filter h.steady.ascending first.time
    refine ⟨_, _, hparts.symm, hpart (· < first.time) early fun time => ?_,
      hlate.reassembled.unique (hpart (first.time ≤ ·) (first :: rest) fun time => ?_)⟩
    · rw [locationsAt_append]
      by_cases htime : time < first.time
      · simp [htime, hlateNone time htime]
      · simp [htime, hearlyNone time (Int64.not_lt.1 htime)]
    · rw [locationsAt_append]
      by_cases htime : first.time ≤ time
      · simp [htime, hearlyNone time htime]
      · simp [htime, hlateNone time (Int64.not_le.1 htime)]

end HeapTelemetry.Measurement
