import HeapTelemetry.Proofs.Backfill
import HeapTelemetry.Proofs.Replay

/-! Reports as they are served. However measurements and questions come between each other,
the answer is the report on what was accepted so far: one entry for every call-site, fastest
growing first. It is kept as it is until something new is accepted. -/

namespace HeapTelemetry

/-! ## The order of doubles -/

namespace Binary64

/-- The magnitude is no larger: by the exponent, then by the fraction. -/
def NoLarger (x y : Binary64) : Prop :=
  x.exponentField < y.exponentField ∨
    x.exponentField = y.exponentField ∧ x.fractionField ≤ y.fractionField

/-- The total order of doubles: negative before positive, and magnitudes in their order above
zero and against it below. -/
def Precedes (x y : Binary64) : Prop :=
  match x.negative, y.negative with
  | true, false => True
  | false, true => False
  | false, false => NoLarger x y
  | true, true => NoLarger y x

/-- The bits behind the sign are the exponent, then the fraction. -/
theorem mod_eq_fields (x : Binary64) :
    x.bits.toNat % (1 <<< 63) = x.exponentField * 2 ^ 52 + x.fractionField := by
  rw [exponentField, fractionField, Nat.shiftRight_eq_div_pow, Nat.one_shiftLeft, Nat.one_shiftLeft]
  omega

theorem fractionField_lt (x : Binary64) : x.fractionField < 2 ^ 52 := by
  rw [fractionField, Nat.one_shiftLeft]
  exact Nat.mod_lt _ (by decide)

theorem noLarger_iff (x y : Binary64) :
    x.NoLarger y ↔ x.bits.toNat % (1 <<< 63) ≤ y.bits.toNat % (1 <<< 63) := by
  have hx := x.fractionField_lt
  have hy := y.fractionField_lt
  rw [mod_eq_fields, mod_eq_fields, NoLarger]
  omega

theorem rank_of_negative {x : Binary64} (h : x.negative = true) :
    x.rank = -((x.bits.toNat % (1 <<< 63) : Nat) : Int) - 1 := by
  rw [rank, if_pos h]

theorem rank_of_positive {x : Binary64} (h : x.negative = false) :
    x.rank = (x.bits.toNat % (1 <<< 63) : Nat) := by
  have hlt : x.bits.toNat < 2 ^ 64 := x.bits.toNat_lt
  have hsign : x.bits.toNat >>> 63 ≠ 1 := by simpa [negative] using h
  rw [Nat.shiftRight_eq_div_pow] at hsign
  rw [rank, h, Nat.one_shiftLeft, Nat.mod_eq_of_lt (by omega)]
  rfl

/-- Ranks are in the total order. -/
theorem rank_le_iff (x y : Binary64) : x.rank ≤ y.rank ↔ x.Precedes y := by
  rw [Precedes]
  cases hx : x.negative <;> cases hy : y.negative
  · rw [rank_of_positive hx, rank_of_positive hy, noLarger_iff]
    exact Int.ofNat_le
  · rw [rank_of_positive hx, rank_of_negative hy]
    simp only [iff_false]
    omega
  · rw [rank_of_negative hx, rank_of_positive hy]
    simp only [iff_true]
    omega
  · show x.rank ≤ y.rank ↔ y.NoLarger x
    rw [rank_of_negative hx, rank_of_negative hy, noLarger_iff]
    omega

/-- The sign stands in the highest bit. -/
theorem toNat_bits (x : Binary64) :
    x.bits.toNat = x.bits.toNat % (1 <<< 63) + if x.negative then 2 ^ 63 else 0 := by
  have hlt : x.bits.toNat < 2 ^ 64 := x.bits.toNat_lt
  rw [negative, Nat.shiftRight_eq_div_pow, Nat.one_shiftLeft]
  split
  · have hsign : x.bits.toNat / 2 ^ 63 = 1 := eq_of_beq ‹_›
    omega
  · have hsign : ¬ x.bits.toNat / 2 ^ 63 = 1 := fun h => absurd (beq_iff_eq.2 h) ‹_›
    omega

theorem eq_of_rank_eq {x y : Binary64} (h : x.rank = y.rank) : x = y := by
  have hbits : x.bits.toNat = y.bits.toNat := by
    rw [x.toNat_bits, y.toNat_bits]
    cases hx : x.negative <;> cases hy : y.negative
    · rw [rank_of_positive hx, rank_of_positive hy] at h
      omega
    · rw [rank_of_positive hx, rank_of_negative hy] at h
      omega
    · rw [rank_of_negative hx, rank_of_positive hy] at h
      omega
    · rw [rank_of_negative hx, rank_of_negative hy] at h
      omega
  exact congrArg mk (UInt64.toNat_inj.1 hbits)

end Binary64

/-! ## What a report lists -/

namespace Report

theorem pairwise_rank_ranked (r : Report) : r.ranked.Pairwise fun a b =>
    b.rates.inUseBytes.rank ≤ a.rates.inUseBytes.rank := by
  have hranked : r.ranked.Pairwise fun a b =>
      decide (b.rates.inUseBytes.rank ≤ a.rates.inUseBytes.rank) = true := by
    apply List.pairwise_mergeSort
    · intro a b c hab hbc
      exact decide_eq_true (Int.le_trans (of_decide_eq_true hbc) (of_decide_eq_true hab))
    · intro a b
      rw [Bool.or_eq_true, decide_eq_true_iff, decide_eq_true_iff]
      exact Int.le_total _ _
  exact hranked.imp of_decide_eq_true

theorem pairwise_ranked (r : Report) : r.ranked.Pairwise fun a b =>
    b.rates.inUseBytes.Precedes a.rates.inUseBytes :=
  r.pairwise_rank_ranked.imp (Binary64.rank_le_iff _ _).1

/-- In whichever order the entries come, the same growth stands at every place. -/
theorem growth_ranked {r s : Report} (h : r.Perm s) :
    r.ranked.map (·.rates.inUseBytes) = s.ranked.map (·.rates.inUseBytes) := by
  have hperm : r.ranked.Perm s.ranked :=
    (List.mergeSort_perm _ _).trans (h.trans (List.mergeSort_perm _ _).symm)
  have hsorted (r : Report) : (r.ranked.map (·.rates.inUseBytes)).Pairwise fun x y =>
      y.rank ≤ x.rank := List.pairwise_map.2 r.pairwise_rank_ranked
  refine List.Perm.eq_of_pairwise ?_ (hsorted r) (hsorted s) (hperm.map _)
  exact fun x y _ _ hyx hxy => Binary64.eq_of_rank_eq (Int.le_antisymm hxy hyx)

end Report

namespace SessionWindows
open Measurement

/-- The entries are those of the windows, each once. -/
theorem perm_compute (w : SessionWindows) :
    w.compute.Perm (w.sites.map fun e => e.2.rates) :=
  (List.mergeSort_perm _ _).trans ((List.mergeSort_perm _ _).map _)

/-- Every window has the call stack of its key. -/
theorem id_of_mem_sites (capacity : Nat) {ms : List Measurement} (h : ∀ m ∈ ms, m.Unrepeated) :
    ∀ e ∈ (replayed capacity ms).sites, stack? e.1 ms = some e.2.stack ∧ e.2.stack.id = e.1 := by
  intro e he
  have hwindow := (Table.mem_iff_get? (nodup_keys_replayed capacity ms) e.1 e.2).1 he
  rw [get?_replayed capacity h] at hwindow
  obtain ⟨stack, hstack, hw⟩ := Option.map_eq_some_iff.1 hwindow
  rw [← hw]
  exact ⟨hstack, (mem_callStacks_of_stack? hstack).2⟩

theorem ids_compute (capacity : Nat) {ms : List Measurement} (h : ∀ m ∈ ms, m.Unrepeated) :
    ((replayed capacity ms).compute.map fun r => r.stack.id).Perm
      (replayed capacity ms).sites.keys := by
  have hkeys : ((replayed capacity ms).sites.map fun e => e.2.rates).map (fun r => r.stack.id) =
      (replayed capacity ms).sites.keys := by
    rw [List.map_map, Table.keys]
    exact List.map_congr_left fun e he => (id_of_mem_sites capacity h e he).2
  exact hkeys ▸ (perm_compute _).map _

/-- The report has an entry for the ids that were met, and for no other. -/
theorem mem_ids_compute (capacity : Nat) {ms : List Measurement} (h : ∀ m ∈ ms, m.Unrepeated)
    (id : String) : (∃ r ∈ (replayed capacity ms).compute, r.stack.id = id) ↔
      ∃ stack ∈ callStacks ms, stack.id = id := by
  rw [← List.mem_map, (ids_compute capacity h).mem_iff, Table.mem_keys_iff,
    ← Option.isSome_iff_exists, get?_replayed capacity h, Option.isSome_map, stack?_isSome_iff]

/-- An entry has the call stack first met under its id, and the rates of its window. -/
theorem entry_compute (capacity : Nat) {ms : List Measurement} (h : ∀ m ∈ ms, m.Unrepeated)
    {r : SiteRates} (hr : r ∈ (replayed capacity ms).compute) :
    stack? r.stack.id ms = some r.stack ∧
      ∃ window, (replayed capacity ms).sites.get? r.stack.id = some window ∧ r = window.rates := by
  obtain ⟨e, he, rfl⟩ := mem_compute.1 hr
  obtain ⟨hstack, hid⟩ := id_of_mem_sites capacity h e he
  have hwindow := (Table.mem_iff_get? (nodup_keys_replayed capacity ms) e.1 e.2).1 he
  have hkey : e.2.rates.stack.id = e.1 := hid
  rw [hkey]
  exact ⟨hstack, e.2, hwindow, rfl⟩

/-! ## What is kept -/

namespace Course

/-- The report is there after it was asked for. -/
theorem report_asked (c : Course) :
    (c.use .report).windows.report = some c.windows.metrics.1 := by
  rw [use, metrics]
  cases hreport : c.windows.report with
  | none => rfl
  | some r => exact hreport

/-- A course that has its report stays as it is until something is accepted. -/
theorem use_of_kept {c : Course} {u : Use} (hreport : c.windows.report.isSome)
    (hu : (c.use u).accepted = c.accepted) : c.use u = c := by
  cases u with
  | report =>
    obtain ⟨r, hr⟩ := Option.isSome_iff_exists.1 hreport
    rw [use, metrics, hr]
  | offer m =>
    by_cases hm : m.Unrepeated
    · rw [use_unrepeated c hm] at hu
      exact absurd hu (by simp)
    · exact use_repeated c hm

theorem useAll_of_kept {c : Course} {uses : List Use} (hreport : c.windows.report.isSome)
    (huses : (c.useAll uses).accepted = c.accepted) : c.useAll uses = c := by
  induction uses with
  | nil => rfl
  | cons u uses ih =>
    -- What was accepted at the first use would still be there at the end.
    have hfirst : (c.use u).accepted = c.accepted := by
      have hall : ((c.use u).useAll uses).accepted = c.accepted := huses
      rw [accepted_after, accepted_use, List.append_assoc, List.append_right_eq_self] at hall
      rw [accepted_use, (List.append_eq_nil_iff.1 hall).1, List.append_nil]
    have hsame := use_of_kept hreport hfirst
    rw [useAll, List.foldl_cons, hsame] at huses ⊢
    exact ih huses

end Course

/-- Whatever was offered and asked before, the report that is served has one entry for every
id in the accepted measurements, with the call stack first met under it and the rates of its
window, in descending order of the growth of its bytes in use. It is what the windows give
when it is computed anew, be it from the accepted measurements alone. Until something more
is accepted it is kept, and nothing changes at all. -/
theorem served_reports_current (capacity : Nat) (uses : List Use) :
    let c := (Course.started capacity).useAll uses
    let served := c.windows.metrics.1
    (served.map fun r => r.stack.id).Nodup ∧
      (∀ id, (∃ r ∈ served, r.stack.id = id) ↔
        ∃ m ∈ c.accepted, ∃ l ∈ m.locations, l.stack.id = id) ∧
      (∀ r ∈ served, stack? r.stack.id c.accepted = some r.stack ∧
        ∃ window, c.windows.sites.get? r.stack.id = some window ∧ r = window.rates) ∧
      (served.Pairwise fun a b => b.rates.inUseBytes.Precedes a.rates.inUseBytes) ∧
      served = c.windows.compute ∧ served = (replayed capacity c.accepted).compute ∧
      ∀ more, ((c.use .report).useAll more).accepted = c.accepted →
        (c.use .report).useAll more = c.use .report ∧
          ((c.use .report).useAll more).windows.report = some served ∧
          ((c.use .report).useAll more).windows.metrics.1 = served := by
  intro c served
  have hfilled : Course.Filled capacity c := (Course.filled_started capacity).useAll uses
  obtain ⟨hsites, -⟩ := hfilled.counters
  have hunrepeated := hfilled.unrepeated
  have hserved : served = (replayed capacity c.accepted).compute := hfilled.mirrors.metrics.1
  have hcompute : c.windows.compute = (replayed capacity c.accepted).compute := by
    rw [compute, compute, hsites]
  have hmet : ∀ id, (∃ stack ∈ callStacks c.accepted, stack.id = id) ↔
      ∃ m ∈ c.accepted, ∃ l ∈ m.locations, l.stack.id = id := by
    intro id
    simp only [callStacks, List.mem_flatMap, List.mem_map]
    constructor
    · rintro ⟨_, ⟨m, hm, l, hl, rfl⟩, hid⟩
      exact ⟨m, hm, l, hl, hid⟩
    · rintro ⟨m, hm, l, hl, hid⟩
      exact ⟨l.stack, ⟨m, hm, l, hl, rfl⟩, hid⟩
  have hasked := c.report_asked
  refine ⟨?_, fun id => ?_, fun r hr => ?_, ?_, hserved.trans hcompute.symm, hserved,
    fun more hmore => ?_⟩
  · rw [hserved, (ids_compute capacity hunrepeated).nodup_iff]
    exact nodup_keys_replayed capacity c.accepted
  · rw [hserved, mem_ids_compute capacity hunrepeated, hmet]
  · rw [hsites]
    exact entry_compute capacity hunrepeated (hserved ▸ hr)
  · rw [hserved]
    exact Report.pairwise_ranked _
  · have hsame := Course.useAll_of_kept (by rw [hasked]; rfl) hmore
    rw [hsame]
    refine ⟨rfl, hasked, ?_⟩
    rw [metrics, hasked]

/-- Two call-sites at one instant. -/
def twoSites : Measurement :=
  ⟨Timestamp.ofNanos 5000000000, [⟨⟨[⟨"grow", "heap.c", 7⟩]⟩, ⟨2, 64, 0, 0⟩⟩,
    ⟨⟨[⟨"main", "main.c", 1⟩]⟩, ⟨1, 32, 0, 0⟩⟩]⟩

/-- One of them twice. -/
def siteTwice : Measurement :=
  ⟨Timestamp.ofNanos 6000000000, [⟨⟨[⟨"grow", "heap.c", 7⟩]⟩, ⟨4, 128, 0, 0⟩⟩,
    ⟨⟨[⟨"grow", "heap.c", 7⟩]⟩, ⟨4, 128, 1, 32⟩⟩]⟩

/-- What is refused between two questions does not change the answer. -/
theorem served_reports_current_refused :
    let c := (Course.started 3).useAll [.offer twoSites]
    let again := (c.use .report).useAll [.offer siteTwice, .report]
    c.accepted = [twoSites] ∧ again.accepted = c.accepted ∧ again = c.use .report ∧
      again.windows.metrics.1 = c.windows.metrics.1 ∧
      ∃ r ∈ again.windows.metrics.1, r.stack.id = (⟨[⟨"grow", "heap.c", 7⟩]⟩ : CallStack).id := by
  intro c again
  have hunrepeated : twoSites.Unrepeated ∧ ¬ siteTwice.Unrepeated := by decide +kernel
  have haccepted : c.accepted = [twoSites] := by
    rw [Course.accepted_useAll]
    simp [Use.offered?, hunrepeated]
  have hmore : again.accepted = c.accepted := by
    rw [Course.accepted_after, Course.accepted_use]
    simp [Use.offered?, hunrepeated]
  obtain ⟨_, hids, _, _, _, _, hkept⟩ := served_reports_current 3 [.offer twoSites]
  obtain ⟨hsame, _, hserved⟩ := hkept _ hmore
  refine ⟨haccepted, hmore, hsame, hserved, ?_⟩
  rw [hserved]
  refine (hids _).2 ⟨twoSites, ?_, _, List.mem_cons_self, rfl⟩
  rw [haccepted]
  exact List.mem_cons_self

end SessionWindows
end HeapTelemetry
