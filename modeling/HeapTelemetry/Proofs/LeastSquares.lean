import HeapTelemetry.Rates.Series
import HeapTelemetry.Proofs.Timestamps
import Mathlib.Algebra.BigOperators.Group.List.Basic
import Mathlib.Algebra.BigOperators.Ring.List
import Mathlib.Algebra.Order.Field.Rat
import Mathlib.Algebra.Order.BigOperators.Group.List
import Mathlib.Tactic.FieldSimp
import Mathlib.Tactic.Linarith
import Mathlib.Tactic.Ring

/-! Slopes in exact arithmetic. The slope is a quotient of two sums of products of deviations,
and the squared distances from a line are those from the line with this slope through the
averages and two squares more. So that line has the least of them. -/

namespace HeapTelemetry

/-- Outside leap seconds a distance is a difference of counts. -/
theorem Timestamp.since_eq {t first : Timestamp} (ht : t.fraction < Calendar.billion)
    (hfirst : first.fraction < Calendar.billion) :
    t.since first = t.totalNanos - first.totalNanos := by
  simp only [since, totalNanos]
  rw [if_neg (by omega), if_neg (by omega), add_zero, sub_mul]
  omega

namespace Rates
open Arithmetic

/-! ## Sums over points -/

section
variable {γ : Type} (w : List γ) (X Y Z : γ → ℚ)

def total : ℚ := (w.map X).sum

def average : ℚ := total w X / w.length

/-- The sum of the products of the deviations from the averages. -/
def covariation : ℚ := total w fun p => (X p - average w X) * (Y p - average w Y)

theorem total_cons (p : γ) : total (p :: w) X = X p + total w X := List.sum_cons

theorem total_add : total w (fun p => X p + Y p) = total w X + total w Y := List.sum_map_add

theorem total_mul (k : ℚ) : total w (fun p => k * X p) = k * total w X :=
  List.sum_map_mul_left w X k

theorem total_const (k : ℚ) : total w (fun _ => k) = w.length * k := by
  rw [total, List.map_const', List.sum_replicate, nsmul_eq_mul]

theorem total_eq : total w X = w.length * average w X := by
  rw [average]
  cases w with
  | nil => simp [total]
  | cons p rest =>
    have hn : ((p :: rest).length : ℚ) ≠ 0 := Nat.cast_ne_zero.2 (Nat.succ_ne_zero _)
    field_simp

theorem average_sub : average w (fun p => X p - Y p) = average w X - average w Y := by
  have hsub : ∀ p, X p - Y p = X p + -1 * Y p := fun p => by ring
  simp only [average, hsub, total_add, total_mul]
  ring

/-- Products of deviations, from the products themselves. -/
theorem covariation_eq : covariation w X Y =
    total w (fun p => X p * Y p) - average w X * total w Y := by
  have hexpand : ∀ p, (X p - average w X) * (Y p - average w Y) =
      X p * Y p + (-average w Y * X p + (-average w X * Y p + average w X * average w Y)) :=
    fun p => by ring
  simp only [covariation, hexpand, total_add, total_mul, total_const]
  rw [total_eq w X, total_eq w Y]
  ring

theorem covariation_sub :
    covariation w X (fun p => Y p - Z p) = covariation w X Y - covariation w X Z := by
  have hsub : ∀ p, (X p - average w X) * (Y p - Z p - (average w Y - average w Z)) =
      (X p - average w X) * (Y p - average w Y) +
        -1 * ((X p - average w X) * (Z p - average w Z)) := fun p => by ring
  simp only [covariation, average_sub, hsub, total_add, total_mul]
  ring

/-- Deviations do not depend on where zero is. -/
theorem deviation_shift {p : γ} (hp : p ∈ w) (d : ℚ) :
    X p + d - average w (fun q => X q + d) = X p - average w X := by
  have hn : (w.length : ℚ) ≠ 0 := Nat.cast_ne_zero.2 (List.length_pos_of_mem hp).ne'
  rw [average, average, total_add, total_const]
  field_simp
  ring

theorem covariation_shift (d : ℚ) :
    covariation w (fun p => X p + d) Y = covariation w X Y ∧
      covariation w (fun p => X p + d) (fun p => X p + d) = covariation w X X :=
  ⟨congrArg List.sum (List.map_congr_left fun p hp => by rw [deviation_shift w X hp]),
    congrArg List.sum (List.map_congr_left fun p hp => by rw [deviation_shift w X hp])⟩

theorem covariation_self_nonneg : 0 ≤ covariation w X X :=
  List.sum_nonneg fun v hv => by
    obtain ⟨p, _, rfl⟩ := List.mem_map.1 hv
    exact mul_self_nonneg _

/-- Without deviations all values are equal. -/
theorem covariation_self_eq_zero :
    covariation w X X = 0 ↔ ∀ p ∈ w, ∀ q ∈ w, X p = X q := by
  constructor
  · intro hzero
    have hall : ∀ p ∈ w, X p = average w X := by
      intro p hp
      have hsquare : (X p - average w X) * (X p - average w X) = 0 := by
        refine List.all_zero_of_le_zero_le_of_sum_eq_zero (fun v hv => ?_) hzero
          (List.mem_map.2 ⟨p, hp, rfl⟩)
        obtain ⟨q, _, rfl⟩ := List.mem_map.1 hv
        exact mul_self_nonneg _
      exact sub_eq_zero.1 (mul_self_eq_zero.1 hsquare)
    exact fun p hp q hq => (hall p hp).trans (hall q hq).symm
  · intro hall
    cases w with
    | nil => rfl
    | cons first rest =>
      have hsame : (first :: rest).map X = (first :: rest).map fun _ => X first :=
        List.map_congr_left fun p hp => hall p hp first List.mem_cons_self
      have haverage : average (first :: rest) X = X first := by
        have hn : ((first :: rest).length : ℚ) ≠ 0 :=
          Nat.cast_ne_zero.2 (Nat.succ_ne_zero _)
        rw [average, total, hsame, ← total, total_const]
        field_simp
      refine List.sum_eq_zero fun v hv => ?_
      obtain ⟨p, hp, rfl⟩ := List.mem_map.1 hv
      rw [haverage, hall p hp first List.mem_cons_self]
      ring

/-! ## The slope as a quotient -/

theorem sum_eq (xs : List ℚ) : sum xs = xs.sum := List.sum_eq_foldl.symm

theorem mean_map : mean (w.map X) = average w X := by
  rw [mean, sum_eq, List.length_map]
  rfl

/-- The loop adds up both sums. -/
theorem foldl_deviations (mx my sxy sxx : ℚ) :
    (w.map fun p => (X p, Y p)).foldl
      (fun (sxy, sxx) (x, y) => (sxy + (x - mx) * (y - my), sxx + (x - mx) * (x - mx))) (sxy, sxx) =
    (sxy + total w fun p => (X p - mx) * (Y p - my),
      sxx + total w fun p => (X p - mx) * (X p - mx)) := by
  induction w generalizing sxy sxx with
  | nil => simp [total]
  | cons p rest ih =>
    rw [List.map_cons, List.foldl_cons, ih, total_cons, total_cons, add_assoc, add_assoc]

theorem deviations_map : deviations (average w X) (average w Y) ((w.map X).zip (w.map Y)) =
    (covariation w X Y, covariation w X X) := by
  rw [List.zip_map', deviations]
  refine (foldl_deviations w X Y _ _ 0 0).trans ?_
  rw [zero_add, zero_add]
  rfl

/-- With exact division the cases without a quotient are those of a division by zero. -/
theorem slope_map : slope (w.map X) (w.map Y) = covariation w X Y / covariation w X X := by
  have hlength : min (w.map X).length (w.map Y).length = w.length := by simp
  have htake (f : γ → ℚ) : (w.map f).take w.length = w.map f :=
    List.take_of_length_le (List.length_map f).le
  rw [slope, hlength]
  simp only [htake, mean_map, deviations_map]
  split
  · rename_i hfew
    have hzero : covariation w X X = 0 := (covariation_self_eq_zero w X).2 fun p hp q hq => by
      match w, hfew, hp, hq with
      | [_], _, hp, hq => rw [List.mem_singleton.1 hp, List.mem_singleton.1 hq]
    rw [hzero, div_zero]
    rfl
  · split
    · rename_i hzero
      rw [eq_of_beq hzero, div_zero]
      rfl
    · rfl

end

/-! ## Least squares -/

/-- The squared distances of the points from the line with this intercept and slope. -/
def residual (a b : ℚ) (points : List (ℚ × ℚ)) : ℚ :=
  total points fun p => (p.2 - a - b * p.1) ^ 2

/-- Not all points stand above each other. -/
def Spread (points : List (ℚ × ℚ)) : Prop := ∃ p ∈ points, ∃ q ∈ points, p.1 ≠ q.1

section
variable (points : List (ℚ × ℚ))

/-- The squares of a line: those of its slope, and one for how far it misses the averages. -/
theorem residual_eq (a b : ℚ) : residual a b points =
    covariation points Prod.snd Prod.snd - 2 * b * covariation points Prod.fst Prod.snd +
      b ^ 2 * covariation points Prod.fst Prod.fst +
      points.length * (average points Prod.snd - b * average points Prod.fst - a) ^ 2 := by
  have hexpand : ∀ p : ℚ × ℚ, (p.2 - a - b * p.1) ^ 2 =
      p.2 * p.2 + (b ^ 2 * (p.1 * p.1) + (-(2 * b) * (p.1 * p.2) +
        (-(2 * a) * p.2 + (2 * a * b * p.1 + a ^ 2)))) := fun p => by ring
  simp only [residual, hexpand, total_add, total_mul, total_const, covariation_eq]
  rw [total_eq points Prod.fst, total_eq points Prod.snd]
  ring

theorem spread_iff : Spread points ↔ covariation points Prod.fst Prod.fst ≠ 0 := by
  rw [ne_eq, covariation_self_eq_zero, Spread]
  push Not
  rfl

theorem covariation_of_not_spread (h : points.length < 2 ∨ ¬Spread points) :
    covariation points Prod.fst Prod.fst = 0 := by
  refine Decidable.byContradiction fun hne => ?_
  obtain ⟨p, hp, q, hq, hpq⟩ := (spread_iff points).2 hne
  obtain hfew | hno := h
  · match points, hfew, hp, hq with
    | [_], _, hp, hq =>
      rw [List.mem_singleton.1 hp, List.mem_singleton.1 hq] at hpq
      exact hpq rfl
  · exact hno ⟨p, hp, q, hq, hpq⟩

theorem covariation_of_line {k c : ℚ} (h : ∀ p ∈ points, p.2 = k * p.1 + c) :
    covariation points Prod.fst Prod.snd = k * covariation points Prod.fst Prod.fst := by
  have hsum : total points Prod.snd = k * total points Prod.fst + points.length * c := by
    rw [← total_mul, ← total_const, ← total_add]
    exact congrArg List.sum (List.map_congr_left h)
  have hproducts : total points (fun p => p.1 * p.2) =
      k * total points (fun p => p.1 * p.1) + c * total points Prod.fst := by
    rw [← total_mul, ← total_mul, ← total_add]
    refine congrArg List.sum (List.map_congr_left fun p hp => ?_)
    rw [h p hp]
    ring
  rw [covariation_eq, covariation_eq, hproducts, hsum, total_eq points Prod.fst]
  ring

variable {a b : ℚ}
  (hb : covariation points Prod.fst Prod.snd = b * covariation points Prod.fst Prod.fst)
  (ha : a = average points Prod.snd - b * average points Prod.fst)
include hb ha

/-- Any line has the squares of this one, and two squares more for the ways in which it differs. -/
theorem residual_eq_add (a' b' : ℚ) : residual a' b' points = residual a b points +
    (covariation points Prod.fst Prod.fst * (b' - b) ^ 2 +
      points.length * (average points Prod.snd - b' * average points Prod.fst - a') ^ 2) := by
  rw [residual_eq, residual_eq, hb, ha]
  ring

theorem residual_least (hspread : Spread points) (a' b' : ℚ) :
    residual a b points ≤ residual a' b' points ∧
      (residual a' b' points = residual a b points → a' = a ∧ b' = b) := by
  have hsplit := residual_eq_add points hb ha a' b'
  have hsxx : 0 < covariation points Prod.fst Prod.fst :=
    lt_of_le_of_ne (covariation_self_nonneg _ _) ((spread_iff points).1 hspread).symm
  have hn : 0 < (points.length : ℚ) := by
    obtain ⟨p, hp, _⟩ := hspread
    exact Nat.cast_pos.2 (List.length_pos_of_mem hp)
  have hslope : 0 ≤ covariation points Prod.fst Prod.fst * (b' - b) ^ 2 :=
    mul_nonneg hsxx.le (sq_nonneg _)
  have hmiss : 0 ≤ (points.length : ℚ) *
      (average points Prod.snd - b' * average points Prod.fst - a') ^ 2 :=
    mul_nonneg hn.le (sq_nonneg _)
  refine ⟨by linarith only [hsplit, hslope, hmiss], fun hsame => ?_⟩
  have hslope_zero : covariation points Prod.fst Prod.fst * (b' - b) ^ 2 = 0 := by
    linarith only [hsplit, hslope, hmiss, hsame]
  have hmiss_zero : (points.length : ℚ) *
      (average points Prod.snd - b' * average points Prod.fst - a') ^ 2 = 0 := by
    linarith only [hsplit, hslope, hmiss, hsame]
  have hbb : b' = b :=
    sub_eq_zero.1 (pow_eq_zero_iff two_ne_zero |>.1 ((mul_eq_zero.1 hslope_zero).resolve_left hsxx.ne'))
  have hmissed : average points Prod.snd - b' * average points Prod.fst - a' = 0 :=
    pow_eq_zero_iff two_ne_zero |>.1 ((mul_eq_zero.1 hmiss_zero).resolve_left hn.ne')
  refine ⟨?_, hbb⟩
  rw [ha, ← hbb]
  exact (sub_eq_zero.1 hmissed).symm

end

/-! ## Lists of different lengths -/

section
variable (xs ys : List ℚ)

/-- The points that both lists have. -/
def common : List (ℚ × ℚ) :=
  let n := min xs.length ys.length
  (xs.take n).zip (ys.take n)

theorem map_fst_common : (common xs ys).map Prod.fst = xs.take (min xs.length ys.length) :=
  List.map_fst_zip (by simp)

theorem map_snd_common : (common xs ys).map Prod.snd = ys.take (min xs.length ys.length) :=
  List.map_snd_zip (by simp)

theorem slope_common :
    slope xs ys = slope ((common xs ys).map Prod.fst) ((common xs ys).map Prod.snd) := by
  rw [map_fst_common, map_snd_common]
  generalize hn : min xs.length ys.length = n
  have hsame : min (xs.take n).length (ys.take n).length = n := by
    rw [List.length_take, List.length_take]
    omega
  rw [slope, slope, hsame, hn]
  simp only [List.take_take, Nat.min_self]

theorem length_common : (common xs ys).length = min xs.length ys.length := by
  rw [common, List.length_zip, List.length_take, List.length_take]
  omega

theorem slope_shift (d : ℚ) : slope (xs.map (· + d)) ys = slope xs ys := by
  have hcommon : common (xs.map (· + d)) ys = (common xs ys).map fun p => (p.1 + d, p.2) := by
    rw [common, List.length_map, ← List.map_take, List.zip_map_left]
    rfl
  obtain ⟨hxy, hxx⟩ := covariation_shift (common xs ys) Prod.fst Prod.snd d
  calc slope (xs.map (· + d)) ys
      = slope ((common xs ys).map fun p => p.1 + d) ((common xs ys).map Prod.snd) := by
        rw [slope_common, hcommon, List.map_map, List.map_map]
        rfl
    _ = slope ((common xs ys).map Prod.fst) ((common xs ys).map Prod.snd) := by
        rw [slope_map, slope_map, hxy, hxx]
    _ = slope xs ys := (slope_common xs ys).symm

end

/-! ## Windows -/

theorem slope_map_sub {γ : Type} (w : List γ) (X Y Z : γ → ℚ) :
    slope (w.map X) (w.map fun p => Y p - Z p) =
      slope (w.map X) (w.map Y) - slope (w.map X) (w.map Z) := by
  rw [slope_map, slope_map, slope_map, covariation_sub, sub_div]

/-- The rates if the seconds are counted from an instant of choice. -/
def ofPointsFrom (origin : Timestamp) (points : List Point) : Rates ℚ :=
  let xs := points.map fun p => seconds origin p.time
  ofCounters fun c => slope xs (points.map fun p => ofInt (c.value p.usage).toInt)

theorem ofPointsFrom_nil (origin : Timestamp) : ofPointsFrom origin [] = ofPoints [] := rfl

/-- At no point is the difference of these counters beyond 64 bits. -/
def DifferencesFit (points : List Point) (alloc free : Usage → Int64) : Prop :=
  ∀ p ∈ points, Timestamp.fitsInt64 ((alloc p.usage).toInt - (free p.usage).toInt) = true

theorem toInt_sub_of_fits {a b : Int64} (h : Timestamp.fitsInt64 (a.toInt - b.toInt) = true) :
    (a - b).toInt = a.toInt - b.toInt := by
  rw [← Timestamp.toInt_ofInt_of_fits h, Int64.ofInt_sub, Int64.ofInt_toInt, Int64.ofInt_toInt]

theorem slope_difference (origin : Timestamp) {points : List Point} {alloc free : Usage → Int64}
    (h : DifferencesFit points alloc free) :
    slope (points.map fun p => (seconds origin p.time : ℚ))
        (points.map fun p => ofInt (alloc p.usage - free p.usage).toInt) =
      slope (points.map fun p => (seconds origin p.time : ℚ))
          (points.map fun p => ofInt (alloc p.usage).toInt) -
        slope (points.map fun p => (seconds origin p.time : ℚ))
          (points.map fun p => ofInt (free p.usage).toInt) := by
  have hvalues : (points.map fun p => (ofInt (alloc p.usage - free p.usage).toInt : ℚ)) =
      points.map fun p => ofInt (alloc p.usage).toInt - ofInt (free p.usage).toInt :=
    List.map_congr_left fun p hp => by
      rw [toInt_sub_of_fits (h p hp)]
      exact Int.cast_sub _ _
  rw [hvalues]
  exact slope_map_sub points _ _ _

/-- The rates of what is in use, from any origin. -/
theorem inUse_ofPointsFrom (origin : Timestamp) (points : List Point) :
    let r := ofPointsFrom origin points
    (DifferencesFit points Usage.allocObjects Usage.freeObjects →
      r.inUseObjects = r.allocObjects - r.freeObjects) ∧
    (DifferencesFit points Usage.allocBytes Usage.freeBytes →
      r.inUseBytes = r.allocBytes - r.freeBytes) :=
  ⟨slope_difference origin, slope_difference origin⟩

/-- No instant is in a leap second, and all are within 64-bit nanoseconds of the origin. -/
structure CountedFrom (origin : Timestamp) (points : List Point) : Prop where
  origin_regular : origin.fraction < Calendar.billion
  regular : ∀ p ∈ points, p.time.fraction < Calendar.billion
  near : ∀ p ∈ points, Timestamp.fitsInt64 (p.time.totalNanos - origin.totalNanos) = true

theorem CountedFrom.seconds_eq {origin : Timestamp} {points : List Point}
    (h : CountedFrom origin points) {p : Point} (hp : p ∈ points) :
    (seconds origin p.time : ℚ) =
      (p.time.totalNanos : ℚ) / 1000000000 - (origin.totalNanos : ℚ) / 1000000000 := by
  have hsince : p.time.since origin = p.time.totalNanos - origin.totalNanos :=
    Timestamp.since_eq (h.regular p hp) h.origin_regular
  rw [seconds, hsince, if_pos (h.near p hp)]
  show ((p.time.totalNanos - origin.totalNanos : Int) : ℚ) / ((1000000000 : Int) : ℚ) = _
  push_cast
  ring

/-- Another origin shifts all seconds alike. -/
theorem CountedFrom.ofPointsFrom_eq {origin other : Timestamp} {points : List Point}
    (h : CountedFrom origin points) (hother : CountedFrom other points) :
    ofPointsFrom origin points = ofPointsFrom other points := by
  have hshift : (points.map fun p => (seconds origin p.time : ℚ)) =
      (points.map fun p => seconds other p.time).map
        (· + ((other.totalNanos : ℚ) / 1000000000 - (origin.totalNanos : ℚ) / 1000000000)) := by
    rw [List.map_map]
    refine List.map_congr_left fun p hp => ?_
    rw [h.seconds_eq hp, Function.comp_apply, hother.seconds_eq hp]
    ring
  rw [ofPointsFrom, ofPointsFrom, hshift]
  simp only [slope_shift]

/-! ## The least of the squares -/

/-- The line with the slope, through the averages, is the one with the least squares; where
there is no such line the slope is zero. The slope finds the points' own line, does not depend
on where x is counted from, and is linear in y, so that what is in use grows as the difference
of what is allocated and freed, unless such a difference wraps around. -/
theorem slope_least_squares :
    (∀ xs ys : List ℚ,
      let points := common xs ys
      let b := slope xs ys
      let a := mean (points.map Prod.snd) - b * mean (points.map Prod.fst)
      points.length = min xs.length ys.length ∧
        (2 ≤ points.length → Spread points → ∀ a' b',
          residual a b points ≤ residual a' b' points ∧
            (residual a' b' points = residual a b points → a' = a ∧ b' = b)) ∧
        (points.length < 2 ∨ ¬Spread points → b = 0) ∧
        (∀ k c, Spread points → (∀ p ∈ points, p.2 = k * p.1 + c) → b = k) ∧
        ∀ d, slope (xs.map (· + d)) ys = b) ∧
    ∀ points : List Point,
      let r : Rates ℚ := ofPoints points
      (DifferencesFit points Usage.allocObjects Usage.freeObjects →
        r.inUseObjects = r.allocObjects - r.freeObjects) ∧
      (DifferencesFit points Usage.allocBytes Usage.freeBytes →
        r.inUseBytes = r.allocBytes - r.freeBytes) ∧
        ∀ origin, CountedFrom origin points →
          (∀ first ∈ points.head?, CountedFrom first.time points) →
          ofPointsFrom origin points = r := by
  refine ⟨fun xs ys => ?_, fun points => ?_⟩
  · intro points b a
    have hquotient : b = covariation points Prod.fst Prod.snd /
        covariation points Prod.fst Prod.fst :=
      (slope_common xs ys).trans (slope_map points _ _)
    refine ⟨length_common xs ys, fun _ hspread => ?_, fun hno => ?_, fun k c hspread hline => ?_,
      slope_shift xs ys⟩
    · have hsxx := (spread_iff points).1 hspread
      refine residual_least points ?_ ?_ hspread
      · rw [hquotient, div_mul_cancel₀ _ hsxx]
      · rw [← mean_map, ← mean_map]
    · rw [hquotient, covariation_of_not_spread points hno, div_zero]
    · rw [hquotient, covariation_of_line points hline, mul_div_cancel_right₀ _ ((spread_iff points).1 hspread)]
  · cases points with
    | nil =>
      obtain ⟨hobjects, hbytes⟩ := inUse_ofPointsFrom (Timestamp.ofNanos 0) []
      exact ⟨hobjects, hbytes, fun origin _ _ => ofPointsFrom_nil origin⟩
    | cons first rest =>
      obtain ⟨hobjects, hbytes⟩ := inUse_ofPointsFrom first.time (first :: rest)
      exact ⟨hobjects, hbytes, fun origin horigin hfirst => horigin.ofPointsFrom_eq (hfirst first rfl)⟩

/-- Three points of four, off any line, and two points of a window with the later one first. -/
theorem slope_least_squares_off_line :
    let points := common [0, 1, 2] [1, 2, 2, 7]
    let early : Point := ⟨Timestamp.ofNanos 1000000000, ⟨1, 64, 0, 0⟩⟩
    let late : Point := ⟨Timestamp.ofNanos 3000000000, ⟨3, 128, 1, 32⟩⟩
    let r : Rates ℚ := ofPoints [late, early]
    2 ≤ points.length ∧ Spread points ∧ slope [0, 1, 2] [1, 2, 2, 7] = (1 / 2 : ℚ) ∧
      (∀ a' b', residual (7 / 6) (1 / 2) points ≤ residual a' b' points) ∧
      CountedFrom early.time [late, early] ∧ CountedFrom late.time [late, early] ∧
      ofPointsFrom early.time [late, early] = r ∧
      DifferencesFit [late, early] Usage.allocObjects Usage.freeObjects ∧
      DifferencesFit [late, early] Usage.allocBytes Usage.freeBytes ∧
      r.inUseObjects = r.allocObjects - r.freeObjects ∧ r.inUseBytes = r.allocBytes - r.freeBytes ∧
      r = ⟨1, 32, 1 / 2, 16, 1 / 2, 16⟩ := by
  intro points early late r
  have hspread : Spread points :=
    ⟨(0, 1), by decide +kernel, (1, 2), by decide +kernel, by decide +kernel⟩
  have hlength : 2 ≤ points.length := by decide +kernel
  have hearly : CountedFrom early.time [late, early] :=
    ⟨by decide, by decide, by decide +kernel⟩
  have hlate : CountedFrom late.time [late, early] :=
    ⟨by decide, by decide, by decide +kernel⟩
  obtain ⟨hlists, hwindows⟩ := slope_least_squares
  have hleast := (hlists [0, 1, 2] [1, 2, 2, 7]).2.1 hlength hspread
  have hslope : slope [0, 1, 2] [1, 2, 2, 7] = (1 / 2 : ℚ) := by decide +kernel
  have hintercept : mean (points.map Prod.snd) -
      slope [0, 1, 2] [1, 2, 2, 7] * mean (points.map Prod.fst) = (7 / 6 : ℚ) := by decide +kernel
  rw [hintercept, hslope] at hleast
  have hobjects : DifferencesFit [late, early] Usage.allocObjects Usage.freeObjects := by
    rw [DifferencesFit]
    decide +kernel
  have hbytes : DifferencesFit [late, early] Usage.allocBytes Usage.freeBytes := by
    rw [DifferencesFit]
    decide +kernel
  obtain ⟨hinUseObjects, hinUseBytes, horigin⟩ := hwindows [late, early]
  refine ⟨hlength, hspread, hslope, fun a' b' => (hleast a' b').1, hearly, hlate, ?_, hobjects,
    hbytes, hinUseObjects hobjects, hinUseBytes hbytes, by decide +kernel⟩
  exact horigin early.time hearly fun first hfirst => by
    obtain rfl := Option.some.inj hfirst
    exact hlate

/-- With a leap second among the points, seconds counted from it are no shift of those counted
from the first point. Nor are they if one origin is so far away that only whole milliseconds
are counted. And where the difference of two counters wraps around, what is in use does not
grow as the difference of what is allocated and freed. -/
theorem origin_and_overflow_matter :
    let leap : Timestamp := ⟨59, 1500000000, by decide, by decide⟩
    let points : List Point := [⟨Timestamp.ofNanos 58000000000, ⟨0, 0, 0, 0⟩⟩, ⟨leap, ⟨0, 100, 0, 0⟩⟩,
      ⟨Timestamp.ofNanos 60000000000, ⟨0, 80, 0, 0⟩⟩]
    let remote : Timestamp := ⟨-15000000000, 0, by decide, by decide⟩
    let close : List Point := [⟨Timestamp.ofNanos 0, ⟨0, 0, 0, 0⟩⟩, ⟨Timestamp.ofNanos 400000, ⟨0, 400, 0, 0⟩⟩,
      ⟨Timestamp.ofNanos 1000000, ⟨0, 1000, 0, 0⟩⟩]
    let wrapped : List Point := [⟨Timestamp.ofNanos 0, ⟨0, 0, 0, 0⟩⟩,
      ⟨Timestamp.ofNanos 1000000000, ⟨0, Int64.maxValue, 0, -1⟩⟩]
    let r : Rates ℚ := ofPoints wrapped
    (ofPoints points : Rates ℚ).allocBytes = 40 ∧
      (ofPointsFrom leap points).allocBytes = 960 / 31 ∧
      (ofPoints close : Rates ℚ).allocBytes = 1000000 ∧
      (ofPointsFrom remote close).allocBytes = 800000 ∧
      r.inUseBytes = -9223372036854775808 ∧
      r.allocBytes - r.freeBytes = 9223372036854775808 := by
  decide +kernel

end Rates
end HeapTelemetry
