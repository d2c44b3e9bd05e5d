import HeapTelemetry.SiteSeries
import Mathlib.Algebra.GroupWithZero.Nat

/-! Whole counters in double precision: a counter that passes the check before it
is stored is read back unchanged. -/

namespace HeapTelemetry

namespace Binary64

/-! ## Fields -/

/-- The double with this sign, exponent field and fraction field. -/
def ofFields (negative : Bool) (exponent fraction : Nat) : Binary64 :=
  ⟨UInt64.ofNat (exponent * 2 ^ 52 + fraction + if negative then 2 ^ 63 else 0)⟩

section
variable (sign : Bool) {exponent fraction : Nat} (he : exponent < 2047) (hf : fraction < 2 ^ 52)
include he hf

theorem bits_ofFields : (ofFields sign exponent fraction).bits.toNat =
    exponent * 2 ^ 52 + fraction + if sign then 2 ^ 63 else 0 := by
  apply UInt64.toNat_ofNat_of_lt'
  show _ < 2 ^ 64
  cases sign <;> simp only [Bool.false_eq_true, ↓reduceIte] <;> omega

theorem negative_ofFields : (ofFields sign exponent fraction).negative = sign := by
  rw [negative, bits_ofFields sign he hf, Nat.shiftRight_eq_div_pow]
  cases sign
  · have h : (exponent * 2 ^ 52 + fraction + 0) / 2 ^ 63 = 0 := by omega
    exact congrArg (· == 1) h
  · have h : (exponent * 2 ^ 52 + fraction + 2 ^ 63) / 2 ^ 63 = 1 := by omega
    exact congrArg (· == 1) h

theorem exponentField_ofFields : (ofFields sign exponent fraction).exponentField = exponent := by
  rw [exponentField, bits_ofFields sign he hf, Nat.shiftRight_eq_div_pow]
  cases sign <;> simp only [Bool.false_eq_true, ↓reduceIte] <;> omega

theorem fractionField_ofFields : (ofFields sign exponent fraction).fractionField = fraction := by
  rw [fractionField, bits_ofFields sign he hf, Nat.one_shiftLeft]
  cases sign <;> simp only [Bool.false_eq_true, ↓reduceIte] <;> omega

theorem roundedMagnitude_ofFields (hn : exponent ≠ 0) :
    (ofFields sign exponent fraction).roundedMagnitude =
      if 1075 ≤ exponent then (fraction + 2 ^ 52) * 2 ^ (exponent - 1075)
      else (fraction + 2 ^ 52 + 2 ^ (1075 - exponent - 1)) / 2 ^ (1075 - exponent) := by
  have hmax : max exponent 1 = exponent := by omega
  simp only [roundedMagnitude, exponentField_ofFields sign he hf, fractionField_ofFields sign he hf,
    hn, ↓reduceIte, hmax, Nat.shiftLeft_eq, Nat.shiftRight_eq_div_pow, Nat.one_mul]

end

/-! ## Integers -/

/-- An integer of up to 53 bits stands in the fraction, its leading bit left out. -/
theorem bitsOfNat_eq {n : Nat} (hn : n ≠ 0) (hlt : n < 2 ^ 53) :
    2 ^ 52 ≤ n * 2 ^ (52 - n.log2) ∧ n * 2 ^ (52 - n.log2) < 2 ^ 53 ∧
      bitsOfNat n = (n.log2 + 1023) * 2 ^ 52 + (n * 2 ^ (52 - n.log2) - 2 ^ 52) := by
  have hlog : n.log2 ≤ 52 := Nat.le_of_lt_succ ((Nat.log2_lt hn).2 hlt)
  have hlow : 2 ^ n.log2 * 2 ^ (52 - n.log2) ≤ n * 2 ^ (52 - n.log2) :=
    Nat.mul_le_mul_right _ (Nat.log2_self_le hn)
  have hhigh : n * 2 ^ (52 - n.log2) < 2 ^ (n.log2 + 1) * 2 ^ (52 - n.log2) :=
    Nat.mul_lt_mul_of_pos_right Nat.lt_log2_self (Nat.two_pow_pos _)
  have hsum : n.log2 + 1 + (52 - n.log2) = 53 := by omega
  rw [← Nat.pow_add, Nat.add_sub_of_le hlog] at hlow
  rw [← Nat.pow_add, hsum] at hhigh
  refine ⟨hlow, hhigh, ?_⟩
  rw [bitsOfNat, if_neg hn]
  simp only [hlog, ↓reduceIte, Nat.shiftLeft_eq]
  omega

/-- The fields of an integer of up to 53 bits, or of the next one, give it back. -/
theorem exists_fields {n : Nat} (hn : n ≤ 2 ^ 53) : ∃ exponent fraction,
    bitsOfNat n = exponent * 2 ^ 52 + fraction ∧ exponent < 2047 ∧ fraction < 2 ^ 52 ∧
      ∀ sign, (ofFields sign exponent fraction).roundedMagnitude = n := by
  by_cases hzero : n = 0
  · subst hzero
    exact ⟨0, 0, by decide, by decide, by decide, by decide +kernel⟩
  by_cases htop : n = 2 ^ 53
  · subst htop
    exact ⟨1076, 0, by decide +kernel, by decide, by decide, by decide +kernel⟩
  have hlt : n < 2 ^ 53 := Nat.lt_of_le_of_ne hn htop
  have hlog : n.log2 ≤ 52 := Nat.le_of_lt_succ ((Nat.log2_lt hzero).2 hlt)
  obtain ⟨hlow, hhigh, hbits⟩ := bitsOfNat_eq hzero hlt
  have hf : n * 2 ^ (52 - n.log2) - 2 ^ 52 < 2 ^ 52 := by omega
  refine ⟨n.log2 + 1023, _, hbits, by omega, hf, fun sign => ?_⟩
  rw [roundedMagnitude_ofFields sign (by omega) hf (by omega), Nat.sub_add_cancel hlow]
  by_cases h52 : n.log2 = 52
  · simp [h52]
  · have hk : 1075 - (n.log2 + 1023) = 52 - n.log2 := by omega
    have hsmall : 2 ^ (52 - n.log2 - 1) < 2 ^ (52 - n.log2) :=
      Nat.pow_lt_pow_right (by decide) (by omega)
    rw [if_neg (by omega), hk, Nat.add_comm, Nat.add_mul_div_right _ _ (Nat.two_pow_pos _),
      Nat.div_eq_of_lt hsmall, Nat.zero_add]

theorem ofInt_eq_ofFields {v : Int} {exponent fraction : Nat}
    (h : bitsOfNat v.natAbs = exponent * 2 ^ 52 + fraction) :
    ofInt v = ofFields (decide (v < 0)) exponent fraction := by
  rw [ofInt, ofFields, h]
  by_cases hv : v < 0 <;> simp [hv, Nat.one_shiftLeft]

/-- Integers up to the largest exact one come back from their double. -/
theorem toInt64_ofInt {v : Int64} (h : v.toInt.natAbs ≤ 2 ^ 53) : (ofInt v.toInt).toInt64 = v := by
  obtain ⟨exponent, fraction, hbits, he, hf, hround⟩ := exists_fields h
  have hnan : ¬ exponent = 2047 := by omega
  have hlow := v.le_toInt
  have hhigh := v.toInt_lt
  have hclamp : max Int64.minValue.toInt (min Int64.maxValue.toInt v.toInt) = v.toInt := by
    have hmin : Int64.minValue.toInt = -2 ^ 63 := rfl
    have hmax : Int64.maxValue.toInt = 2 ^ 63 - 1 := rfl
    omega
  rw [ofInt_eq_ofFields hbits, toInt64, isNaN, isFinite, exponentField_ofFields _ he hf,
    negative_ofFields _ he hf, hround]
  simp only [beq_iff_eq, hnan, Bool.and_eq_true, false_and, ↓reduceIte, bne_iff_ne, ne_eq,
    not_false_eq_true, decide_eq_true_eq]
  have hvalue : (if v.toInt < 0 then -(v.toInt.natAbs : Int) else v.toInt.natAbs) = v.toInt := by
    split <;> omega
  rw [hvalue, hclamp, Int64.ofInt_toInt]

end Binary64

/-! ## Counters -/

namespace SiteSeries

/-- The counters that are stored, for those that pass the check. -/
theorem checkExact_eq_ok_iff (u : Usage) (m : Metric) :
    checkExact u m = .ok () ↔ (m.read u).toInt.natAbs ≤ 2 ^ 53 := by
  rw [checkExact, maxExact]
  constructor
  · intro h
    split at h
    · cases h
    · omega
  · intro h
    rw [if_neg (by omega)]

end SiteSeries
end HeapTelemetry
