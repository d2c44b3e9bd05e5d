/-! Double-precision numbers in their 64-bit interchange form: conversion from
and to integers in exact integer arithmetic, total order, finiteness. -/

namespace HeapTelemetry

/-- A double, given by its sign, exponent and fraction bits. -/
structure Binary64 where
  bits : UInt64
  deriving DecidableEq, Repr, Inhabited

namespace Binary64

def zero : Binary64 := ⟨0⟩

def float (x : Binary64) : Float := Float.ofBits x.bits
def ofFloat (f : Float) : Binary64 := ⟨f.toBits⟩

def negative (x : Binary64) : Bool := x.bits.toNat >>> 63 == 1
def exponentField (x : Binary64) : Nat := x.bits.toNat >>> 52 % 2048
def fractionField (x : Binary64) : Nat := x.bits.toNat % (1 <<< 52)

/-- The largest exponent field marks infinities and NaN. -/
def isFinite (x : Binary64) : Bool := x.exponentField != 2047

def isNaN (x : Binary64) : Bool := x.exponentField == 2047 && x.fractionField != 0

def sanitized (x : Binary64) : Binary64 := if x.isFinite then x else zero

/-- Orders all doubles, negative zero before positive zero and NaN outermost. -/
def rank (x : Binary64) : Int :=
  if x.negative then -((x.bits.toNat % (1 <<< 63) : Nat) : Int) - 1 else x.bits.toNat

/-- The quotient of `n` and the `k`-th power of two, rounded to the nearest integer, a half to the even one. -/
def shiftToEven (n k : Nat) : Nat :=
  let q := n >>> k
  let r := n % (1 <<< k)
  if 2 * r > 1 <<< k || (2 * r == 1 <<< k && q % 2 == 1) then q + 1 else q

/-- Bits of the positive integer `n`, rounded to 53 significant bits. A carry
out of the fraction moves into the exponent field. -/
def bitsOfNat (n : Nat) : Nat :=
  if n = 0 then 0
  else
    let e := n.log2
    let m := if e ≤ 52 then n <<< (52 - e) else shiftToEven n (e - 52)
    ((e + 1022) <<< 52) + m

def ofInt (v : Int) : Binary64 :=
  ⟨UInt64.ofNat (bitsOfNat v.natAbs + if v < 0 then 1 <<< 63 else 0)⟩

/-- The magnitude rounded to a whole number, a half away from zero. -/
def roundedMagnitude (x : Binary64) : Nat :=
  let e := x.exponentField
  let m := if e = 0 then x.fractionField else x.fractionField + (1 <<< 52)
  let e := max e 1
  if 1075 ≤ e then m <<< (e - 1075)
  else
    let k := 1075 - e
    (m + (1 <<< (k - 1))) >>> k

/-- The nearest 64-bit integer, a half away from zero. Values out of range give
the nearer bound and NaN gives zero. -/
def toInt64 (x : Binary64) : Int64 :=
  if x.isNaN then 0
  else
    let m : Int := if x.isFinite then x.roundedMagnitude else UInt64.size
    let v := if x.negative then -m else m
    Int64.ofInt (max Int64.minValue.toInt (min Int64.maxValue.toInt v))

end Binary64
end HeapTelemetry
