import HeapTelemetry.Binary64

/-! The slope of the least-squares line through a list of points, over doubles
or over any other arithmetic. -/

namespace HeapTelemetry

/-- The operations that a slope is computed with. -/
class Arithmetic (α : Type) extends Add α, Sub α, Mul α, Div α where
  ofInt : Int → α
  isZero : α → Bool
  isFinite : α → Bool

instance : Arithmetic Float where
  ofInt v := (Binary64.ofInt v).float
  isZero x := x == 0.0
  isFinite := Float.isFinite

/-- Exact arithmetic. -/
instance : Arithmetic Rat where
  ofInt v := v
  isZero x := x == 0
  isFinite _ := true

namespace Rates
variable {α : Type} [Arithmetic α]
open Arithmetic

def sum (xs : List α) : α := xs.foldl (· + ·) (ofInt 0)

def mean (xs : List α) : α := sum xs / ofInt xs.length

/-- The sums of products of deviations: of x with y, and of x with itself. -/
def deviations (mx my : α) (points : List (α × α)) : α × α :=
  points.foldl (fun (sxy, sxx) (x, y) => (sxy + (x - mx) * (y - my), sxx + (x - mx) * (x - mx)))
    (ofInt 0, ofInt 0)

/-- The slope of the points that both lists have; zero for fewer than two, for
equal x values and where the quotient is not finite. -/
def slope (xs ys : List α) : α :=
  let n := min xs.length ys.length
  if n < 2 then ofInt 0
  else
    let xs := xs.take n
    let ys := ys.take n
    let (sxy, sxx) := deviations (mean xs) (mean ys) (xs.zip ys)
    if isZero sxx then ofInt 0
    else
      let b := sxy / sxx
      if isFinite b then b else ofInt 0

end Rates
end HeapTelemetry
