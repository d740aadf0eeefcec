import Stylesheet.Number.Rounding

/-!
# The shortest decimal of a double

A decimal reads back as a double if it lies in the interval of reals that round to the double:
between the midpoints to its two neighbours, ends included iff the significand is even
(`Magnitude.readsBack`). `Magnitude.shortest` looks for the coarsest decimal grid, from the leading
digit down to 17 digits, on which one of the two points next to the value reads back; of two such
points it takes the nearer, and of two equally near ones the even. What a grid gives reads back
(`Magnitude.readsBack_of_onGrid?`); should no grid give a point, the exact value stands in.
-/

namespace Stylesheet.Number

namespace Magnitude

/-- The midpoint to the next lower double; below a power of two doubles lie twice as close. -/
def low (x : Magnitude) : Rat :=
  if x.significand = Nat.pow 2 52 ∧ -1074 < x.exponent then
    x.toRat - (2 : Rat) ^ (x.exponent - 2)
  else x.toRat - (2 : Rat) ^ (x.exponent - 1)

/-- The midpoint to the next higher double. -/
def high (x : Magnitude) : Rat := x.toRat + (2 : Rat) ^ (x.exponent - 1)

/-- Whether a number rounds to the double. -/
def readsBack (x : Magnitude) (r : Rat) : Bool :=
  if x.significand % 2 = 0 then x.low ≤ r && r ≤ x.high else x.low < r && r < x.high

/-- The nearer of the two decimals next to the value on the grid `10 ^ grid`, among those that read
back; the even one if both are equally near. -/
def onGrid? (x : Magnitude) (grid : Int) : Option Decimal :=
  let scaled := x.toRat / (10 : Rat) ^ grid
  let below := scaled.floor.toNat
  let lower : Decimal := ⟨below, grid⟩
  let upper : Decimal := ⟨below + 1, grid⟩
  match x.readsBack lower.toRat, x.readsBack upper.toRat with
  | false, false => none
  | true, false => some lower
  | false, true => some upper
  | true, true => if roundHalfEven scaled = below then some lower else some upper

/-- The exact value as a decimal. -/
def exact (x : Magnitude) : Decimal :=
  if 0 ≤ x.exponent then ⟨x.significand * Nat.pow 2 x.exponent.toNat, 0⟩
  else ⟨x.significand * Nat.pow 5 (-x.exponent).toNat, x.exponent⟩

/-- The power of ten of the leading digit of a positive number. -/
def leadingPower (r : Rat) : Int :=
  if 1 ≤ r then ((Nat.toDigits 10 r.floor.toNat).length : Int) - 1
  else -((Nat.toDigits 10 ((1 / r).ceil.toNat - 1)).length : Int)

/-- The shortest decimal that reads back. -/
def shortest (x : Magnitude) : Decimal :=
  if x.significand = 0 then ⟨0, 0⟩
  else
    let lead := leadingPower x.toRat
    ((List.range 17).findSome? fun n : Nat => x.onGrid? (lead - n)).getD x.exact

theorem readsBack_of_onGrid? {x : Magnitude} {grid : Int} {d : Decimal}
    (h : x.onGrid? grid = some d) : x.readsBack d.toRat = true := by
  simp only [onGrid?] at h
  split at h
  · simp at h
  · simp_all
  · simp_all
  · split at h <;> simp_all

end Magnitude

end Stylesheet.Number
