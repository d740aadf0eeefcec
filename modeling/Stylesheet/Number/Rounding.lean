import Stylesheet.Number.Decimal
import Stylesheet.Number.Double

/-!
# Rounding to a double

`Double.nearest` rounds a number to the nearest double, a tie to the even significand; beyond the
largest double it gives infinity. `Double.ofDecimal` reads a decimal this way. The significand is
rounded once, at the exponent that the number's size demands, so no tie is decided on rounded
digits.
-/

namespace Stylesheet.Number

/-- The integer nearest to a number that is not negative; of two, the even one. -/
def roundHalfEven (r : Rat) : Nat :=
  let below := r.floor.toNat
  let half := r - (below : Rat)
  if half < 1 / 2 ∨ (half = 1 / 2 ∧ below % 2 = 0) then below else below + 1

/-- The power of two of the leading bit of a positive number. -/
def leadingBit (r : Rat) : Int :=
  let e : Int := (r.num.natAbs.log2 : Int) - r.den.log2
  if r < (2 : Rat) ^ e then e - 1 else e

/-- A magnitude in the stored form, if the two numbers are one. -/
def Magnitude.ofParts? (significand : Nat) (exponent : Int) : Option Magnitude :=
  if h : IsCanonical significand exponent then some ⟨significand, exponent, h⟩ else none

/-- The double nearest to a number, given by its sign and its size. A significand that rounds up to
2 ^ 53 moves to the next exponent. -/
def Double.nearest (negative : Bool) (r : Rat) : Double :=
  let exponent := if r = 0 then -1074 else max (-1074) (leadingBit r - 52)
  let significand := roundHalfEven (r / (2 : Rat) ^ exponent)
  match Magnitude.ofParts? significand exponent with
  | some x => .finite negative x
  | none =>
    match Magnitude.ofParts? (significand / 2) (exponent + 1) with
    | some x => .finite negative x
    | none => .infinite negative

/-- Whether a decimal is so small that the nearest double is zero. With digits of `b` bits it is
below `2 ^ b * 10 ^ exponent`, and a negative power of ten is below the same power of eight. -/
def Decimal.vanishes (d : Decimal) : Bool :=
  d.digits = 0 || (d.digits.log2 : Int) + 1 + 3 * min d.exponent 0 ≤ -1075

/-- Whether a decimal is beyond all doubles because of its exponent alone. -/
def Decimal.overflows (d : Decimal) : Bool := d.digits ≠ 0 && 309 ≤ d.exponent

/-- The double nearest to a decimal. A decimal far outside the range of doubles is not worked
out. -/
def Double.ofDecimal (negative : Bool) (d : Decimal) : Double :=
  if d.vanishes then Double.nearest negative 0
  else if d.overflows then .infinite negative
  else Double.nearest negative d.toRat

theorem Magnitude.ofParts?_eq_some_iff {significand : Nat} {exponent : Int} {x : Magnitude} :
    ofParts? significand exponent = some x ↔
      x.significand = significand ∧ x.exponent = exponent := by
  obtain ⟨m, q, h⟩ := x
  unfold ofParts?
  split
  · simp only [Option.some.injEq, mk.injEq]
    exact ⟨fun ⟨hm, hq⟩ => ⟨hm.symm, hq.symm⟩, fun ⟨hm, hq⟩ => ⟨hm.symm, hq.symm⟩⟩
  · next hn =>
    simp only [reduceCtorEq, false_iff]
    rintro ⟨rfl, rfl⟩
    exact hn h

/-- A double's magnitude is in the stored form. -/
@[simp] theorem Magnitude.ofParts?_self (x : Magnitude) :
    ofParts? x.significand x.exponent = some x :=
  ofParts?_eq_some_iff.2 ⟨rfl, rfl⟩

/-- Rounding an integer changes nothing. -/
@[simp] theorem roundHalfEven_natCast (n : Nat) : roundHalfEven n = n := by
  have h : (n : Rat).floor = n := Rat.floor_intCast n
  have hs : (n : Rat) - n < 1 / 2 := by grind
  simp only [roundHalfEven, h, Int.toNat_natCast]
  rw [if_pos (Or.inl hs)]

end Stylesheet.Number
