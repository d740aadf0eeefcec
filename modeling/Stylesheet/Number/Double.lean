/-!
# Double-precision numbers

A finite double is a sign and a magnitude `significand * 2 ^ exponent`, in the one form that the
64-bit format stores: the exponent is as small as 53 bits of significand and the least exponent,
-1074, allow. Values are exact rationals (`Double.toRat?`), so that comparing doubles with integers
never rounds; a double equals an integer iff its value does (`Double.toInt?_eq_some_iff`). A nan has
no value, but a payload, by which it is told from other nans.
-/

namespace Stylesheet.Number

/-- Whether a significand and an exponent are in the stored form: either the exponent is the least,
or the leading one of 53 bits is set. -/
def IsCanonical (significand : Nat) (exponent : Int) : Prop :=
  (exponent = -1074 ∧ significand < Nat.pow 2 53) ∨
    (-1074 < exponent ∧ exponent ≤ 971 ∧ Nat.pow 2 52 ≤ significand ∧
      significand < Nat.pow 2 53)

instance (significand : Nat) (exponent : Int) : Decidable (IsCanonical significand exponent) := by
  unfold IsCanonical
  infer_instance

/-- The magnitude of a finite double. -/
structure Magnitude where
  /-- The stored bits, with the leading one. -/
  significand : Nat
  /-- The power of two that the last bit counts. -/
  exponent : Int
  canonical : IsCanonical significand exponent
deriving DecidableEq

/-- A double-precision number. -/
inductive Double where
  | finite (negative : Bool) (magnitude : Magnitude)
  | infinite (negative : Bool)
  | nan (payload : Nat)
deriving DecidableEq

/-- The exact value of a magnitude. -/
def Magnitude.toRat (x : Magnitude) : Rat := (x.significand : Rat) * (2 : Rat) ^ x.exponent

/-- The exact value of a finite double. -/
def Double.toRat? : Double → Option Rat
  | .finite negative x => some (if negative then -x.toRat else x.toRat)
  | .infinite _ => none
  | .nan _ => none

/-- The integer that a double equals, if there is one. -/
def Double.toInt? (x : Double) : Option Int :=
  x.toRat?.bind fun r => if r.den = 1 then some r.num else none

/-- Whether a double is one of the two zeros. -/
def Double.isZero : Double → Bool
  | .finite _ x => x.significand == 0
  | .infinite _ => false
  | .nan _ => false

/-- A double equals an integer iff its exact value does. -/
theorem Double.toInt?_eq_some_iff {x : Double} {n : Int} :
    x.toInt? = some n ↔ x.toRat? = some (n : Rat) := by
  cases hx : x.toRat? with
  | none => simp [toInt?, hx]
  | some r =>
    simp only [toInt?, hx, Option.bind_some, Option.ite_none_right_eq_some, Option.some.injEq]
    constructor
    · rintro ⟨hd, rfl⟩
      apply Rat.ext <;> simp [hd]
    · rintro rfl
      simp

end Stylesheet.Number
