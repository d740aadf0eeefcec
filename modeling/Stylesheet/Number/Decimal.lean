/-!
# Decimals

A decimal is an integer number of units `10 ^ exponent`. The same number has many decimals; which
digits are written is decided where they are chosen.
-/

namespace Stylesheet.Number

/-- The number `digits * 10 ^ exponent`. -/
structure Decimal where
  digits : Nat
  exponent : Int
deriving DecidableEq

/-- The exact value of a decimal. -/
def Decimal.toRat (d : Decimal) : Rat := (d.digits : Rat) * (10 : Rat) ^ d.exponent

/-- A decimal that counts whole units is the number of its digits. -/
@[simp] theorem Decimal.toRat_zero_exponent (n : Nat) : (⟨n, 0⟩ : Decimal).toRat = n := by
  simp [toRat]

end Stylesheet.Number
