import Stylesheet.Number.Shortest

/-!
# Numerals

Integers are written in decimal (`ofInt`). A double is written with the fewest digits that identify
it (`ofDouble`): positionally if the power of ten of its leading digit is at least -4 and below 16,
then always with a fraction, and otherwise with an exponent of at least two digits behind `e` and a
sign. Zeros keep their sign.
-/

namespace Stylesheet.Numeral

open Stylesheet.Number

/-- The decimal numeral of a natural number. -/
def ofNat (n : Nat) : String := String.ofList (Nat.toDigits 10 n)

/-- The decimal numeral of an integer. -/
def ofInt (n : Int) : String := if n < 0 then "-" ++ ofNat n.natAbs else ofNat n.natAbs

/-- Digits without the zeros at the end, the first digit apart. -/
def significant : List Char → List Char
  | [] => []
  | d :: ds => d :: (ds.reverse.dropWhile (· == '0')).reverse

/-- Digits with a point, where the first digit counts `10 ^ power`. -/
def positional (ds : List Char) (power : Int) : List Char :=
  if power < 0 then
    '0' :: '.' :: List.replicate (-power - 1).toNat '0' ++ ds
  else
    let width := power.toNat + 1
    if ds.length ≤ width then ds ++ List.replicate (width - ds.length) '0' ++ ['.', '0']
    else ds.take width ++ '.' :: ds.drop width

/-- An exponent: its sign and at least two digits. -/
def exponent (power : Int) : List Char :=
  let ds := Nat.toDigits 10 power.natAbs
  (if power < 0 then '-' else '+') :: (if ds.length < 2 then '0' :: ds else ds)

/-- Digits with an exponent, where the first digit counts `10 ^ power`. -/
def exponential (ds : List Char) (power : Int) : List Char :=
  match ds with
  | [d] => d :: 'e' :: exponent power
  | d :: ds => d :: '.' :: ds ++ 'e' :: exponent power
  | [] => []

/-- The text of a decimal. -/
def ofDecimal (d : Decimal) : List Char :=
  let ds := Nat.toDigits 10 d.digits
  let power := d.exponent + ds.length - 1
  if -4 ≤ power ∧ power < 16 then positional (significant ds) power
  else exponential (significant ds) power

/-- The text of a double. -/
def ofDouble : Double → String
  | .finite negative x => (if negative then "-" else "") ++ String.ofList (ofDecimal x.shortest)
  | .infinite negative => if negative then "-inf" else "inf"
  | .nan _ => "nan"

/-- The text of a double as a quantity: a whole number is written as an integer, however large, and
any other by its shortest digits. -/
def quantity (x : Double) : String :=
  match x.toInt? with
  | some n => ofInt n
  | none => ofDouble x

end Stylesheet.Numeral
