import Stylesheet.Number.Rounding

/-!
# Reading numbers

The texts of numbers: integers with a sign, and doubles with a sign, digits before or behind a point
or on both sides of it, and an exponent. Zeros in front change nothing. `inf` and `nan` stand for
what has no digits. A double is read as the nearest one to its text.
-/

namespace Stylesheet.Number

/-- The number that digits stand for. -/
def natOfDigits (ds : List Char) : Nat := ds.foldl (fun n d => 10 * n + (d.toNat - '0'.toNat)) 0

/-- The sign at the start of a text, `true` for a minus, and what follows it. -/
def takeSign : List Char → Bool × List Char
  | '-' :: cs => (true, cs)
  | '+' :: cs => (false, cs)
  | cs => (false, cs)

/-- The digits at the start of a text, and what follows them. -/
def takeDigits (cs : List Char) : List Char × List Char :=
  (cs.takeWhile Char.isDigit, cs.dropWhile Char.isDigit)

/-- The integer that a text of a sign and digits stands for. -/
def intOfChars? (cs : List Char) : Option Int :=
  let (negative, cs) := takeSign cs
  if cs.isEmpty || !cs.all Char.isDigit then none
  else
    let n : Int := natOfDigits cs
    some (if negative then -n else n)

/-- The exponent at the end of a text; without one it is zero. -/
def exponentOfChars? : List Char → Option Int
  | [] => some 0
  | 'e' :: cs => intOfChars? cs
  | 'E' :: cs => intOfChars? cs
  | _ => none

/-- The digits behind a point, if there is one, and what follows them. -/
def takeFraction : List Char → List Char × List Char
  | '.' :: cs => takeDigits cs
  | cs => ([], cs)

/-- The decimal that a text of digits, point and exponent stands for. -/
def decimalOfChars? (cs : List Char) : Option Decimal :=
  let (whole, cs) := takeDigits cs
  let (fraction, cs) := takeFraction cs
  if whole.isEmpty && fraction.isEmpty then none
  else
    (exponentOfChars? cs).map fun e => ⟨natOfDigits (whole ++ fraction), e - fraction.length⟩

/-- The double that a text without its sign stands for. -/
def doubleOfChars? (negative : Bool) (cs : List Char) : Option Double :=
  if cs = "inf".toList then some (.infinite negative)
  else if cs = "nan".toList then some (.nan 0)
  else (decimalOfChars? cs).map (Double.ofDecimal negative)

/-- The integer that a text stands for. -/
def intOfText? (s : String) : Option Int := intOfChars? s.toList

/-- The double that a text stands for. -/
def doubleOfText? (s : String) : Option Double :=
  let (negative, cs) := takeSign s.toList
  doubleOfChars? negative cs

theorem takeDigits_append (cs : List Char) : (takeDigits cs).1 ++ (takeDigits cs).2 = cs :=
  List.takeWhile_append_dropWhile

/-- One more digit counts what was read so far tenfold. -/
theorem natOfDigits_concat (ds : List Char) (d : Char) :
    natOfDigits (ds ++ [d]) = 10 * natOfDigits ds + (d.toNat - '0'.toNat) := by
  simp [natOfDigits]

end Stylesheet.Number
