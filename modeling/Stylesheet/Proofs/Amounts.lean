import Stylesheet.Proofs.Midpoints
import Stylesheet.Proofs.Numerals

/-!
# Amounts and their texts

An amount is written as an integer if it is whole, however large, and by its shortest digits if it
is not, whether it is given as an integer or as a double. Two amounts have one text exactly if they
are one number (`numeral_eq_iff`): the numeral of an integer reads back, the shortest digits of a
double lie in the interval of that double alone, and no text is of both forms, since only a text of
digits has a point or an exponent.
-/

namespace Stylesheet

open Number

/-- The number that an atom is as it stands: an integer or a finite double. -/
def Atom.number? : Atom → Option Rat
  | int n => some n
  | float x => x.toRat?
  | _ => none

/-- A text as the numeral of an integer: a minus if the integer is negative, then the digits of its
absolute value, without a zero in front unless it is the only digit. -/
def IsNumeral (n : Int) (s : String) : Prop :=
  ∃ ds, s.toList = (if n < 0 then ['-'] else []) ++ ds ∧ ds ≠ [] ∧ AllDigits ds ∧
    (ds.head? = some '0' → ds = ['0']) ∧ natOfDigits ds = n.natAbs

namespace Numeral

theorem isNumeral_ofInt (n : Int) : IsNumeral n (ofInt n) := by
  refine ⟨Nat.toDigits 10 n.natAbs, toList_ofInt n, Nat.toDigits_ne_nil, allDigits_toDigits _, ?_,
    natOfDigits_toDigits _⟩
  intro hzero
  by_cases hpos : 0 < n.natAbs
  · exact absurd hzero (head?_toDigits_of_pos hpos)
  · have : n.natAbs = 0 := by omega
    rw [this, Nat.toDigits_zero]

/-- The digits of a double, which start behind its sign, do not start with a minus. -/
theorem cons_minus_ne_ofDecimal (cs : List Char) (d : Decimal) : '-' :: cs ≠ ofDecimal d := by
  obtain ⟨whole, mark, rest, hd, hne, hdigits, -⟩ := (writes_ofDecimal d).starts
  rw [hd]
  intro h
  cases whole with
  | nil => exact hne rfl
  | cons c whole =>
    obtain ⟨rfl, -⟩ := List.cons.inj h
    have := hdigits '-' List.mem_cons_self
    contradiction

/-- A magnitude is known by the text of its shortest decimal. -/
theorem eq_of_ofDecimal_shortest_eq {x y : Magnitude}
    (h : ofDecimal x.shortest = ofDecimal y.shortest) : x = y := by
  obtain ⟨d, hread, hvalue⟩ := (writes_ofDecimal x.shortest).reads
  obtain ⟨d', hread', hvalue'⟩ := (writes_ofDecimal y.shortest).reads
  rw [h, hread'] at hread
  cases hread
  apply Magnitude.eq_of_shortest_toRat_eq
  rw [← hvalue, ← hvalue']

/-- A finite double is known by its text. -/
theorem ofDouble_finite_injective {negative negative' : Bool} {x y : Magnitude}
    (h : ofDouble (.finite negative x) = ofDouble (.finite negative' y)) :
    negative = negative' ∧ x = y := by
  have hchars := congrArg String.toList h
  simp only [ofDouble, String.toList_append, String.toList_ofList] at hchars
  cases negative <;> cases negative'
  · exact ⟨rfl, eq_of_ofDecimal_shortest_eq hchars⟩
  · exact absurd hchars.symm (cons_minus_ne_ofDecimal _ _)
  · exact absurd hchars (cons_minus_ne_ofDecimal _ _)
  · exact ⟨rfl, eq_of_ofDecimal_shortest_eq (List.cons.inj hchars).2⟩

/-- The text of a finite double is no numeral of an integer. -/
theorem ofDouble_finite_ne_ofInt (negative : Bool) (x : Magnitude) (n : Int) :
    ofDouble (.finite negative x) ≠ ofInt n := by
  intro h
  obtain ⟨whole, mark, rest, hd, -, -, hmark⟩ := (writes_ofDecimal x.shortest).starts
  have hmem : mark ∈ (ofInt n).toList := by
    rw [← h, ofDouble, String.toList_append, String.toList_ofList, hd]
    simp
  have hplain := isDigit_or_minus_of_mem_ofInt hmem
  rcases hmark with rfl | rfl
  · revert hplain
    decide
  · revert hplain
    decide

end Numeral

namespace Atom

variable {a b : Atom} {p q : Rat}

/-- A whole amount is written as an integer. -/
theorem numeral_of_whole {n : Int} (h : a.number? = some (n : Rat)) :
    a.numeral = Numeral.ofInt n := by
  cases a with
  | int m =>
    have hm : m = n := by exact_mod_cast Option.some.inj h
    rw [hm]
    rfl
  | float x =>
    have hx : x.toInt? = some n := Double.toInt?_eq_some_iff.2 h
    simp [numeral, Numeral.quantity, hx]
  | absent | bool _ | text _ | keyword _ => cases h

/-- Any other amount is a finite double, and is written as one. -/
theorem numeral_of_not_whole (h : a.number? = some p) (hp : ∀ n : Int, p ≠ n) :
    ∃ negative x, a = float (.finite negative x) ∧
      a.numeral = Numeral.ofDouble (.finite negative x) := by
  cases a with
  | int m => exact absurd (Option.some.inj h).symm (hp m)
  | float x =>
    have hx : x.toInt? = none := by
      rw [Option.eq_none_iff_forall_ne_some]
      intro n hn
      have hr : x.toRat? = some (n : Rat) := Double.toInt?_eq_some_iff.1 hn
      exact hp n (Option.some.inj (h.symm.trans hr))
    cases x with
    | finite negative x => exact ⟨negative, x, rfl, by simp [numeral, Numeral.quantity, hx]⟩
    | infinite | nan => cases h
  | absent | bool _ | text _ | keyword _ => cases h

/-- No amount that is not whole has the text of one that is. -/
theorem numeral_ne_of_not_whole {n : Int} (ha : a.number? = some (n : Rat))
    (hb : b.number? = some q) (hq : ∀ m : Int, q ≠ m) : a.numeral ≠ b.numeral := by
  obtain ⟨negative, x, -, hx⟩ := numeral_of_not_whole hb hq
  rw [numeral_of_whole ha, hx]
  exact (Numeral.ofDouble_finite_ne_ofInt _ _ _).symm

/-- Amounts that are not whole are known by their texts. -/
theorem numeral_eq_iff_of_not_whole (ha : a.number? = some p) (hb : b.number? = some q)
    (hp : ∀ n : Int, p ≠ n) (hq : ∀ n : Int, q ≠ n) : a.numeral = b.numeral ↔ p = q := by
  obtain ⟨negative, x, rfl, hx⟩ := numeral_of_not_whole ha hp
  obtain ⟨negative', y, rfl, hy⟩ := numeral_of_not_whole hb hq
  rw [hx, hy]
  constructor
  · intro h
    obtain ⟨rfl, rfl⟩ := Numeral.ofDouble_finite_injective h
    exact Option.some.inj (ha.symm.trans hb)
  · rintro rfl
    have hleft : (Double.finite negative x).toRat? = some p := ha
    have hright : (Double.finite negative' y).toRat? = some p := hb
    rw [Double.eq_of_toRat? hleft hright (by simpa using hp 0)]

end Atom

/-- Two amounts, integers of any size or finite doubles, have one text exactly if they are one
number. The text of a whole amount is the numeral of the integer that it is. -/
theorem numeral_eq_iff {a b : Atom} {p q : Rat} (ha : a.number? = some p)
    (hb : b.number? = some q) :
    (a.numeral = b.numeral ↔ p = q) ∧ ∀ n : Int, p = n → IsNumeral n a.numeral := by
  refine ⟨?_, ?_⟩
  · by_cases hp : ∃ n : Int, p = n
    · obtain ⟨n, rfl⟩ := hp
      by_cases hq : ∃ m : Int, q = m
      · obtain ⟨m, rfl⟩ := hq
        rw [Atom.numeral_of_whole ha, Atom.numeral_of_whole hb, Rat.intCast_inj]
        exact ⟨Numeral.ofInt_injective, congrArg Numeral.ofInt⟩
      · have hq : ∀ m : Int, q ≠ m := not_exists.1 hq
        exact iff_of_false (Atom.numeral_ne_of_not_whole ha hb hq) fun h => hq n h.symm
    · have hp : ∀ n : Int, p ≠ n := not_exists.1 hp
      by_cases hq : ∃ m : Int, q = m
      · obtain ⟨m, rfl⟩ := hq
        exact iff_of_false (Atom.numeral_ne_of_not_whole hb ha hp).symm (hp m)
      · exact Atom.numeral_eq_iff_of_not_whole ha hb hp (not_exists.1 hq)
  · rintro n rfl
    rw [Atom.numeral_of_whole ha]
    exact Numeral.isNumeral_ofInt n

/-- A double far beyond 2 ^ 53 is written as the integer that it is, and two neighbouring doubles
apart. -/
theorem numeral_eq_iff_of_doubles :
    let large : Atom := .float (.finite true ⟨4768371582031250, 21, by decide⟩)
    let tenth : Atom := .float (.finite false ⟨7205759403792794, -56, by decide⟩)
    let next : Atom := .float (.finite false ⟨7205759403792795, -56, by decide⟩)
    large.number? = some (-10 ^ 22 : Int) ∧
      large.numeral = (Atom.int (-10 ^ 22)).numeral ∧
      IsNumeral (-10 ^ 22) large.numeral ∧ large.numeral = "-10000000000000000000000" ∧
      tenth.numeral = "0.1" ∧ next.numeral ≠ tenth.numeral := by
  intro large tenth next
  have hlarge : large.number? = some ((-10 ^ 22 : Int) : Rat) := by decide +kernel
  have hint : (Atom.int (-10 ^ 22)).number? = some ((-10 ^ 22 : Int) : Rat) := rfl
  have hnext : next.number? = some (7205759403792795 / 2 ^ 56) := by decide +kernel
  have htenth : tenth.number? = some (7205759403792794 / 2 ^ 56) := by decide +kernel
  refine ⟨hlarge, (numeral_eq_iff hlarge hint).1.2 rfl, (numeral_eq_iff hlarge hint).2 _ rfl,
    by decide +kernel, by decide +kernel, ?_⟩
  exact fun h => absurd ((numeral_eq_iff hnext htenth).1.1 h) (by decide +kernel)

end Stylesheet
