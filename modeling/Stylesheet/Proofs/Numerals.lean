import Mathlib.Data.List.Basic
import Mathlib.Tactic.Ring
import Stylesheet.Number.Numeral
import Stylesheet.Number.Reading

/-!
# Reading numerals back

What is written for an integer reads back as that integer (`Numeral.intOfChars?_ofInt`), and what is
written for a decimal reads back with its value, in whichever of the layouts it is written
(`Numeral.writes_ofDecimal`). So different numbers have different texts. No decimal is mistaken for
an integer: behind its first digits stands a point or an `e` (`Numeral.Writes`).

All layouts write the significant digits and the power of ten of the first of them; `valueOfDigits`
is the number that these two stand for. The zeros that are left out at the end, or written between
the digits and the point, move from the digits into the power (`toRat_mul_pow`).
-/

namespace Stylesheet

namespace Number

/-- All characters are decimal digits. -/
def AllDigits (ds : List Char) : Prop := ∀ c ∈ ds, c.isDigit = true

/-- No digit comes first. -/
def EndsDigits (cs : List Char) : Prop := ∀ c ∈ cs.head?, c.isDigit = false

variable {ds cs : List Char}

theorem AllDigits.append {es : List Char} (hd : AllDigits ds) (he : AllDigits es) :
    AllDigits (ds ++ es) := List.forall_mem_append.2 ⟨hd, he⟩

theorem allDigits_replicate (n : Nat) : AllDigits (List.replicate n '0') := by
  intro c hc
  rw [List.eq_of_mem_replicate hc]
  decide

theorem allDigits_toDigits (n : Nat) : AllDigits (Nat.toDigits 10 n) := fun _ hc =>
  Nat.isDigit_of_mem_toDigits (by decide) (by decide) hc

/-! ## The value of digits -/

theorem natOfDigits_append (ds es : List Char) :
    natOfDigits (ds ++ es) = natOfDigits ds * 10 ^ es.length + natOfDigits es := by
  show Nat.ofDigitChars 10 (ds ++ es) 0 = Nat.ofDigitChars 10 ds 0 * _ + Nat.ofDigitChars 10 es 0
  rw [Nat.ofDigitChars_append, Nat.ofDigitChars_eq_ofDigitChars_zero, Nat.mul_comm]

theorem natOfDigits_toDigits (n : Nat) : natOfDigits (Nat.toDigits 10 n) = n :=
  Nat.ofDigitChars_ten_toDigits

theorem natOfDigits_replicate (n : Nat) : natOfDigits (List.replicate n '0') = 0 :=
  (Nat.ofDigitChars_replicate_zero).trans (Nat.mul_zero _)

/-- Zeros in front change nothing. -/
theorem natOfDigits_zeros_append (n : Nat) (ds : List Char) :
    natOfDigits (List.replicate n '0' ++ ds) = natOfDigits ds := by
  rw [natOfDigits_append, natOfDigits_replicate, Nat.zero_mul, Nat.zero_add]

/-- Each zero at the end counts tenfold. -/
theorem natOfDigits_append_zeros (ds : List Char) (n : Nat) :
    natOfDigits (ds ++ List.replicate n '0') = natOfDigits ds * 10 ^ n := by
  rw [natOfDigits_append, natOfDigits_replicate, List.length_replicate, Nat.add_zero]

/-- A factor of ten in the digits is one more in the exponent. -/
theorem toRat_mul_pow (n k : Nat) (e : Int) :
    (⟨n * 10 ^ k, e⟩ : Decimal).toRat = (⟨n, e + k⟩ : Decimal).toRat := by
  rw [Decimal.toRat, Decimal.toRat, Rat.zpow_add (by decide), Rat.zpow_natCast]
  push_cast
  ring

/-- The number that digits stand for if the first of them counts `10 ^ power`. -/
def valueOfDigits (ds : List Char) (power : Int) : Rat :=
  (⟨natOfDigits ds, power + 1 - ds.length⟩ : Decimal).toRat

/-! ## Readers at the end of digits -/

theorem takeDigits_append_of_endsDigits (hds : AllDigits ds) (hcs : EndsDigits cs) :
    takeDigits (ds ++ cs) = (ds, cs) := by
  have hstop : cs.takeWhile Char.isDigit = [] ∧ cs.dropWhile Char.isDigit = cs := by
    cases cs with
    | nil => exact ⟨rfl, rfl⟩
    | cons c cs => simp [hcs c rfl]
  rw [takeDigits, List.takeWhile_append_of_pos hds, List.dropWhile_append_of_pos hds, hstop.1,
    hstop.2, List.append_nil]

theorem takeFraction_append (hds : AllDigits ds) (hcs : EndsDigits cs) :
    takeFraction ('.' :: (ds ++ cs)) = (ds, cs) := takeDigits_append_of_endsDigits hds hcs

theorem takeSign_of_isDigit (hne : ds ≠ []) (hds : AllDigits ds) :
    takeSign (ds ++ cs) = (false, ds ++ cs) := by
  cases ds with
  | nil => exact absurd rfl hne
  | cons d ds =>
    have hd := hds d List.mem_cons_self
    unfold takeSign
    split
    · simp_all
    · simp_all
    · rfl

theorem intOfChars?_of_allDigits (hne : ds ≠ []) (hds : AllDigits ds) :
    intOfChars? ds = some (natOfDigits ds : Int) := by
  have hsign : takeSign (ds ++ []) = (false, ds ++ []) := takeSign_of_isDigit hne hds
  rw [List.append_nil] at hsign
  have hall : ds.all Char.isDigit = true := List.all_eq_true.2 hds
  simp [intOfChars?, hsign, hne, hall]

theorem intOfChars?_minus (hne : ds ≠ []) (hds : AllDigits ds) :
    intOfChars? ('-' :: ds) = some (-(natOfDigits ds : Int)) := by
  have hall : ds.all Char.isDigit = true := List.all_eq_true.2 hds
  simp [intOfChars?, takeSign, hne, hall]

theorem intOfChars?_plus (hne : ds ≠ []) (hds : AllDigits ds) :
    intOfChars? ('+' :: ds) = some (natOfDigits ds : Int) := by
  have hall : ds.all Char.isDigit = true := List.all_eq_true.2 hds
  simp [intOfChars?, takeSign, hne, hall]

end Number

namespace Numeral

open Number

/-! ## Integers -/

theorem toList_ofInt (n : Int) :
    (ofInt n).toList = (if n < 0 then ['-'] else []) ++ Nat.toDigits 10 n.natAbs := by
  unfold ofInt ofNat
  split <;> simp

/-- The numeral of an integer reads back. -/
theorem intOfChars?_ofInt (n : Int) : intOfChars? (ofInt n).toList = some n := by
  have hdigits := allDigits_toDigits n.natAbs
  rw [toList_ofInt]
  split
  · rw [List.singleton_append, intOfChars?_minus Nat.toDigits_ne_nil hdigits,
      natOfDigits_toDigits]
    exact congrArg some (by omega)
  · rw [List.nil_append, intOfChars?_of_allDigits Nat.toDigits_ne_nil hdigits,
      natOfDigits_toDigits]
    exact congrArg some (by omega)

theorem ofInt_injective {n m : Int} (h : ofInt n = ofInt m) : n = m := by
  have hread := intOfChars?_ofInt n
  rw [h, intOfChars?_ofInt m] at hread
  exact (Option.some.inj hread).symm

/-- The numeral of an integer is made of digits behind its sign. -/
theorem isDigit_or_minus_of_mem_ofInt {n : Int} {c : Char} (h : c ∈ (ofInt n).toList) :
    c.isDigit = true ∨ c = '-' := by
  rw [toList_ofInt, List.mem_append] at h
  rcases h with h | h
  · split at h
    · exact .inr (List.mem_singleton.1 h)
    · cases h
  · exact .inl (allDigits_toDigits _ c h)

/-- No numeral but that of zero starts with a zero. -/
theorem head?_toDigits_of_pos {n : Nat} (h : 0 < n) : (Nat.toDigits 10 n).head? ≠ some '0' := by
  induction n using Nat.strongRecOn with
  | ind n ih =>
    by_cases hsmall : n < 10
    · have hdigit : ∀ k < 10, 0 < k → [k.digitChar].head? ≠ some '0' := by decide
      rw [Nat.toDigits_of_lt_base hsmall]
      exact hdigit n hsmall h
    · rw [Nat.toDigits_of_base_le (by decide) (by omega),
        List.head?_append_of_ne_nil _ Nat.toDigits_ne_nil]
      exact ih (n / 10) (by omega) (by omega)

/-! ## Layouts of decimals -/

/-- A text as it is written for decimals: digits with a point or an `e` behind them, which read back
with the value `r`. -/
structure Writes (cs : List Char) (r : Rat) : Prop where
  starts : ∃ whole mark rest, cs = whole ++ mark :: rest ∧ whole ≠ [] ∧ AllDigits whole ∧
    (mark = '.' ∨ mark = 'e')
  reads : ∃ d, decimalOfChars? cs = some d ∧ d.toRat = r

variable {ds : List Char}

theorem intOfChars?_exponent (power : Int) : intOfChars? (exponent power) = some power := by
  have hdigits : ∀ n, ∃ es, (if (Nat.toDigits 10 n).length < 2 then '0' :: Nat.toDigits 10 n
      else Nat.toDigits 10 n) = es ∧ es ≠ [] ∧ AllDigits es ∧ natOfDigits es = n := by
    intro n
    refine ⟨_, rfl, ?_⟩
    split
    · refine ⟨List.cons_ne_nil _ _, (allDigits_replicate 1).append (allDigits_toDigits n), ?_⟩
      exact (natOfDigits_zeros_append 1 _).trans (natOfDigits_toDigits n)
    · exact ⟨Nat.toDigits_ne_nil, allDigits_toDigits n, natOfDigits_toDigits n⟩
  obtain ⟨es, hes, hne, hall, hvalue⟩ := hdigits power.natAbs
  simp only [exponent, hes]
  split
  · rw [intOfChars?_minus hne hall, hvalue]
    exact congrArg some (by omega)
  · rw [intOfChars?_plus hne hall, hvalue]
    exact congrArg some (by omega)

/-- Digits on both sides of a point. -/
theorem writes_point {whole fraction cs : List Char} {e : Int} (hne : whole ≠ [])
    (hw : AllDigits whole) (hf : AllDigits fraction) (hcs : EndsDigits cs)
    (he : exponentOfChars? cs = some e) :
    Writes (whole ++ '.' :: (fraction ++ cs))
      (⟨natOfDigits (whole ++ fraction), e - fraction.length⟩ : Decimal).toRat where
  starts := ⟨whole, '.', _, rfl, hne, hw, .inl rfl⟩
  reads := by
    have hpoint : EndsDigits ('.' :: (fraction ++ cs)) := by
      rintro c ⟨⟩
      decide
    refine ⟨_, ?_, rfl⟩
    simp [decimalOfChars?, takeDigits_append_of_endsDigits hw hpoint, takeFraction_append hf hcs,
      he, hne]

/-- Digits without a point, in front of an exponent. -/
theorem writes_exponent {whole : List Char} (hne : whole ≠ []) (hw : AllDigits whole)
    (power : Int) :
    Writes (whole ++ 'e' :: exponent power) (⟨natOfDigits whole, power⟩ : Decimal).toRat where
  starts := ⟨whole, 'e', _, rfl, hne, hw, .inr rfl⟩
  reads := by
    have hmark : EndsDigits ('e' :: exponent power) := by
      rintro c ⟨⟩
      decide
    refine ⟨_, ?_, rfl⟩
    simp [decimalOfChars?, takeDigits_append_of_endsDigits hw hmark, takeFraction,
      exponentOfChars?, intOfChars?_exponent, hne]

section

variable (hne : ds ≠ []) (hds : AllDigits ds) (power : Int)

include hne hds

/-- Wherever the point comes to stand, the text has the value of its digits. -/
theorem writes_positional : Writes (positional ds power) (valueOfDigits ds power) := by
  have hend : EndsDigits [] := nofun
  have hexponent : exponentOfChars? [] = some 0 := rfl
  unfold positional
  split
  case isTrue hneg =>
    -- The point stands in front of the digits, with zeros behind it.
    let zeros := List.replicate (-power - 1).toNat '0'
    have hfraction : AllDigits (zeros ++ ds) := (allDigits_replicate _).append hds
    have h := writes_point (List.cons_ne_nil '0' []) (allDigits_replicate 1) hfraction hend
      hexponent
    have hdigits : natOfDigits (['0'] ++ (zeros ++ ds)) = natOfDigits ds :=
      (natOfDigits_zeros_append 1 _).trans (natOfDigits_zeros_append _ ds)
    have hlength : (0 : Int) - (zeros ++ ds).length = power + 1 - ds.length := by
      rw [List.length_append, List.length_replicate]
      omega
    rw [List.append_nil, hdigits, hlength] at h
    exact h
  case isFalse hnonneg =>
    dsimp only
    split
    case isTrue hlen =>
      -- Zeros fill the places up to the point, and one more stands behind it.
      let zeros := List.replicate (power.toNat + 1 - ds.length) '0'
      have hwhole : AllDigits (ds ++ zeros) := hds.append (allDigits_replicate _)
      have hne' : ds ++ zeros ≠ [] := by simp [hne]
      have h := writes_point hne' hwhole (allDigits_replicate 1) hend hexponent
      have hdigits : natOfDigits (ds ++ zeros ++ ['0']) =
          natOfDigits ds * 10 ^ (power.toNat + 1 - ds.length + 1) := by
        rw [List.append_assoc, ← List.replicate_succ', natOfDigits_append_zeros]
      have hpower : (0 : Int) - (1 : Nat) + (power.toNat + 1 - ds.length + 1 : Nat) =
          power + 1 - ds.length := by omega
      rw [List.append_nil, List.length_replicate, List.replicate_one, hdigits, toRat_mul_pow,
        hpower] at h
      exact h
    case isFalse hlen =>
      -- The point stands among the digits.
      have hwhole : AllDigits (ds.take (power.toNat + 1)) := fun c hc =>
        hds c (List.mem_of_mem_take hc)
      have hfraction : AllDigits (ds.drop (power.toNat + 1)) := fun c hc =>
        hds c (List.mem_of_mem_drop hc)
      have hne' : ds.take (power.toNat + 1) ≠ [] := by simp [hne]
      have h := writes_point hne' hwhole hfraction hend hexponent
      have hpower : (0 : Int) - (ds.length - (power.toNat + 1) : Nat) =
          power + 1 - ds.length := by omega
      rw [List.append_nil, List.take_append_drop, List.length_drop, hpower] at h
      exact h

theorem writes_exponential : Writes (exponential ds power) (valueOfDigits ds power) := by
  rcases ds with _ | ⟨d, _ | ⟨e, es⟩⟩
  · exact absurd rfl hne
  · have h := writes_exponent hne hds power
    have hpower : power + 1 - ([d] : List Char).length = power := by simp
    rw [valueOfDigits, hpower]
    exact h
  · obtain ⟨hd, hes⟩ := List.forall_mem_cons.1 hds
    have hmark : EndsDigits ('e' :: exponent power) := by
      rintro c ⟨⟩
      decide
    have h := writes_point (List.cons_ne_nil d []) (List.forall_mem_singleton.2 hd) hes hmark
      (intOfChars?_exponent power)
    have hpower : power - (e :: es).length = power + 1 - (d :: e :: es).length := by
      simp only [List.length_cons]
      omega
    rw [hpower] at h
    exact h

end

/-- Digits are the significant ones with zeros behind them. -/
theorem exists_eq_significant_append (ds : List Char) :
    ∃ k, ds = significant ds ++ List.replicate k '0' := by
  cases ds with
  | nil => exact ⟨0, rfl⟩
  | cons d ds =>
    -- What is dropped from the reversed digits are zeros.
    let zeros := ds.reverse.takeWhile (· == '0')
    have hzeros : zeros = List.replicate zeros.length '0' := by
      apply List.eq_replicate_of_mem
      intro c hc
      exact beq_iff_eq.1 (List.all_eq_true.1 List.all_takeWhile c hc)
    have hsplit : ds = (ds.reverse.dropWhile (· == '0')).reverse ++ zeros.reverse := by
      rw [← List.reverse_append, List.takeWhile_append_dropWhile, List.reverse_reverse]
    refine ⟨zeros.length, ?_⟩
    rw [significant, List.cons_append, List.cons.injEq]
    refine ⟨rfl, ?_⟩
    rw [hzeros, List.reverse_replicate] at hsplit
    exact hsplit

theorem significant_ne_nil {ds : List Char} (h : ds ≠ []) : significant ds ≠ [] := by
  cases ds with
  | nil => exact absurd rfl h
  | cons d ds => exact List.cons_ne_nil d _

/-- The text of a decimal reads back with its value. -/
theorem writes_ofDecimal (d : Decimal) : Writes (ofDecimal d) d.toRat := by
  let digits := Nat.toDigits 10 d.digits
  let power := d.exponent + digits.length - 1
  obtain ⟨k, hk⟩ : ∃ k, digits = significant digits ++ List.replicate k '0' :=
    exists_eq_significant_append digits
  have hne : significant digits ≠ [] := significant_ne_nil Nat.toDigits_ne_nil
  have hds : AllDigits (significant digits) := by
    intro c hc
    apply allDigits_toDigits d.digits
    show c ∈ digits
    rw [hk]
    exact List.mem_append_left _ hc
  have hvalue : valueOfDigits (significant digits) power = d.toRat := by
    have hdigits : natOfDigits (significant digits) * 10 ^ k = d.digits := by
      rw [← natOfDigits_append_zeros, ← hk, natOfDigits_toDigits]
    have hlength : digits.length = (significant digits).length + k := by
      have := congrArg List.length hk
      rwa [List.length_append, List.length_replicate] at this
    have hpower : power + 1 - (significant digits).length = d.exponent + k := by omega
    rw [valueOfDigits, hpower, ← toRat_mul_pow, hdigits]
  rw [← hvalue]
  show Writes (if -4 ≤ power ∧ power < 16 then positional (significant digits) power
    else exponential (significant digits) power) _
  split
  · exact writes_positional hne hds power
  · exact writes_exponential hne hds power

end Numeral

end Stylesheet
