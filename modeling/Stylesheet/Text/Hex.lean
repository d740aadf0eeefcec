/-!
# Hexadecimal numerals of a fixed width

`hexDigits w n` writes the last `w` hexadecimal digits of `n` in lowercase, `hexValue` reads digits
back. Every numeral has its width (`length_hexDigits`), is made of lowercase digits
(`isHexDigit_of_mem_hexDigits`) and reads back as the number if that fits
(`hexValue_hexDigits`).
-/

namespace Stylesheet.Text

/-- The lowercase digit of `d < 16`. -/
def hexDigit (d : Nat) : Char :=
  if d < 10 then Char.ofNat (48 + d) else Char.ofNat (87 + d)

/-- The number a lowercase digit stands for. -/
def hexDigitValue (c : Char) : Nat :=
  if c.toNat < 58 then c.toNat - 48 else c.toNat - 87

/-- Whether a character is one of `0` to `9` and `a` to `f`. -/
def isHexDigit (c : Char) : Bool :=
  (48 ≤ c.toNat && c.toNat ≤ 57) || (97 ≤ c.toNat && c.toNat ≤ 102)

/-- The last `w` hexadecimal digits of `n`, the most significant first. -/
def hexDigits : Nat → Nat → List Char
  | 0, _ => []
  | w + 1, n => hexDigits w (n / 16) ++ [hexDigit (n % 16)]

/-- The number that digits stand for, the most significant first. -/
def hexValue (cs : List Char) : Nat :=
  cs.foldl (fun n c => n * 16 + hexDigitValue c) 0

theorem hexDigitValue_hexDigit : ∀ d < 16, hexDigitValue (hexDigit d) = d := by decide

theorem isHexDigit_hexDigit : ∀ d < 16, isHexDigit (hexDigit d) = true := by decide

@[simp] theorem length_hexDigits (w n : Nat) : (hexDigits w n).length = w := by
  induction w generalizing n with
  | zero => rfl
  | succ w ih => simp [hexDigits, ih]

theorem isHexDigit_of_mem_hexDigits {w n : Nat} {c : Char} (h : c ∈ hexDigits w n) :
    isHexDigit c = true := by
  induction w generalizing n with
  | zero => simp [hexDigits] at h
  | succ w ih =>
    rcases List.mem_append.1 h with h | h
    · exact ih h
    · rw [List.mem_singleton.1 h]
      exact isHexDigit_hexDigit _ (Nat.mod_lt _ (by decide))

/-- A numeral wide enough for its number reads back as that number. -/
theorem hexValue_hexDigits {w n : Nat} (h : n < Nat.pow 16 w) : hexValue (hexDigits w n) = n := by
  induction w generalizing n with
  | zero => simp_all [hexDigits, hexValue]
  | succ w ih =>
    have hq : n / 16 < Nat.pow 16 w := by
      rw [Nat.div_lt_iff_lt_mul (by decide)]
      simpa [Nat.pow_succ] using h
    have hv := ih hq
    simp only [hexValue] at hv
    simp only [hexDigits, hexValue, List.foldl_append, List.foldl_cons, List.foldl_nil, hv,
      hexDigitValue_hexDigit _ (Nat.mod_lt n (show 16 > 0 by decide))]
    omega

end Stylesheet.Text
