import Mathlib.Tactic.Linarith
import Mathlib.Tactic.Ring
import Stylesheet.Number.Shortest
import Stylesheet.Proofs.Normal

/-!
# The intervals around doubles

The numbers that round to a double lie between the midpoints to its two neighbours. The intervals of
two doubles have no number in common, though neighbours share a midpoint: both ends of an interval
belong to it only if the significand is even, and of two neighbours one has an odd significand
(`Magnitude.eq_of_readsBack`). So the shortest decimal of a double, which lies in its interval
(`Magnitude.readsBack_shortest`), tells it from all others.

Midpoints are compared as integers, counted in quarters of the last place of the smaller double:
above a power of two a double has its lower midpoint one quarter away, any other two quarters.
-/

namespace Stylesheet.Number

/-! ## Multiples of a power of two -/

theorem two_zpow_pos (e : Int) : 0 < (2 : Rat) ^ e := Rat.zpow_pos (by decide)

theorem mul_zpow_le_iff (a b e : Int) : (a : Rat) * 2 ^ e ≤ b * 2 ^ e ↔ a ≤ b := by
  rw [mul_le_mul_iff_left₀ (two_zpow_pos e), Int.cast_le]

theorem mul_zpow_lt_iff (a b e : Int) : (a : Rat) * 2 ^ e < b * 2 ^ e ↔ a < b := by
  rw [mul_lt_mul_iff_left₀ (two_zpow_pos e), Int.cast_lt]

/-- A multiple of a power of two as one of a smaller power. -/
theorem mul_zpow_add (a e : Int) (k : Nat) :
    (a : Rat) * 2 ^ (e + k) = ((a * 2 ^ k : Int) : Rat) * 2 ^ e := by
  rw [Rat.zpow_add (by decide), Rat.zpow_natCast]
  push_cast
  ring

theorem mul_two_le_mul_pow_succ {a : Int} (ha : 0 ≤ a) (k : Nat) : a * 2 ≤ a * 2 ^ (k + 1) := by
  have hpow : (2 : Int) ^ 1 ≤ 2 ^ (k + 1) := pow_le_pow_right₀ (by decide) (by omega)
  exact Int.mul_le_mul_of_nonneg_left hpow ha

namespace Magnitude

variable {x y : Magnitude} {r : Rat}

/-! ## Quarters of the last place -/

/-- How many quarters of the last place lie between a double and its lower midpoint. -/
def quartersBelow (x : Magnitude) : Int :=
  if x.significand = Nat.pow 2 52 ∧ -1074 < x.exponent then 1 else 2

theorem zpow_exponent (x : Magnitude) : (2 : Rat) ^ x.exponent = 4 * 2 ^ (x.exponent - 2) := by
  have h : x.exponent = x.exponent - 2 + 2 := by omega
  nth_rewrite 1 [h]
  rw [Rat.zpow_add (by decide)]
  ring

theorem toRat_eq_quarters (x : Magnitude) :
    x.toRat = ((4 * x.significand : Int) : Rat) * 2 ^ (x.exponent - 2) := by
  rw [toRat, zpow_exponent]
  push_cast
  ring

theorem zpow_exponent_sub_one (x : Magnitude) :
    (2 : Rat) ^ (x.exponent - 1) = 2 * 2 ^ (x.exponent - 2) := by
  have h : x.exponent - 1 = x.exponent - 2 + 1 := by omega
  rw [h, Rat.zpow_add_one (by decide)]
  ring

theorem low_eq_quarters (x : Magnitude) :
    x.low = ((4 * x.significand - x.quartersBelow : Int) : Rat) * 2 ^ (x.exponent - 2) := by
  unfold low quartersBelow
  rw [toRat_eq_quarters, zpow_exponent_sub_one]
  split
  all_goals
    push_cast
    ring

theorem high_eq_quarters (x : Magnitude) :
    x.high = ((4 * x.significand + 2 : Int) : Rat) * 2 ^ (x.exponent - 2) := by
  rw [high, toRat_eq_quarters, zpow_exponent_sub_one]
  push_cast
  ring

/-! ## Two doubles -/

/-- A smaller double has no larger exponent: with one, its leading bit alone would be larger. -/
theorem exponent_le_of_toRat_lt (h : x.toRat < y.toRat) : x.exponent ≤ y.exponent := by
  by_contra hlt
  obtain ⟨k, hk⟩ : ∃ k : Nat, x.exponent = y.exponent + (k + 1 : Nat) :=
    ⟨(x.exponent - y.exponent - 1).toNat, by omega⟩
  have hscale : (x.significand : Int) * 2 ^ (k + 1) < y.significand := by
    rw [← mul_zpow_lt_iff _ _ y.exponent, ← mul_zpow_add, ← hk]
    exact_mod_cast h
  have hgrow := mul_two_le_mul_pow_succ (Int.natCast_nonneg x.significand) k
  have hx := x.canonical
  have hy := y.canonical
  unfold IsCanonical at hx hy
  have hpow : Nat.pow 2 53 = 2 * Nat.pow 2 52 := by decide
  omega

/-- The upper midpoint of a smaller double is not above the lower midpoint of a larger one. If the
two are one, the doubles are neighbours, and one of the significands is odd. -/
theorem quarters_le_of_toRat_lt {k : Nat} (hk : y.exponent = x.exponent + k)
    (h : x.toRat < y.toRat) :
    4 * (x.significand : Int) + 2 ≤ (4 * y.significand - y.quartersBelow) * 2 ^ k ∧
      (4 * (x.significand : Int) + 2 = (4 * y.significand - y.quartersBelow) * 2 ^ k →
        x.significand % 2 = 1 ∨ y.significand % 2 = 1) := by
  have hx := x.canonical
  have hy := y.canonical
  unfold IsCanonical at hx hy
  have hpow : Nat.pow 2 53 = 2 * Nat.pow 2 52 := by decide
  have hlt : (x.significand : Int) < y.significand * 2 ^ k := by
    rw [← mul_zpow_lt_iff _ _ x.exponent, ← mul_zpow_add, ← hk]
    exact_mod_cast h
  unfold quartersBelow
  cases k with
  | zero =>
    rw [Int.pow_zero] at hlt ⊢
    split <;> omega
  | succ k =>
    -- The larger exponent makes the larger significand count twice, so only its leading bit
    -- alone lets the midpoints touch, and the smaller one is then all ones.
    split
    · have := mul_two_le_mul_pow_succ (by omega : 0 ≤ 4 * (y.significand : Int) - 1) k
      omega
    · have := mul_two_le_mul_pow_succ (by omega : 0 ≤ 4 * (y.significand : Int) - 2) k
      omega

/-! ## Numbers that read back -/

/-- What reads back lies between the midpoints, strictly so if the significand is odd. -/
theorem bounds_of_readsBack (h : x.readsBack r = true) :
    x.low ≤ r ∧ r ≤ x.high ∧ (x.significand % 2 = 1 → x.low < r ∧ r < x.high) := by
  unfold readsBack at h
  split at h
  · rw [Bool.and_eq_true, decide_eq_true_eq, decide_eq_true_eq] at h
    exact ⟨h.1, h.2, fun hodd => by omega⟩
  · rw [Bool.and_eq_true, decide_eq_true_eq, decide_eq_true_eq] at h
    exact ⟨h.1.le, h.2.le, fun _ => h⟩

/-- No number reads back as two doubles. -/
theorem not_readsBack_of_toRat_lt (h : x.toRat < y.toRat) (hx : x.readsBack r = true) :
    ¬ y.readsBack r = true := by
  intro hy
  obtain ⟨k, hk⟩ := Int.le.dest (exponent_le_of_toRat_lt h)
  obtain ⟨hle, heq⟩ := quarters_le_of_toRat_lt hk.symm h
  obtain ⟨-, hhigh, hodd⟩ := bounds_of_readsBack hx
  obtain ⟨hlow, -, hodd'⟩ := bounds_of_readsBack hy
  have hlow_eq : y.low = ((4 * y.significand - y.quartersBelow) * 2 ^ k : Int) *
      (2 : Rat) ^ (x.exponent - 2) := by
    rw [low_eq_quarters, ← hk, show x.exponent + k - 2 = x.exponent - 2 + k by omega,
      mul_zpow_add]
  have hmeet : 4 * (x.significand : Int) + 2 = (4 * y.significand - y.quartersBelow) * 2 ^ k := by
    apply Int.le_antisymm hle
    rw [← mul_zpow_le_iff _ _ (x.exponent - 2), ← hlow_eq, ← high_eq_quarters]
    exact hlow.trans hhigh
  have hends : x.high = y.low := by rw [high_eq_quarters, hlow_eq, hmeet]
  rcases heq hmeet with hx | hy
  · have := (hodd hx).2
    linarith
  · have := (hodd' hy).1
    linarith

/-- A number reads back as one double only. -/
theorem eq_of_readsBack (hx : x.readsBack r = true) (hy : y.readsBack r = true) : x = y := by
  apply toRat_injective
  rcases lt_trichotomy x.toRat y.toRat with h | h | h
  · exact absurd hy (not_readsBack_of_toRat_lt h hx)
  · exact h
  · exact absurd hx (not_readsBack_of_toRat_lt h hy)

/-! ## The shortest decimal -/

theorem readsBack_toRat (x : Magnitude) : x.readsBack x.toRat = true := by
  have hlow : x.low < x.toRat := by
    rw [low_eq_quarters, toRat_eq_quarters, mul_zpow_lt_iff]
    unfold quartersBelow
    split <;> omega
  have hhigh : x.toRat < x.high := by
    rw [high_eq_quarters, toRat_eq_quarters, mul_zpow_lt_iff]
    omega
  unfold readsBack
  split
  · simp [hlow.le, hhigh.le]
  · simp [hlow, hhigh]

/-- The exact decimal of a double has its value. -/
theorem toRat_exact (x : Magnitude) : x.exact.toRat = x.toRat := by
  unfold exact toRat
  split
  case isTrue h =>
    obtain ⟨n, hn⟩ := Int.eq_ofNat_of_zero_le h
    have htwo : ((Nat.pow 2 n : Nat) : Rat) = 2 ^ n := Nat.cast_pow 2 n
    rw [Decimal.toRat_zero_exponent, hn, Int.toNat_natCast, Rat.zpow_natCast, Nat.cast_mul, htwo]
  case isFalse h =>
    obtain ⟨n, hn⟩ : ∃ n : Nat, x.exponent = -(n : Int) := ⟨(-x.exponent).toNat, by omega⟩
    rw [Decimal.toRat, hn, Int.neg_neg, Int.toNat_natCast]
    have hfive : ((Nat.pow 5 n : Nat) : Rat) = 5 ^ n := Nat.cast_pow 5 n
    have hten : (10 : Rat) ^ n = 5 ^ n * 2 ^ n := by rw [← mul_pow]; norm_num
    have hne : (5 : Rat) ^ n ≠ 0 := pow_ne_zero n (by norm_num)
    rw [Rat.zpow_neg, Rat.zpow_neg, Rat.zpow_natCast, Rat.zpow_natCast, Nat.cast_mul, hfive, hten,
      mul_inv, mul_assoc, mul_inv_cancel_left₀ hne]

/-- The shortest decimal of a double reads back as the double. -/
theorem readsBack_shortest (x : Magnitude) : x.readsBack x.shortest.toRat = true := by
  unfold shortest
  split
  case isTrue h =>
    have hzero : x.toRat = 0 := by rw [toRat, h]; simp
    have hread := x.readsBack_toRat
    rw [hzero] at hread
    simpa using hread
  case isFalse =>
    cases hgrids : (List.range 17).findSome? fun n : Nat =>
        x.onGrid? (leadingPower x.toRat - n) with
    | none =>
      simp only [hgrids, Option.getD_none, toRat_exact]
      exact x.readsBack_toRat
    | some d =>
      obtain ⟨n, -, hn⟩ := List.exists_of_findSome?_eq_some hgrids
      simp only [hgrids, Option.getD_some]
      exact readsBack_of_onGrid? hn

/-- Doubles with shortest decimals of one value have one magnitude. -/
theorem eq_of_shortest_toRat_eq (h : x.shortest.toRat = y.shortest.toRat) : x = y := by
  have hx := x.readsBack_shortest
  rw [h] at hx
  exact eq_of_readsBack hx y.readsBack_shortest

end Magnitude

end Stylesheet.Number
