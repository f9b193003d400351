import Mathlib.Algebra.Order.Field.Power
import Mathlib.Data.Rat.Cast.Order
import Mathlib.Tactic.FieldSimp
import Mathlib.Tactic.Linarith
import Mathlib.Tactic.NormNum
import Mathlib.Tactic.Positivity
import Mathlib.Tactic.Ring
import PayloadAtlas.Proofs.Decimal.Shortest

/-!
# Laws of rounding

A fraction below `2 ^ 1024 - 2 ^ 970` is rounded to a double (`Double.isSome_ofFraction?`), and what comes of
rounding is finite (`Double.isFinite_of_ofFraction?`): it has 53 digits at most.
-/

namespace PayloadAtlas.Double

open Decimal (twoTo_pos tenTo_pos)

/-- A finite double has a mantissa of 53 digits at most, and an exponent within bounds. -/
structure IsFinite (x : Double) : Prop where
  mantissa_lt : x.mantissa < 2 ^ 53
  le_exponent : minExponent ≤ x.exponent
  exponent_le : x.exponent ≤ maxExponent

theorem isFinite_zero (negative : Bool) : (zero negative).IsFinite where
  mantissa_lt := Nat.pow_pos (by decide)
  le_exponent := Int.le_refl minExponent
  exponent_le := show minExponent ≤ maxExponent by decide

/-- The least number that is too large to be rounded to a double. -/
def tooLarge : Nat := (2 ^ 54 - 1) * 2 ^ 970

/-! ## Powers -/

/-- A power with a natural exponent by those with `e` and `-e`, one of which is `1`. -/
theorem pow_toNat_eq {b : ℚ} (hb : b ≠ 0) (e : Int) : b ^ e.toNat = b ^ e * b ^ (-e).toNat := by
  rw [← zpow_natCast, ← zpow_natCast, ← zpow_add₀ hb]
  congr 1
  omega

/-- The natural number `twoTo e` by the rational power, whatever the sign of `e`. -/
theorem cast_twoTo (e : Int) : (twoTo e : ℚ) = 2 ^ e * twoTo (-e) := by
  simpa [twoTo] using pow_toNat_eq (b := 2) (by norm_num) e

theorem cast_tenTo (k : Int) : (tenTo k : ℚ) = 10 ^ k * tenTo (-k) := by
  simpa [tenTo] using pow_toNat_eq (b := 10) (by norm_num) k

theorem cast_leastFull : (leastFull : ℚ) = 2 ^ (52 : Int) := by
  norm_num [leastFull]

/-- Comparing `a` with `b * 2 ^ e` by way of natural numbers. -/
theorem mul_twoTo_lt_iff {a b : Nat} {e : Int} :
    a * twoTo (-e) < b * twoTo e ↔ (a : ℚ) < b * 2 ^ e := by
  have hpos : (0 : ℚ) < twoTo (-e) := by exact_mod_cast twoTo_pos (-e)
  rw [← Nat.cast_lt (α := ℚ), Nat.cast_mul, Nat.cast_mul, cast_twoTo e, ← mul_assoc]
  exact mul_lt_mul_iff_left₀ hpos

/-! ## The steps of rounding -/

/-- Rounding to the nearest adds half a unit at most. -/
theorem roundDiv_le {den : Nat} (hden : 0 < den) (num : Nat) : 2 * den * roundDiv num den ≤ 2 * num + den := by
  have hsplit := Nat.div_add_mod num den
  have hmod := Nat.mod_lt num hden
  rw [roundDiv]
  generalize num / den = q at hsplit ⊢
  generalize num % den = r at hsplit hmod ⊢
  have hlow : 2 * den * q + 2 * r = 2 * num := by
    rw [← hsplit]
    ring
  have hhigh : 2 * den * (q + 1) = 2 * den * q + 2 * den := by ring
  split_ifs <;> omega

variable {num den : Nat}

/-- The mantissa of `num / den` at the exponent `e` lies half a unit above the fraction at most. -/
theorem mantissaAt_le (num : Nat) (hden : 0 < den) (e : Int) :
    (2 * (mantissaAt num den e : ℚ) - 1) * (den * 2 ^ e) ≤ 2 * num := by
  have hle := roundDiv_le (Nat.mul_pos hden (twoTo_pos e)) (num * twoTo (-e))
  rw [← mantissaAt] at hle
  have hcast : 2 * ((den : ℚ) * twoTo e) * mantissaAt num den e ≤ 2 * (num * twoTo (-e)) + den * twoTo e := by
    exact_mod_cast hle
  have hpos : (0 : ℚ) < twoTo (-e) := by exact_mod_cast twoTo_pos (-e)
  rw [cast_twoTo e] at hcast
  refine le_of_mul_le_mul_right ?_ hpos
  linarith only [hcast]

/-- With `fullExponent` as exponent the fraction has a mantissa of 53 digits: from `2 ^ 52` up to `2 ^ 53`. -/
theorem fullExponent_bounds (hnum : num ≠ 0) (hden : 0 < den) :
    (den : ℚ) * 2 ^ (fullExponent num den + 52) ≤ num ∧
      (num : ℚ) < den * 2 ^ (fullExponent num den + 53) := by
  have hnumLow : (2 : ℚ) ^ (num.log2 : Int) ≤ num := by exact_mod_cast Nat.log2_self_le hnum
  have hnumHigh : (num : ℚ) < 2 ^ (num.log2 + 1 : Int) := by exact_mod_cast Nat.lt_log2_self (n := num)
  have hdenLow : (2 : ℚ) ^ (den.log2 : Int) ≤ den := by exact_mod_cast Nat.log2_self_le hden.ne'
  have hdenHigh : (den : ℚ) < 2 ^ (den.log2 + 1 : Int) := by exact_mod_cast Nat.lt_log2_self (n := den)
  have htest {e : Int} : num * twoTo (-e) < den * twoTo e * leastFull ↔ (num : ℚ) < den * 2 ^ (e + 52) := by
    rw [Nat.mul_right_comm, mul_twoTo_lt_iff, Nat.cast_mul, cast_leastFull, mul_assoc,
      ← zpow_add₀ (by norm_num), Int.add_comm]
  have hadd (a b : Int) : (2 : ℚ) ^ a * 2 ^ b = 2 ^ (a + b) := (zpow_add₀ (by norm_num) a b).symm
  -- the lengths of both numbers give the exponent, or one that is too great by one
  rw [fullExponent]
  generalize (num.log2 : Int) = a at *
  generalize (den.log2 : Int) = b at *
  split
  · next hless =>
    constructor
    · calc (den : ℚ) * 2 ^ (a - b - 52 - 1 + 52) ≤ 2 ^ (b + 1) * 2 ^ (a - b - 52 - 1 + 52) := by gcongr
        _ = 2 ^ a := by rw [hadd]; congr 1; omega
        _ ≤ num := hnumLow
    · calc (num : ℚ) < den * 2 ^ (a - b - 52 + 52) := htest.mp hless
        _ = den * 2 ^ (a - b - 52 - 1 + 53) := by congr 2; omega
  · next hless =>
    constructor
    · exact not_lt.mp (mt htest.mpr hless)
    · calc (num : ℚ) < 2 ^ (a + 1) := hnumHigh
        _ = 2 ^ b * 2 ^ (a - b - 52 + 53) := by rw [hadd]; congr 1; omega
        _ ≤ den * 2 ^ (a - b - 52 + 53) := by gcongr

/-- The exponent that `num / den` is rounded with: never below `minExponent`. -/
def exponentOf (num den : Nat) : Int := max minExponent (fullExponent num den)

theorem ofFraction?_of_ne_zero (negative : Bool) (hnum : num ≠ 0) :
    ofFraction? negative num den =
      ofMantissa? negative (mantissaAt num den (exponentOf num den)) (exponentOf num den) :=
  if_neg hnum

section Mantissa

variable {negative : Bool} {m : Nat} {e : Int} {x : Double}

/-- A mantissa that was rounded up to `2 ^ 53` is halved, and its exponent is one greater. -/
theorem ofMantissa?_full : ofMantissa? negative (2 * leastFull) e =
    if maxExponent < e + 1 then none else some ⟨negative, leastFull, e + 1⟩ := by
  have hfull : leastFull ≠ 0 := (Nat.pow_pos (by decide)).ne'
  rw [ofMantissa?, if_pos rfl]
  exact if_neg hfull

theorem ofMantissa?_of_ne (hm : m ≠ 2 * leastFull) : ofMantissa? negative m e =
    if m = 0 then some (zero negative) else if maxExponent < e then none else some ⟨negative, m, e⟩ := by
  rw [ofMantissa?, if_neg hm]

/-- A mantissa makes a double if its exponent, after halving too, is at most `maxExponent`. -/
theorem isSome_ofMantissa? (he : e ≤ maxExponent) (hround : m = 2 * leastFull → e + 1 ≤ maxExponent) :
    (ofMantissa? negative m e).isSome := by
  by_cases hm : m = 2 * leastFull
  · rw [hm, ofMantissa?_full, if_neg (not_lt.mpr (hround hm))]
    rfl
  · rw [ofMantissa?_of_ne hm, if_neg (not_lt.mpr he)]
    split <;> rfl

/-- What `ofMantissa?` makes has at most 53 digits and an exponent within the bounds. -/
theorem isFinite_of_ofMantissa? (hm : m ≤ 2 * leastFull) (he : minExponent ≤ e)
    (h : ofMantissa? negative m e = some x) : x.IsFinite := by
  have hfull : leastFull = 2 ^ 52 := rfl
  by_cases hround : m = 2 * leastFull
  · rw [hround, ofMantissa?_full] at h
    split_ifs at h with hlarge
    cases h
    exact ⟨show leastFull < 2 ^ 53 by omega, show minExponent ≤ e + 1 by omega, not_lt.mp hlarge⟩
  · rw [ofMantissa?_of_ne hround] at h
    split_ifs at h with hzero hlarge
    · cases h
      exact isFinite_zero negative
    · cases h
      exact ⟨show m < 2 ^ 53 by omega, he, not_lt.mp hlarge⟩

/-- The absolute value of a double. -/
def value (x : Double) : ℚ := x.mantissa * 2 ^ x.exponent

theorem value_zero (negative : Bool) : (zero negative).value = 0 := by
  show ((0 : Nat) : ℚ) * 2 ^ minExponent = 0
  rw [Nat.cast_zero, zero_mul]

/-- The double that `ofMantissa?` makes has the value `m * 2 ^ e`; halving the mantissa does not change it. -/
theorem value_of_ofMantissa? (h : ofMantissa? negative m e = some x) : x.value = m * 2 ^ e := by
  by_cases hround : m = 2 * leastFull
  · subst hround
    rw [ofMantissa?_full] at h
    split_ifs at h
    cases h
    show (leastFull : ℚ) * 2 ^ (e + 1) = _
    rw [zpow_add₀ (by norm_num), zpow_one]
    push_cast
    ring
  · rw [ofMantissa?_of_ne hround] at h
    split_ifs at h with hzero
    · cases h
      rw [hzero]
      simp [value, zero]
    · cases h
      rfl

end Mantissa

/-! ## Fractions -/

/-- Rounding at `exponentOf` makes a mantissa of 53 digits, or the least one of 54. -/
theorem mantissaAt_exponentOf_le (hnum : num ≠ 0) (hden : 0 < den) :
    mantissaAt num den (exponentOf num den) ≤ 2 * leastFull := by
  have hle := mantissaAt_le num hden (exponentOf num den)
  have hlt : (num : ℚ) < den * 2 ^ exponentOf num den * 2 ^ 53 := by
    calc (num : ℚ) < den * 2 ^ (fullExponent num den + 53) := (fullExponent_bounds hnum hden).2
      _ ≤ den * 2 ^ (exponentOf num den + 53) := by
        gcongr
        · norm_num
        · exact Int.le_max_right _ _
      _ = den * 2 ^ exponentOf num den * 2 ^ 53 := by
        rw [zpow_add₀ (by norm_num), mul_assoc]
        norm_num
  have hpos : (0 : ℚ) < den * 2 ^ exponentOf num den := by positivity
  generalize mantissaAt num den (exponentOf num den) = m at hle ⊢
  generalize (den : ℚ) * 2 ^ exponentOf num den = unit at *
  -- the mantissa is half a unit too great at most, and it is an integer
  have hlt' : (2 * (m : ℚ) - 1) * unit < 2 ^ 54 * unit := by linarith only [hle, hlt]
  have hm : (2 * (m : ℚ) - 1) < 2 ^ 54 := lt_of_mul_lt_mul_right hlt' hpos.le
  have hm' : 2 * m < 2 ^ 54 + 1 := by exact_mod_cast (by linarith only [hm] : (2 * (m : ℚ)) < 2 ^ 54 + 1)
  have hfull : leastFull = 2 ^ 52 := rfl
  omega

/-- What comes of rounding `num / den` is finite. -/
theorem isFinite_of_ofFraction? {negative : Bool} (hden : 0 < den) {x : Double}
    (h : ofFraction? negative num den = some x) : x.IsFinite := by
  by_cases hnum : num = 0
  · rw [ofFraction?, if_pos hnum] at h
    cases h
    exact isFinite_zero negative
  · rw [ofFraction?_of_ne_zero negative hnum] at h
    exact isFinite_of_ofMantissa? (mantissaAt_exponentOf_le hnum hden) (Int.le_max_left _ _) h

theorem cast_tooLarge : (tooLarge : ℚ) = (2 ^ 54 - 1) * 2 ^ (970 : Int) := by
  rw [tooLarge, Nat.cast_mul, Nat.cast_pow, show (970 : Int) = (970 : Nat) from rfl, zpow_natCast]
  norm_num

/-- Below `tooLarge` no fraction has an exponent larger than that of doubles. -/
theorem exponentOf_le_of_lt (hnum : num ≠ 0) (hden : 0 < den)
    (h : (num : ℚ) < (2 ^ 54 - 1) * 2 ^ (970 : Int) * den) : exponentOf num den ≤ maxExponent := by
  by_contra hnot
  have hpos : (0 : ℚ) < 2 ^ (970 : Int) * den := by positivity
  have hfull : 972 ≤ fullExponent num den := by
    rw [exponentOf, maxExponent, minExponent] at hnot
    omega
  have hle : (den : ℚ) * (2 ^ 54 * 2 ^ (970 : Int)) ≤ num := by
    calc (den : ℚ) * (2 ^ 54 * 2 ^ (970 : Int)) = den * 2 ^ (972 + 52 : Int) := by
          rw [show (972 + 52 : Int) = (54 : Nat) + 970 from rfl, zpow_add₀ (by norm_num), zpow_natCast]
      _ ≤ den * 2 ^ (fullExponent num den + 52) := by
        gcongr
        norm_num
      _ ≤ num := (fullExponent_bounds hnum hden).1
  linarith only [h, hle, hpos]

/-- A fraction below `tooLarge` is rounded to a double. -/
theorem isSome_ofFraction? (negative : Bool) (hden : 0 < den) (h : num < tooLarge * den) :
    (ofFraction? negative num den).isSome := by
  by_cases hnum : num = 0
  · rw [ofFraction?, if_pos hnum]
    rfl
  have hlt : (num : ℚ) < (2 ^ 54 - 1) * 2 ^ (970 : Int) * den := by
    rw [← cast_tooLarge]
    exact_mod_cast h
  have hbound := exponentOf_le_of_lt hnum hden hlt
  rw [ofFraction?_of_ne_zero negative hnum]
  apply isSome_ofMantissa? hbound
  -- a fraction whose mantissa is rounded up at the greatest exponent is too large as well
  intro hm
  by_contra hnot
  have hexponent : exponentOf num den = 971 := by
    rw [maxExponent] at *
    omega
  have hle := mantissaAt_le num hden (exponentOf num den)
  have hdouble : (2 : ℚ) ^ (971 : Int) = 2 ^ (970 : Int) * 2 := zpow_add_one₀ (by norm_num) 970
  rw [hm, hexponent, Nat.cast_mul, cast_leastFull, hdouble] at hle
  norm_num only [] at hle
  linarith only [hle, hlt]

/-! ## Products and quotients -/

section Operations

variable {x y z : Double}

theorem fraction_pos (x : Double) : 0 < x.fraction.2 := twoTo_pos _

/-- The value of `x` is that of its `fraction`. -/
theorem value_mul (x : Double) : x.value * x.fraction.2 = x.fraction.1 := by
  show (x.mantissa : ℚ) * 2 ^ x.exponent * twoTo (-x.exponent) = ((x.mantissa * twoTo x.exponent : Nat) : ℚ)
  rw [Nat.cast_mul, cast_twoTo x.exponent, mul_assoc]

/-- A finite double lies below `tooLarge`. -/
theorem IsFinite.fraction_lt (hx : x.IsFinite) : x.fraction.1 < tooLarge * x.fraction.2 := by
  have hm : x.mantissa ≤ 2 ^ 53 - 1 := by
    have hlt := hx.mantissa_lt
    omega
  have hpow : twoTo x.exponent ≤ 2 ^ (970 + 1) := by
    apply Nat.pow_le_pow_right (by decide)
    have hle := hx.exponent_le
    rw [maxExponent] at hle
    omega
  have hunit : ∀ k : Nat, (2 ^ 53 - 1) * 2 ^ (k + 1) < (2 ^ 54 - 1) * 2 ^ k := by
    intro k
    have hpos := Nat.two_pow_pos k
    rw [Nat.pow_succ]
    omega
  calc x.mantissa * twoTo x.exponent ≤ (2 ^ 53 - 1) * 2 ^ (970 + 1) := Nat.mul_le_mul hm hpow
    _ < tooLarge := hunit 970
    _ ≤ tooLarge * x.fraction.2 := Nat.le_mul_of_pos_right _ (fraction_pos x)

theorem isFinite_of_ofNat? {n : Nat} (h : ofNat? n = some x) : x.IsFinite :=
  isFinite_of_ofFraction? Nat.one_pos h

theorem isFinite_of_mul? (h : x.mul? y = some z) : z.IsFinite :=
  isFinite_of_ofFraction? (Nat.mul_pos (fraction_pos x) (fraction_pos y)) h

/-- The double `y` is one or more. -/
def IsLarge (y : Double) : Prop := y.fraction.2 ≤ y.fraction.1

instance (y : Double) : Decidable y.IsLarge := inferInstanceAs (Decidable (_ ≤ _))

theorem isFinite_of_div? (hy : y.IsLarge) (h : x.div? y = some z) : z.IsFinite :=
  isFinite_of_ofFraction? (Nat.mul_pos (fraction_pos x) (Nat.lt_of_lt_of_le (fraction_pos y) hy)) h

/-- A product is rounded to a double if a `bound` of one factor is not too large with the other. -/
theorem isSome_mul? {bound : Nat} (hx : x.value ≤ bound) (hy : bound * y.fraction.1 < tooLarge * y.fraction.2) :
    (x.mul? y).isSome := by
  apply isSome_ofFraction? false (Nat.mul_pos (fraction_pos x) (fraction_pos y))
  have hle : x.fraction.1 ≤ bound * x.fraction.2 := by
    have hpos : (0 : ℚ) ≤ x.fraction.2 := Nat.cast_nonneg _
    have hmul := mul_le_mul_of_nonneg_right hx hpos
    rw [value_mul] at hmul
    exact_mod_cast hmul
  calc x.fraction.1 * y.fraction.1 ≤ bound * x.fraction.2 * y.fraction.1 := Nat.mul_le_mul_right _ hle
    _ = x.fraction.2 * (bound * y.fraction.1) := by ring
    _ < x.fraction.2 * (tooLarge * y.fraction.2) := Nat.mul_lt_mul_of_pos_left hy (fraction_pos x)
    _ = tooLarge * (x.fraction.2 * y.fraction.2) := by ring

theorem isSome_div? (hx : x.IsFinite) (hy : y.IsLarge) : (x.div? y).isSome := by
  have hpos : 0 < y.fraction.1 := Nat.lt_of_lt_of_le (fraction_pos y) hy
  apply isSome_ofFraction? false (Nat.mul_pos (fraction_pos x) hpos)
  calc x.fraction.1 * y.fraction.2 ≤ x.fraction.1 * y.fraction.1 := Nat.mul_le_mul_left _ hy
    _ < tooLarge * x.fraction.2 * y.fraction.1 := Nat.mul_lt_mul_of_pos_right hx.fraction_lt hpos
    _ = tooLarge * (x.fraction.2 * y.fraction.1) := by ring

end Operations

/-! ## Natural numbers -/

/-- The greatest double that a natural number up to `bound` is rounded to, a tie upwards. -/
def nearestTo (bound : Nat) : Nat :=
  let j := bound.log2 - 52
  (2 * bound + 2 ^ j) / 2 ^ (j + 1) * 2 ^ j

/-- What is nearest to `bound` has as many digits. -/
theorem le_nearestTo {bound : Nat} (h : 52 ≤ bound.log2) : 2 ^ bound.log2 ≤ nearestTo bound := by
  obtain ⟨j, hj⟩ : ∃ j, bound.log2 = 52 + j := ⟨bound.log2 - 52, by omega⟩
  have hbound : bound ≠ 0 := by
    rintro rfl
    simp at h
  have hlow := Nat.log2_self_le hbound
  rw [nearestTo, hj, Nat.add_sub_cancel_left, Nat.pow_add]
  rw [hj, Nat.pow_add] at hlow
  apply Nat.mul_le_mul_right
  rw [Nat.le_div_iff_mul_le (Nat.pow_pos (by decide)), Nat.pow_succ]
  omega

/-- A number of 53 digits at most, up to `bound`, stays below what is nearest to `bound`. -/
theorem le_nearestTo_of_lt {bound n : Nat} (hle : n ≤ bound) (hn : n < 2 ^ 53) : n ≤ nearestTo bound := by
  rcases Nat.lt_or_ge bound.log2 53 with hlog | hlog
  · have hj : bound.log2 - 52 = 0 := by omega
    rw [nearestTo, hj]
    omega
  · have hpow : 2 ^ 53 ≤ 2 ^ bound.log2 := Nat.pow_le_pow_right (by decide) hlog
    have hlow := le_nearestTo (by omega : 52 ≤ bound.log2)
    omega

theorem twoTo_of_nonpos {e : Int} (he : e ≤ 0) : twoTo e = 1 := by
  rw [twoTo, Int.toNat_of_nonpos he, Nat.pow_eq, pow_zero]

/-- Where no digit is cut off, the mantissa and the exponent are the natural number `n` itself. -/
theorem mantissaAt_of_nonpos {n : Nat} {e : Int} (he : e ≤ 0) : (mantissaAt n 1 e : ℚ) * 2 ^ e = n := by
  have hone : mantissaAt n 1 e = n * twoTo (-e) := by
    simp [mantissaAt, twoTo_of_nonpos he, roundDiv, Nat.mod_one]
  rw [hone, Nat.cast_mul, cast_twoTo (-e), Int.neg_neg, twoTo_of_nonpos he, Nat.cast_one, mul_one, mul_assoc,
    ← zpow_add₀ (by norm_num), Int.add_left_neg, zpow_zero, mul_one]

/-- Whatever is within half a unit `2 ^ e` of a number up to `bound` stays below what is nearest to `bound`. -/
theorem mul_two_pow_le_nearestTo {n bound m e : Nat} (hle : n ≤ bound) (hlow : 2 ^ (52 + e) ≤ n)
    (hm : m ≤ 2 * leastFull) (hround : 2 * m * 2 ^ e ≤ 2 * n + 2 ^ e) : m * 2 ^ e ≤ nearestTo bound := by
  have hfull : leastFull = 2 ^ 52 := rfl
  have hpos := Nat.two_pow_pos (52 + e)
  have hlog : 52 + e ≤ bound.log2 := (Nat.le_log2 (by omega)).mpr (hlow.trans hle)
  rcases Nat.eq_or_lt_of_le hlog with heq | hlt
  · -- the bound has as many digits as the number
    have hj : bound.log2 - 52 = e := by omega
    rw [nearestTo, hj]
    apply Nat.mul_le_mul_right
    rw [Nat.le_div_iff_mul_le (Nat.pow_pos (by decide)), Nat.pow_succ]
    have hcomm : m * (2 ^ e * 2) = 2 * m * 2 ^ e := by ring
    omega
  · have hbound := le_nearestTo (by omega : 52 ≤ bound.log2)
    have hpow : 2 ^ (53 + e) ≤ 2 ^ bound.log2 := Nat.pow_le_pow_right (by decide) (by omega)
    calc m * 2 ^ e ≤ 2 ^ 53 * 2 ^ e := Nat.mul_le_mul_right _ (by omega)
      _ = 2 ^ (53 + e) := (Nat.pow_add 2 53 e).symm
      _ ≤ nearestTo bound := hpow.trans hbound

/-- What a natural number up to `bound` is rounded to stays below what is nearest to `bound`. -/
theorem value_ofNat?_le {n bound : Nat} (hn : n ≠ 0) (hle : n ≤ bound) {x : Double} (h : ofNat? n = some x) :
    x.value ≤ nearestTo bound := by
  obtain ⟨hlow, hhigh⟩ := fullExponent_bounds hn Nat.one_pos
  rw [Nat.cast_one, one_mul] at hlow hhigh
  rw [ofNat?, ofFraction?_of_ne_zero false hn] at h
  rw [value_of_ofMantissa? h]
  rcases le_or_gt (exponentOf n 1) 0 with hexponent | hexponent
  · -- no digit is lost
    rw [mantissaAt_of_nonpos hexponent, Nat.cast_le]
    apply le_nearestTo_of_lt hle
    have hfull : fullExponent n 1 + 53 ≤ (53 : Nat) := by
      rw [exponentOf] at hexponent
      omega
    have hlt : (n : ℚ) < 2 ^ (53 : Nat) := by
      rw [← zpow_natCast]
      exact hhigh.trans_le (zpow_le_zpow_right₀ (by norm_num) hfull)
    exact_mod_cast hlt
  · -- some digits are cut off, and the rest is rounded
    have hmantissa := mantissaAt_exponentOf_le hn Nat.one_pos
    have hround := mantissaAt_le n Nat.one_pos (exponentOf n 1)
    obtain ⟨e, he⟩ : ∃ e : Nat, exponentOf n 1 = e := ⟨(exponentOf n 1).toNat, by omega⟩
    have hfull : fullExponent n 1 = e := by
      rw [exponentOf, minExponent] at he hexponent
      omega
    rw [hfull, Int.add_comm] at hlow
    rw [he] at hmantissa
    rw [he, zpow_natCast, Nat.cast_one, one_mul] at hround
    rw [he, zpow_natCast]
    have hround' : 2 * (mantissaAt n 1 e : ℚ) * 2 ^ e ≤ 2 * n + 2 ^ e := by linarith only [hround]
    exact_mod_cast mul_two_pow_le_nearestTo hle (by exact_mod_cast hlow) hmantissa (by exact_mod_cast hround')

/-! ## Significands and powers of ten -/

/-- The number that lies half a unit below the greatest double. -/
def halfBelow : Nat := (2 ^ 54 - 3) * 2 ^ 970

/-- The bound of the significands of 64 bits that stay below `halfBelow` with the `k`-th power of ten. -/
def significandBound (k : Nat) : Nat := min (halfBelow / tenTo k) (2 ^ 64 - 1)

/-- The powers of ten are not less than one, and their products with what significands are rounded to stay below
`tooLarge`. -/
theorem powerOfTen_bounds : ∀ k < 309, (powerOfTen k).IsLarge ∧
    nearestTo (significandBound k) * (powerOfTen k).fraction.1 < tooLarge * (powerOfTen k).fraction.2 := by
  decide +kernel

theorem halfBelow_lt : halfBelow < 10 ^ 309 := by decide +kernel

section Parts

variable {negative : Bool} {significand : Nat} {exponent : Int} {x y : Double} {fuel k : Nat}

theorem isLarge_powerOfTen (hk : k ≤ maxPower) : (powerOfTen k).IsLarge :=
  (powerOfTen_bounds k (by rw [maxPower] at hk; omega)).1

/-- Dividing by powers of ten, over and over, never makes a finite double too large. -/
theorem isSome_divideDown (hx : x.IsFinite) : (divideDown fuel x k).isSome := by
  induction fuel generalizing x k with
  | zero => rfl
  | succ fuel ih =>
    rw [divideDown]
    split_ifs with hk hzero
    · exact isSome_div? hx (isLarge_powerOfTen hk)
    · rfl
    · obtain ⟨y, hy⟩ := Option.isSome_iff_exists.mp (isSome_div? hx (isLarge_powerOfTen (Nat.le_refl maxPower)))
      rw [hy]
      exact ih (isFinite_of_div? (isLarge_powerOfTen (Nat.le_refl maxPower)) hy)

/-- What comes of dividing by powers of ten is finite. -/
theorem isFinite_of_divideDown (hx : x.IsFinite) (h : divideDown fuel x k = some y) : y.IsFinite := by
  induction fuel generalizing x k with
  | zero =>
    cases h
    exact hx
  | succ fuel ih =>
    rw [divideDown] at h
    split_ifs at h with hk hzero
    · exact isFinite_of_div? (isLarge_powerOfTen hk) h
    · cases h
      exact hx
    · obtain ⟨z, hz, hy⟩ := Option.bind_eq_some_iff.mp h
      exact ih (isFinite_of_div? (isLarge_powerOfTen (Nat.le_refl maxPower)) hz) hy

/-- What a significand, as the double `x`, and a power of ten make, without the sign. -/
def scale? (x : Double) (exponent : Int) : Option Double :=
  if 0 ≤ exponent then
    if exponent.toNat ≤ maxPower then x.mul? (powerOfTen exponent.toNat)
    else if x.mantissa = 0 then some x else none
  else divideDown 8 x (-exponent).toNat

/-- A double is made of its parts by rounding the significand and scaling it with `scale?`; the sign comes last. -/
theorem ofParts?_eq : ofParts? negative significand exponent =
    (ofNat? significand).bind fun x => (scale? x exponent).map fun y => { y with negative } := by
  rw [ofParts?]
  cases ofNat? significand with
  | none => rfl
  | some x =>
    simp only [bind, Option.bind, scale?]
    split_ifs
    · cases x.mul? (powerOfTen exponent.toNat) <;> rfl
    · rfl
    · rfl
    · cases divideDown 8 x (-exponent).toNat <;> rfl

/-- What `ofParts?` makes is finite. -/
theorem isFinite_of_ofParts? (h : ofParts? negative significand exponent = some y) : y.IsFinite := by
  rw [ofParts?_eq] at h
  obtain ⟨x, hx, h⟩ := Option.bind_eq_some_iff.mp h
  obtain ⟨z, hz, rfl⟩ := Option.map_eq_some_iff.mp h
  have hfinite := isFinite_of_ofNat? hx
  have hz' : z.IsFinite := by
    rw [scale?] at hz
    split_ifs at hz
    · exact isFinite_of_mul? hz
    · cases hz
      exact hfinite
    · exact isFinite_of_divideDown hfinite hz
  exact ⟨hz'.mantissa_lt, hz'.le_exponent, hz'.exponent_le⟩

/-- A significand of 64 bits is rounded to a double. -/
theorem isSome_ofNat? (hlt : significand < 2 ^ 64) : (ofNat? significand).isSome := by
  have hpow : ∀ k, 64 ≤ k → significand < (2 ^ 54 - 1) * 2 ^ k := by
    intro k hk
    have hle : 2 ^ 64 ≤ 2 ^ k := Nat.pow_le_pow_right (by decide) hk
    omega
  apply isSome_ofFraction? false Nat.one_pos
  rw [Nat.mul_one, tooLarge]
  exact hpow 970 (by decide)

/-- A significand that stays below `halfBelow` with its power of ten is within `significandBound`. -/
theorem le_significandBound (hlt : significand < 2 ^ 64) (hle : (significand : ℚ) * 10 ^ exponent ≤ halfBelow) :
    significand ≤ significandBound exponent.toNat := by
  apply Nat.le_min.mpr
  refine ⟨?_, by omega⟩
  rw [Nat.le_div_iff_mul_le (tenTo_pos _), tenTo, Int.toNat_natCast, Nat.pow_eq]
  rcases le_or_gt 0 exponent with hsign | hsign
  · obtain ⟨k, rfl⟩ := Int.eq_ofNat_of_zero_le hsign
    exact_mod_cast hle
  · rw [Int.toNat_of_nonpos hsign.le, pow_zero, Nat.mul_one]
    have hpow : ∀ k, 64 ≤ k → significand ≤ (2 ^ 54 - 3) * 2 ^ k := by
      intro k hk
      have hle : 2 ^ 64 ≤ 2 ^ k := Nat.pow_le_pow_right (by decide) hk
      omega
    exact hpow 970 (by decide)

/-- Only zero has a power of ten that is beyond all doubles: everything else would be above `halfBelow`. -/
theorem eq_zero_of_maxPower_lt (hexponent : (maxPower : Int) < exponent)
    (hle : (significand : ℚ) * 10 ^ exponent ≤ halfBelow) : significand = 0 := by
  by_contra hne
  have hone : (1 : ℚ) ≤ significand := by exact_mod_cast Nat.one_le_iff_ne_zero.mpr hne
  have hpow : (10 : ℚ) ^ (309 : Nat) ≤ 10 ^ exponent := by
    rw [← zpow_natCast]
    exact zpow_le_zpow_right₀ (by norm_num) (by rw [maxPower] at hexponent; omega)
  have hlarge : (halfBelow : ℚ) < 10 ^ (309 : Nat) := by exact_mod_cast halfBelow_lt
  have hmul : (10 : ℚ) ^ exponent ≤ significand * 10 ^ exponent := le_mul_of_one_le_left (by positivity) hone
  exact absurd (hmul.trans hle) (not_le.mpr (hlarge.trans_le hpow))

/-- Parts make a double if they are not greater than `halfBelow`. -/
theorem isSome_ofParts? (hlt : significand < 2 ^ 64) (hle : (significand : ℚ) * 10 ^ exponent ≤ halfBelow) :
    (ofParts? negative significand exponent).isSome := by
  obtain ⟨x, hx⟩ := Option.isSome_iff_exists.mp (isSome_ofNat? hlt)
  have hvalue : x.value ≤ nearestTo (significandBound exponent.toNat) := by
    by_cases hzero : significand = 0
    · subst hzero
      cases hx
      rw [value_zero]
      exact Nat.cast_nonneg _
    · exact value_ofNat?_le hzero (le_significandBound hlt hle) hx
  have hscale : (scale? x exponent).isSome := by
    rw [scale?]
    split_ifs with hsign hpower hzero
    · exact isSome_mul? hvalue (powerOfTen_bounds _ (by rw [maxPower] at hpower; omega)).2
    · rfl
    · have hnone : significand = 0 := eq_zero_of_maxPower_lt (by omega) hle
      subst hnone
      cases hx
      exact absurd rfl hzero
    · exact isSome_divideDown (isFinite_of_ofNat? hx)
  rw [ofParts?_eq, hx, Option.bind_some, Option.isSome_map]
  exact hscale

end Parts

end PayloadAtlas.Double
