import PayloadAtlas.Proofs.Decimal.Rounding

/-!
# Values of decimals

The shortest decimal of a double lies half a unit above it at most (`value_shortest_le`). So it stays half a
unit below the greatest double for every other one (`value_shortest_le_halfBelow`).
-/

namespace PayloadAtlas

/-- The greatest double, or its negation. -/
def Double.IsGreatest (x : Double) : Prop := x.mantissa = 2 ^ 53 - 1 ∧ x.exponent = maxExponent

namespace Decimal

open Double (tenTo twoTo cast_tenTo cast_twoTo halfBelow maxExponent)

/-- The number `digits · 10 ^ exponent` that a decimal is. -/
def value (d : Decimal) : ℚ := d.digits * 10 ^ d.exponent

/-- The comparison of `a * 10 ^ k` with `b * 2 ^ e` is right about the rational numbers. -/
theorem le_of_compareScaled {a b : Nat} {k e : Int} (h : compareScaled a k b e ≠ .gt) :
    (a : ℚ) * 10 ^ k ≤ b * 2 ^ e := by
  have hle : (a : ℚ) * tenTo k * twoTo (-e) ≤ b * twoTo e * tenTo (-k) := by
    exact_mod_cast Nat.compare_ne_gt.mp h
  have hten : (0 : ℚ) < tenTo (-k) := by exact_mod_cast tenTo_pos (-k)
  have htwo : (0 : ℚ) < twoTo (-e) := by exact_mod_cast twoTo_pos (-e)
  rw [cast_tenTo k, cast_twoTo e] at hle
  refine le_of_mul_le_mul_right ?_ (mul_pos hten htwo)
  linarith only [hle]

theorem value_le_of_contains {i : Around} {d : Decimal} (h : i.contains d = true) :
    d.value ≤ i.high * 2 ^ i.exponent := by
  apply le_of_compareScaled
  rw [Around.contains] at h
  split at h <;> intro hgt <;> simp [hgt] at h

/-- Zeros that `strip` takes off the digits go into the exponent, so that the value stays the same. -/
theorem value_strip {fuel : Nat} {d : Decimal} : (strip fuel d).value = d.value := by
  induction fuel generalizing d with
  | zero => rfl
  | succ fuel ih =>
    rw [strip]
    split
    · next h =>
      have hdigits : d.digits = d.digits / 10 * 10 := by omega
      rw [ih, value, value, hdigits, Nat.mul_div_cancel _ (by decide), zpow_add_one₀ (by norm_num)]
      push_cast
      ring
    · rfl

/-- A `shortest` decimal lies half a unit above its double at most. -/
theorem value_shortest_le (x : Double) :
    (shortest x).value ≤ (4 * x.mantissa + 2 : Nat) * 2 ^ (x.exponent - 2) := by
  have hpos : (0 : ℚ) ≤ (4 * x.mantissa + 2 : Nat) * 2 ^ (x.exponent - 2) := by positivity
  have hzero : value ⟨0, 0⟩ = 0 := by simp [value]
  rw [shortest]
  split
  · rwa [hzero]
  · rw [value_strip]
    cases hs : search (Around.ofDouble x) 400 (powerAbove x) with
    | none => rwa [Option.getD_none, hzero]
    | some d =>
      have hle := value_le_of_contains (contains_of_search hs)
      exact hle

/-- An eighth of the unit of the greatest double. It is kept as a variable, for it is far too large to be
computed with. -/
theorem exists_unit : ∃ unit : ℚ, 0 < unit ∧ unit = 2 ^ (maxExponent - 3) ∧
    (halfBelow : ℚ) = (2 ^ 56 - 12) * unit := by
  refine ⟨2 ^ (maxExponent - 3), by positivity, rfl, ?_⟩
  have hpow : ((2 ^ 970 : Nat) : ℚ) = 2 ^ (maxExponent - 3) * 4 := by
    rw [Nat.cast_pow, ← zpow_natCast, show ((970 : Nat) : Int) = maxExponent - 3 + 2 from rfl, zpow_add₀ (by norm_num)]
    norm_num only
  rw [halfBelow, Nat.cast_mul, hpow]
  generalize (2 : ℚ) ^ (maxExponent - 3) = unit
  push_cast
  ring

/-- The shortest decimal of every double but the greatest stays below `halfBelow`, so that reading it back cannot
overflow. -/
theorem value_shortest_le_halfBelow {x : Double} (hx : x.IsFinite) (hmax : ¬x.IsGreatest) :
    (shortest x).value ≤ halfBelow := by
  have hnonneg : (0 : ℚ) ≤ 4 * x.mantissa + 2 := by positivity
  obtain ⟨unit, hpos, hunit, hbound⟩ := exists_unit
  have hm : (x.mantissa : ℚ) + 1 ≤ 2 ^ 53 := by exact_mod_cast hx.mantissa_lt
  refine (value_shortest_le x).trans ?_
  rw [hbound]
  push_cast
  -- below the greatest exponent the bound leaves room for any mantissa
  rcases Int.lt_or_eq_of_le hx.exponent_le with he | he
  · have hpow : (2 : ℚ) ^ (x.exponent - 2) ≤ unit := by
      rw [hunit]
      exact zpow_le_zpow_right₀ (by norm_num) (by omega)
    calc (4 * x.mantissa + 2 : ℚ) * 2 ^ (x.exponent - 2) ≤ (4 * x.mantissa + 2) * unit :=
          mul_le_mul_of_nonneg_left hpow hnonneg
      _ ≤ (2 ^ 56 - 12) * unit := by
        gcongr
        linarith only [hm]
  · -- the greatest mantissa is left out here
    have hm' : (x.mantissa : ℚ) + 2 ≤ 2 ^ 53 := by
      have hne : x.mantissa ≠ 2 ^ 53 - 1 := fun h => hmax ⟨h, he⟩
      have hlt := hx.mantissa_lt
      exact_mod_cast (by omega : x.mantissa + 2 ≤ 2 ^ 53)
    have hpow : (2 : ℚ) ^ (x.exponent - 2) = 2 * unit := by
      rw [he, hunit, ← zpow_one_add₀ (by norm_num)]
      congr 1
    rw [hpow, ← mul_assoc]
    gcongr
    linarith only [hm']

theorem length_toString {n k : Nat} (hlow : 10 ^ k ≤ n) (hhigh : n < 10 ^ (k + 1)) : (toString n).length = k + 1 := by
  have hdigits : (toString n).length = (Nat.toDigits 10 n).length := by
    rw [← String.length_toList, Nat.toString_eq_ofList_toDigits, String.toList_ofList]
  have hle : (Nat.toDigits 10 n).length ≤ k + 1 := (Nat.length_toDigits_le_iff (by decide) (by omega)).mpr hhigh
  have hpos : 0 < (Nat.toDigits 10 n).length := Nat.length_toDigits_pos
  rw [hdigits]
  by_contra hne
  have hlt := (Nat.length_toDigits_le_iff (b := 10) (n := n) (by decide) (k := k) (by omega)).mp (by omega)
  omega

/-- Where `x` lies between `10 ^ k` and `10 ^ (k + 1)`, the power above it is the latter. -/
theorem powerAbove_eq {x : Double} {k : Nat} (hlow : 10 ^ k * x.fraction.2 ≤ x.fraction.1)
    (hhigh : x.fraction.1 < 10 ^ (k + 1) * x.fraction.2) : powerAbove x = k + 1 := by
  have hpos : 0 < x.fraction.2 := Double.fraction_pos x
  have hlarge : x.fraction.2 ≤ x.fraction.1 := (Nat.le_mul_of_pos_left _ (Nat.pow_pos (by decide))).trans hlow
  have hlength : (toString (x.fraction.1 / x.fraction.2)).length = k + 1 :=
    length_toString ((Nat.le_div_iff_mul_le hpos).mpr hlow) ((Nat.div_lt_iff_lt_mul hpos).mpr hhigh)
  rw [powerAbove]
  dsimp only
  rw [if_pos hlarge, hlength]
  rfl

theorem shortest_greatest (negative : Bool) :
    shortest ⟨negative, 2 ^ 53 - 1, maxExponent⟩ = ⟨17976931348623157, 292⟩ := by
  have hpower : powerAbove ⟨negative, 2 ^ 53 - 1, maxExponent⟩ = 308 + 1 := by
    apply powerAbove_eq <;> cases negative <;> decide +kernel
  rw [shortest, hpower]
  cases negative <;> decide +kernel

end Decimal

end PayloadAtlas
