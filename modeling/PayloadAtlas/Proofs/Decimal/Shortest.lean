import PayloadAtlas.Decimal.Shortest

/-!
# Laws of shortest decimals

A shortest decimal has a digit other than zero or is the plain zero (`exponent_shortest`), because the interval that
it is looked for in lies above zero.
-/

namespace PayloadAtlas.Decimal

theorem twoTo_pos (e : Int) : 0 < Double.twoTo e := Nat.pow_pos (by decide)

theorem tenTo_pos (e : Int) : 0 < Double.tenTo e := Nat.pow_pos (by decide)

theorem compareScaled_zero {b : Nat} (hb : 0 < b) (k e : Int) : compareScaled 0 k b e = .lt := by
  have hpos : 0 < b * Double.twoTo e * Double.tenTo (-k) :=
    Nat.mul_pos (Nat.mul_pos hb (twoTo_pos e)) (tenTo_pos (-k))
  rw [compareScaled, Nat.zero_mul, Nat.zero_mul]
  exact Nat.compare_eq_lt.mpr hpos

theorem digits_ne_zero_of_contains {i : Around} (hi : 0 < i.low) {d : Decimal}
    (hd : i.contains d = true) : d.digits ≠ 0 := by
  intro hzero
  rw [Around.contains, hzero, compareScaled_zero hi] at hd
  cases i.closed <;> simp at hd

/-- A decimal that `onGrid?` finds lies in the interval. -/
theorem contains_of_onGrid? {i : Around} {k : Int} {d : Decimal} (h : onGrid? i k = some d) :
    i.contains d = true := by
  rw [onGrid?] at h
  generalize neighbours i k = n at h
  obtain ⟨below, above, nearer⟩ := n
  dsimp only at h
  split at h
  · next hbelow habove =>
    split at h
    · exact Option.some.inj h ▸ hbelow
    · exact Option.some.inj h ▸ habove
    · split at h
      · exact Option.some.inj h ▸ hbelow
      · exact Option.some.inj h ▸ habove
  · next hbelow _ => exact Option.some.inj h ▸ hbelow
  · next habove => exact Option.some.inj h ▸ habove
  · cases h

/-- What `search` finds, on whichever grid, lies in the interval. -/
theorem contains_of_search {i : Around} {fuel : Nat} {k : Int} {d : Decimal}
    (h : search i fuel k = some d) : i.contains d = true := by
  induction fuel generalizing k with
  | zero => cases h
  | succ fuel ih =>
    rw [search, Option.or_eq_some_iff] at h
    rcases h with h | ⟨_, h⟩
    · exact contains_of_onGrid? h
    · exact ih h

/-- Taking zeros off the end by `strip` leaves a digit if there was one. -/
theorem digits_strip_ne_zero {fuel : Nat} {d : Decimal} (hd : d.digits ≠ 0) :
    (strip fuel d).digits ≠ 0 := by
  induction fuel generalizing d with
  | zero => exact hd
  | succ fuel ih =>
    rw [strip]
    split
    · exact ih (by show d.digits / 10 ≠ 0; omega)
    · exact hd

theorem strip_zero (fuel : Nat) : strip fuel ⟨0, 0⟩ = ⟨0, 0⟩ := by
  cases fuel <;> simp [strip]

/-- The interval `Around.ofDouble` of a double that is not zero lies above zero. -/
theorem low_ofDouble_pos {x : Double} (hx : x.mantissa ≠ 0) : 0 < (Around.ofDouble x).low := by
  show 0 < 4 * x.mantissa - _
  split <;> omega

/-- A `shortest` decimal without digits is the plain zero. -/
theorem exponent_shortest {x : Double} (hx : (shortest x).digits = 0) : (shortest x).exponent = 0 := by
  rw [shortest] at hx ⊢
  split at hx
  · next hzero => rw [if_pos hzero]
  · next hzero =>
    rw [if_neg hzero]
    cases hs : search (Around.ofDouble x) 400 (powerAbove x) with
    | none => simp [strip_zero]
    | some d =>
      have hdigits := digits_ne_zero_of_contains (low_ofDouble_pos hzero) (contains_of_search hs)
      rw [hs] at hx
      exact absurd hx (digits_strip_ne_zero hdigits)

end PayloadAtlas.Decimal
