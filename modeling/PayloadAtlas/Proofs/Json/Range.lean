import PayloadAtlas.Proofs.Decimal.Value
import PayloadAtlas.Proofs.Json.Read

/-!
# Numbers in range

A literal is read as a number, and not refused as too large, if its whole digits have 64 bits and it stays half
a unit below the greatest double (`isSome_ofLiteral?`). A number that has 64 bits is written as such a literal,
or is the greatest double, which comes back too: `Number.isSome_reread?`. Every number that was read has
64 bits (`Number.fits_of_ofLiteral?`).
-/

namespace PayloadAtlas.Json

open Double (halfBelow)

/-! ## Values of digits -/

/-- Going on from `v`, digits stand behind the digits of `v`. -/
theorem foldl_digits (cs : List Char) (v : Nat) :
    cs.foldl (fun n c => 10 * n + digitValue c) v = v * 10 ^ cs.length + digitsValue cs := by
  have hfoldl : cs.foldl (fun n c => 10 * n + digitValue c) v = Nat.ofDigitChars 10 cs v := by
    rw [Nat.ofDigitChars_eq_foldl]
    rfl
  rw [hfoldl, Nat.ofDigitChars_eq_ofDigitChars_zero, digitsValue_eq, Nat.mul_comm]

/-- The value of digits before and after others. -/
theorem digitsValue_append (xs ys : List Char) :
    digitsValue (xs ++ ys) = digitsValue xs * 10 ^ ys.length + digitsValue ys := by
  rw [digitsValue, List.foldl_append]
  exact foldl_digits ys _

theorem digitsValue_cons (c : Char) (cs : List Char) :
    digitsValue (c :: cs) = digitValue c * 10 ^ cs.length + digitsValue cs := by
  rw [← List.singleton_append, digitsValue_append]
  simp [digitsValue]

theorem digitsValue_zeros (n : Nat) : digitsValue (List.replicate n '0') = 0 := by
  rw [digitsValue_eq, Nat.ofDigitChars_replicate_zero, Nat.mul_zero]

theorem digitsValue_toDigits (n : Nat) : digitsValue (Nat.toDigits 10 n) = n := by
  rw [digitsValue_eq, Nat.ofDigitChars_toDigits (by decide) (by decide)]

theorem digitValue_lt {c : Char} (h : c.isDigit = true) : digitValue c < 10 := by
  have hle : c.toNat ≤ 57 := (Char.isDigit_iff_toNat.mp h).2
  have hzero : '0'.toNat = 48 := rfl
  rw [digitValue]
  omega

/-- So many digits have a value below `10 ^` their number. -/
theorem digitsValue_lt {cs : List Char} (h : ∀ c ∈ cs, c.isDigit = true) : digitsValue cs < 10 ^ cs.length := by
  induction cs with
  | nil => decide
  | cons c cs ih =>
    have hhead : digitValue c < 10 := digitValue_lt (h c List.mem_cons_self)
    have htail := ih fun c' hc' => h c' (List.mem_cons_of_mem c hc')
    rw [digitsValue_cons, List.length_cons, Nat.pow_succ]
    calc digitValue c * 10 ^ cs.length + digitsValue cs < (digitValue c + 1) * 10 ^ cs.length := by
          rw [Nat.succ_mul]
          omega
      _ ≤ 10 * 10 ^ cs.length := Nat.mul_le_mul_right _ hhead
      _ = 10 ^ cs.length * 10 := Nat.mul_comm _ _

/-! ## Values of literals -/

namespace NumberLiteral

/-- The power of ten that the literal `l` ends with. -/
def power (l : NumberLiteral) : Int :=
  match l.exponent with
  | none => 0
  | some (down, ds) => if down then -(digitsValue ds : Int) else digitsValue ds

/-- The digits after the point. -/
def decimals (l : NumberLiteral) : List Char := l.fraction.getD []

/-- The number that the literal `l` stands for, without its sign. -/
def value (l : NumberLiteral) : ℚ :=
  digitsValue (l.whole ++ l.decimals) * 10 ^ (l.power - l.decimals.length)

end NumberLiteral

open Significand in
/-- The digits after the point are cut off by `takeFraction`, if any: what is taken is not greater than what is there.
-/
theorem takeFraction_le (s : Significand) (cs : List Char) :
    ((s.takeFraction cs).value : ℚ) * 10 ^ (s.takeFraction cs).exponent ≤
      (s.value * 10 ^ cs.length + digitsValue cs : Nat) * 10 ^ (s.exponent - cs.length) := by
  induction cs generalizing s with
  | nil => simp [takeFraction, digitsValue]
  | cons c cs ih =>
    rw [takeFraction]
    split
    · -- the digit and all after it are cut off
      have hpow : (10 : ℚ) ^ s.exponent = 10 ^ (c :: cs).length * 10 ^ (s.exponent - (c :: cs).length) := by
        rw [← zpow_natCast, ← zpow_add₀ (by norm_num)]
        congr 1
        omega
      rw [hpow, ← mul_assoc]
      gcongr
      push_cast
      linarith [Nat.cast_nonneg (α := ℚ) (digitsValue (c :: cs))]
    · -- the digit is taken
      refine (ih _).trans (le_of_eq ?_)
      rw [digitsValue_cons, List.length_cons, Nat.pow_succ]
      congr 2
      · ring
      · dsimp only
        omega

/-- What is taken of the digits after the point never goes beyond 64 bits. -/
theorem takeFraction_lt {s : Significand} (hs : s.value < wordLimit) (cs : List Char) :
    (s.takeFraction cs).value < wordLimit := by
  induction cs generalizing s with
  | nil => exact hs
  | cons c cs ih =>
    rw [Significand.takeFraction]
    split
    · exact hs
    · next hfits => exact ih (not_le.mp hfits)

/-- A significand of 64 bits and a power of ten make a double if they stay below `halfBelow`. -/
theorem isSome_double? {l : NumberLiteral} {s : Significand} (hlt : s.value < wordLimit)
    (hpower : l.power < exponentLimit) (hle : (s.value : ℚ) * 10 ^ (s.exponent + l.power) ≤ halfBelow) :
    (Number.double? l.negative s l.exponent).isSome := by
  rw [NumberLiteral.power] at hpower hle
  cases he : l.exponent with
  | none =>
    simp only [he, Int.add_zero] at hle
    rw [Number.double?, Option.isSome_map]
    exact Double.isSome_ofParts? hlt hle
  | some p =>
    obtain ⟨down, ds⟩ := p
    rw [he] at hpower hle
    cases down with
    | true =>
      rw [Number.double?]
      split
      · -- the sign of the exponent counts alone
        simp
      · rw [Option.isSome_map]
        exact Double.isSome_ofParts? hlt hle
    | false =>
      have hlimit : ¬exponentLimit ≤ digitsValue ds := not_le.mpr (Int.ofNat_lt.mp hpower)
      rw [Number.double?, if_neg hlimit, Option.isSome_map]
      exact Double.isSome_ofParts? hlt hle

/-- A literal is a number if its whole digits have 64 bits and it stays below `halfBelow`. -/
theorem isSome_ofLiteral? {l : NumberLiteral} (hwhole : digitsValue l.whole < wordLimit)
    (hpower : l.power < exponentLimit) (hle : l.value ≤ halfBelow) : (Number.ofLiteral? l).isSome := by
  have htake : Significand.takeWhole ⟨0, 0, false⟩ l.whole = ⟨digitsValue l.whole, 0, false⟩ :=
    takeWhole_of_lt hwhole
  have hdouble : (Number.double? l.negative (Significand.takeFraction ⟨digitsValue l.whole, 0, false⟩ l.decimals)
      l.exponent).isSome := by
    apply isSome_double? (takeFraction_lt hwhole l.decimals) hpower
    refine le_trans ?_ hle
    have hcut := takeFraction_le ⟨digitsValue l.whole, 0, false⟩ l.decimals
    rw [← digitsValue_append] at hcut
    rw [NumberLiteral.value, zpow_add₀ (by norm_num), ← mul_assoc, Int.sub_eq_add_neg, Int.add_comm l.power,
      zpow_add₀ (by norm_num), ← mul_assoc]
    refine mul_le_mul_of_nonneg_right ?_ (by positivity)
    simpa only [Int.zero_sub] using hcut
  -- without a fraction and an exponent a literal may be an integer, and else it is a double
  rw [Number.ofLiteral?]
  simp only [htake]
  cases hfraction : l.fraction with
  | some ds =>
    rw [NumberLiteral.decimals, hfraction] at hdouble
    exact hdouble
  | none =>
    rw [NumberLiteral.decimals, hfraction] at hdouble
    cases hexponent : l.exponent with
    | some p =>
      rw [hexponent] at hdouble
      exact hdouble
    | none =>
      rw [hexponent] at hdouble
      cases hnegative : l.negative with
      | false => rfl
      | true =>
        rw [hnegative] at hdouble
        simp only [Bool.false_eq_true, Bool.not_true, if_false]
        split
        · exact hdouble
        · rfl

/-! ## Literals of decimals -/

/-- A literal stands for a decimal if it has its digits, with `k` zeros behind them. -/
theorem value_eq {l : NumberLiteral} {d : Decimal} {k : Nat}
    (hdigits : digitsValue (l.whole ++ l.decimals) = d.digits * 10 ^ k)
    (hpower : d.exponent = l.power - l.decimals.length + k) : l.value = d.value := by
  rw [NumberLiteral.value, Decimal.value, hdigits, hpower, zpow_add₀ (by norm_num), zpow_natCast]
  push_cast
  ring

/-- A zero may come before the digits of an exponent. -/
theorem digitsValue_exponent (n : Nat) :
    digitsValue (if (Nat.toDigits 10 n).length < 2 then '0' :: Nat.toDigits 10 n else Nat.toDigits 10 n) = n := by
  split
  · rw [digitsValue_cons, digitsValue_toDigits]
    simp [digitValue]
  · exact digitsValue_toDigits n

/-- The `decimalLiteral` of a decimal stands for the decimal. -/
theorem value_decimalLiteral (d : Decimal) : (decimalLiteral d).value = d.value := by
  have hdigits : digitsValue (Nat.toDigits 10 d.digits) = d.digits := digitsValue_toDigits d.digits
  have hpos : 0 < (Nat.toDigits 10 d.digits).length := Nat.length_toDigits_pos
  rw [decimalLiteral]
  have he : leadingExponent d = d.exponent + (Nat.toDigits 10 d.digits).length - 1 := rfl
  generalize leadingExponent d = e at he ⊢
  generalize Nat.toDigits 10 d.digits = ds at *
  dsimp only
  split
  · split
    · -- a zero, the point and zeros before the digits
      apply value_eq (k := 0)
      · simp only [NumberLiteral.decimals, Option.getD_some]
        rw [digitsValue_append, digitsValue_append, digitsValue_zeros, hdigits]
        simp [digitsValue, digitValue]
      · simp only [NumberLiteral.decimals, NumberLiteral.power, Option.getD_some, List.length_append,
          List.length_replicate]
        omega
    · -- the point among the digits, or zeros after them and the point
      by_cases hrest : ds.length ≤ e.toNat + 1
      · rw [List.drop_eq_nil_of_le hrest, List.take_of_length_le hrest]
        apply value_eq (k := e.toNat + 1 - ds.length + 1)
        · show digitsValue (ds ++ List.replicate (e.toNat + 1 - ds.length) '0' ++ List.replicate 1 '0') = _
          rw [List.append_assoc, ← List.replicate_add, digitsValue_append, hdigits, digitsValue_zeros,
            List.length_replicate, Nat.add_zero]
        · simp only [NumberLiteral.decimals, NumberLiteral.power, List.isEmpty_nil, if_true, Option.getD_some,
            List.length_singleton]
          omega
      · have hempty : (ds.drop (e.toNat + 1)).isEmpty = false := by simpa using hrest
        rw [hempty]
        apply value_eq (k := 0)
        · have hzeros : e.toNat + 1 - ds.length = 0 := by omega
          simp [NumberLiteral.decimals, hzeros, hdigits]
        · simp only [NumberLiteral.decimals, NumberLiteral.power, Bool.false_eq_true, if_false, Option.getD_some,
            List.length_drop]
          omega
  · -- one digit before the point, and a power of ten
    have hdecimals : (if (ds.drop 1).isEmpty then none else some (ds.drop 1)).getD [] = ds.drop 1 := by
      split
      · next hempty => exact (List.isEmpty_iff.mp hempty).symm
      · rfl
    apply value_eq (k := 0)
    · rw [NumberLiteral.decimals, hdecimals, List.take_append_drop, hdigits, pow_zero, Nat.mul_one]
    · rw [NumberLiteral.decimals, hdecimals, List.length_drop, NumberLiteral.power]
      simp only [digitsValue_exponent, decide_eq_true_eq]
      split <;> omega

/-- A decimal has sixteen digits before the point at most. -/
theorem length_whole_le (d : Decimal) : (decimalLiteral d).whole.length ≤ 16 := by
  rw [decimalLiteral]
  dsimp only
  split
  · next hpositional =>
    have hle : leadingExponent d ≤ 15 := of_decide_eq_true (Bool.and_eq_true_iff.mp hpositional).2
    split
    · show 1 ≤ 16
      decide
    · rw [List.length_append, List.length_take, List.length_replicate]
      omega
  · rw [List.length_take]
    omega

theorem power_decimalLiteral_le (d : Decimal) : (decimalLiteral d).power ≤ max 0 (leadingExponent d) := by
  rw [decimalLiteral]
  dsimp only
  split
  · split <;> exact Int.le_max_left _ _
  · simp only [NumberLiteral.power, digitsValue_exponent, decide_eq_true_eq]
    split <;> omega

/-- A decimal is not less than the power of ten of its first digit. -/
theorem tenTo_leadingExponent_le {d : Decimal} (hd : d.digits ≠ 0) : (10 : ℚ) ^ leadingExponent d ≤ d.value := by
  obtain ⟨k, hk⟩ : ∃ k, (Nat.toDigits 10 d.digits).length = k + 1 :=
    Nat.exists_eq_add_one.mpr Nat.length_toDigits_pos
  have hdigits : 10 ^ k ≤ d.digits := by
    by_contra hlt
    rcases Nat.eq_zero_or_pos k with rfl | hpos
    · exact hd (Nat.lt_one_iff.mp (not_le.mp hlt))
    · have hlength := (Nat.length_toDigits_le_iff (by decide) hpos).mpr (not_le.mp hlt)
      omega
  have hexponent : leadingExponent d = k + d.exponent := by
    rw [leadingExponent, hk]
    omega
  rw [hexponent, zpow_add₀ (by norm_num), zpow_natCast, Decimal.value]
  refine mul_le_mul_of_nonneg_right ?_ (by positivity)
  exact_mod_cast hdigits

/-- A decimal below `halfBelow` has no greater power of ten than doubles. -/
theorem leadingExponent_lt {d : Decimal} (hd : d.digits = 0 → d.exponent = 0) (hle : d.value ≤ halfBelow) :
    leadingExponent d < 309 := by
  by_cases hzero : d.digits = 0
  · simp [leadingExponent, hd hzero, hzero]
  · by_contra hnot
    have hpow : (10 : ℚ) ^ (309 : Nat) ≤ 10 ^ leadingExponent d := by
      rw [← zpow_natCast]
      exact zpow_le_zpow_right₀ (by norm_num) (not_lt.mp hnot)
    have hlarge : (halfBelow : ℚ) < 10 ^ (309 : Nat) := by exact_mod_cast Double.halfBelow_lt
    exact absurd (hpow.trans ((tenTo_leadingExponent_le hzero).trans hle)) (not_le.mpr hlarge)

/-- A decimal that is not too large is read as a number by `ofLiteral?`. -/
theorem isSome_ofLiteral?_decimalLiteral {d : Decimal} (negative : Bool) (hd : d.digits = 0 → d.exponent = 0)
    (hle : d.value ≤ halfBelow) : (Number.ofLiteral? { decimalLiteral d with negative }).isSome := by
  have hwhole : digitsValue (decimalLiteral d).whole < 10 ^ 16 :=
    (digitsValue_lt (isProper_decimalLiteral hd).whole.2).trans_le
      (Nat.pow_le_pow_right (by decide) (length_whole_le d))
  have hpower : (decimalLiteral d).power < 309 :=
    (power_decimalLiteral_le d).trans_lt (max_lt (by decide) (leadingExponent_lt hd hle))
  apply isSome_ofLiteral?
  · exact hwhole.trans (by decide)
  · exact hpower.trans (by decide)
  · exact (value_decimalLiteral d).le.trans hle

/-! ## Numbers -/

namespace Number

/-- Whether a number has 64 bits: an integer of a word, by `IsWord`, or a finite double. -/
def Fits : Number → Prop
  | .integer n => IsWord n
  | .double x => x.IsFinite

theorem isSome_reread?_greatest :
    ∀ negative, (reread? (.double ⟨negative, 2 ^ 53 - 1, Double.maxExponent⟩)).isSome := by
  simp only [reread?, literal, Decimal.shortest_greatest]
  decide +kernel

/-- A number of 64 bits that was written is read again. -/
theorem isSome_reread? {n : Number} (h : n.Fits) : n.reread?.isSome := by
  cases n with
  | integer n =>
    rw [reread?_integer h]
    rfl
  | double x =>
    by_cases hmax : x.IsGreatest
    · obtain ⟨negative, mantissa, exponent⟩ := x
      obtain ⟨rfl, rfl⟩ := hmax
      exact isSome_reread?_greatest negative
    · exact isSome_ofLiteral?_decimalLiteral x.negative Decimal.exponent_shortest
        (Decimal.value_shortest_le_halfBelow h hmax)

/-- A double that a literal makes is finite. -/
theorem isFinite_of_double? {negative : Bool} {s : Significand} {exponent : Option (Bool × List Char)} {x : Double}
    (h : double? negative s exponent = some (.double x)) : x.IsFinite := by
  have hparts : ∀ e, (Double.ofParts? negative s.value e).map Number.double = some (.double x) → x.IsFinite := by
    intro e he
    obtain ⟨y, hy, heq⟩ := Option.map_eq_some_iff.mp he
    cases heq
    exact Double.isFinite_of_ofParts? hy
  rw [double?.eq_def] at h
  split at h
  · exact hparts _ h
  · next down digits =>
    by_cases hlarge : exponentLimit ≤ digitsValue digits
    · rw [if_pos hlarge] at h
      split at h
      · cases h
      · cases h
        exact Double.isFinite_zero negative
    · rw [if_neg hlarge] at h
      exact hparts _ h

/-- A number that was read by `ofLiteral?` has 64 bits. -/
theorem fits_of_ofLiteral? (l : NumberLiteral) (n : Number) (h : ofLiteral? l = some n) : n.Fits := by
  cases n with
  | integer n => exact isWord_of_ofLiteral? h
  | double x =>
    rw [ofLiteral?] at h
    split at h
    · split at h
      · exact isFinite_of_double? h
      · split at h
        · cases h
        · split at h
          · obtain ⟨y, hy, heq⟩ := Option.map_eq_some_iff.mp h
            cases heq
            exact Double.isFinite_of_ofParts? hy
          · cases h
    · exact isFinite_of_double? h

end Number

end PayloadAtlas.Json
