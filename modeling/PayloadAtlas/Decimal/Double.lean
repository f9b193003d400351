/-!
# Doubles

Binary floating point numbers of 53 digits, as exact values: a `Double` is `mantissa · 2 ^ exponent`,
negated or not. The arithmetic that is needed works on exact fractions and rounds once, to the nearest
double, and to the one with an even mantissa if there are two.
-/

namespace PayloadAtlas

/-- A finite double. -/
structure Double where
  negative : Bool
  mantissa : Nat
  exponent : Int
  deriving DecidableEq, Repr, Inhabited

namespace Double

/-- The least exponent, `-1074`. -/
def minExponent : Int := -1074

/-- The greatest exponent, `971`. -/
def maxExponent : Int := 971

/-- Zero, or its negation. -/
def zero (negative : Bool) : Double := ⟨negative, 0, minExponent⟩

/-- The quotient `num / den` rounded to the nearest natural number, a tie to the even one. -/
def roundDiv (num den : Nat) : Nat :=
  let q := num / den
  let r := num % den
  if 2 * r < den then q
  else if den < 2 * r then q + 1
  else if q % 2 = 0 then q else q + 1

/-- `2 ^ e` for a nonnegative exponent, or one. -/
def twoTo (e : Int) : Nat := Nat.pow 2 e.toNat

/-- `10 ^ e` for a nonnegative exponent, or one. -/
def tenTo (e : Int) : Nat := Nat.pow 10 e.toNat

/-- The least mantissa of 53 digits, `2 ^ 52`. -/
def leastFull : Nat := Nat.pow 2 52

/-- The exponent with which the mantissa of `num / den` has 53 digits. -/
def fullExponent (num den : Nat) : Int :=
  let guess : Int := (num.log2 : Int) - (den.log2 : Int) - 52
  -- the mantissa of the guess has 53 digits, or 52
  if num * twoTo (-guess) < den * twoTo guess * leastFull then guess - 1 else guess

/-- The mantissa of `num / den` for the exponent `e`, by `roundDiv`. -/
def mantissaAt (num den : Nat) (e : Int) : Nat := roundDiv (num * twoTo (-e)) (den * twoTo e)

/-- The double with the mantissa `m`, which may have been rounded up to 54 digits, and the exponent `e`; there is none
if the exponent is too large. -/
def ofMantissa? (negative : Bool) (m : Nat) (e : Int) : Option Double :=
  let (m, e) := if m = 2 * leastFull then (leastFull, e + 1) else (m, e)
  if m = 0 then some (zero negative)
  else if maxExponent < e then none
  else some ⟨negative, m, e⟩

/-- The double nearest to `num / den`; there is none if the fraction is too large. -/
def ofFraction? (negative : Bool) (num den : Nat) : Option Double :=
  if num = 0 then some (zero negative)
  else
    let e := max minExponent (fullExponent num den)
    ofMantissa? negative (mantissaAt num den e) e

/-- The absolute value as a fraction. -/
def fraction (x : Double) : Nat × Nat := (x.mantissa * twoTo x.exponent, twoTo (-x.exponent))

/-- The double nearest to a natural number. -/
def ofNat? (n : Nat) : Option Double := ofFraction? false n 1

/-- The double nearest to the product of two absolute values. -/
def mul? (x y : Double) : Option Double :=
  let (a, b) := x.fraction
  let (c, d) := y.fraction
  ofFraction? false (a * c) (b * d)

/-- The double nearest to the quotient of two absolute values. -/
def div? (x y : Double) : Option Double :=
  let (a, b) := x.fraction
  let (c, d) := y.fraction
  ofFraction? false (a * d) (b * c)

/-- Whether two doubles are the same number; the sign of zero does not count. -/
def same (x y : Double) : Bool :=
  if x.mantissa = 0 then y.mantissa = 0 else decide (x = y)

/-- The greatest power of ten that is a double: `10 ^ 308`. -/
def maxPower : Nat := 308

/-- The double nearest to `10 ^ k`. -/
def powerOfTen (k : Nat) : Double := (ofNat? (tenTo k)).getD (zero false)

/-- Divides by the greatest power of ten until the exponent is one of a power of ten, or nothing is left. -/
def divideDown : Nat → Double → Nat → Option Double
  | 0, x, _ => some x
  | fuel + 1, x, k =>
    if k ≤ maxPower then x.div? (powerOfTen k)
    else if x.mantissa = 0 then some x
    else (x.div? (powerOfTen maxPower)).bind fun y => divideDown fuel y (k - maxPower)

/-- `significand · 10 ^ exponent`, by rounding the significand, then the power of ten, then their product
or quotient. There is none if it is too large. -/
def ofParts? (negative : Bool) (significand : Nat) (exponent : Int) : Option Double := do
  let x ← ofNat? significand
  let y ←
    if 0 ≤ exponent then
      if exponent.toNat ≤ maxPower then x.mul? (powerOfTen exponent.toNat)
      else if x.mantissa = 0 then some x else none
    else divideDown 8 x (-exponent).toNat
  return { y with negative }

end Double

end PayloadAtlas
