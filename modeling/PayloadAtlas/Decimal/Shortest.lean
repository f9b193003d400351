import PayloadAtlas.Decimal.Double

/-!
# Shortest decimals

The shortest decimal that reads back as a given double, and of several such the nearest. The decimals
that read back as a double make an interval around it; for one digit, two digits and so on the two
neighbours of the double on the grid of such decimals are tried. If a grid has a point in the interval,
one of these two is in it.
-/

namespace PayloadAtlas

/-- A decimal: `digits · 10 ^ exponent`. -/
structure Decimal where
  digits : Nat
  exponent : Int
  deriving DecidableEq, Repr, Inhabited

namespace Decimal

/-- Compares `a · 10 ^ k` with `b · 2 ^ e`. -/
def compareScaled (a : Nat) (k : Int) (b : Nat) (e : Int) : Ordering :=
  compare (a * Double.tenTo k * Double.twoTo (-e)) (b * Double.twoTo e * Double.tenTo (-k))

/-- The interval of the decimals that read back as a double, in quarters of its unit, with its middle.
-/
structure Around where
  low : Nat
  middle : Nat
  high : Nat
  /-- The exponent of two of a quarter. -/
  exponent : Int
  /-- Whether the ends belong to it. -/
  closed : Bool

/-- The interval of the double `x`. Below a power of two doubles are closer to one another. -/
def Around.ofDouble (x : Double) : Around :=
  let m := x.mantissa
  let step := if m = Double.leastFull ∧ Double.minExponent < x.exponent then 1 else 2
  ⟨4 * m - step, 4 * m, 4 * m + 2, x.exponent - 2, m % 2 = 0⟩

/-- Whether the decimal `d` lies in the interval. -/
def Around.contains (i : Around) (d : Decimal) : Bool :=
  let l := compareScaled d.digits d.exponent i.low i.exponent
  let h := compareScaled d.digits d.exponent i.high i.exponent
  if i.closed then l != .lt && h != .gt else l == .gt && h == .lt

/-- The decimals on the grid of `10 ^ k` just below and just above the middle, and which is nearer. -/
def neighbours (i : Around) (k : Int) : Nat × Nat × Ordering :=
  let num := i.middle * Double.twoTo i.exponent * Double.tenTo (-k)
  let den := Double.twoTo (-i.exponent) * Double.tenTo k
  let q := num / den
  (q, q + 1, compare (2 * (num % den)) den)

/-- The point of the grid of `10 ^ k` in the interval that is nearest to the middle; an even one is
taken if two are. -/
def onGrid? (i : Around) (k : Int) : Option Decimal :=
  let (below, above, nearer) := neighbours i k
  let b : Decimal := ⟨below, k⟩
  let a : Decimal := ⟨above, k⟩
  match i.contains b, i.contains a with
  | true, true =>
    match nearer with
    | .lt => some b
    | .gt => some a
    | .eq => if below % 2 = 0 then some b else some a
  | true, false => some b
  | false, true => some a
  | false, false => none

/-- The coarsest grid with a point in the interval, from `10 ^ k` down. -/
def search (i : Around) : Nat → Int → Option Decimal
  | 0, _ => none
  | fuel + 1, k => (onGrid? i k).or (search i fuel (k - 1))

/-- Without zeros at the end of the digits. -/
def strip : Nat → Decimal → Decimal
  | 0, d => d
  | fuel + 1, d =>
    if d.digits ≠ 0 ∧ d.digits % 10 = 0 then strip fuel ⟨d.digits / 10, d.exponent + 1⟩ else d

/-- A power of ten, `10 ^ k`, that is not less than the absolute value of a double. -/
def powerAbove (x : Double) : Int :=
  let (n, d) := x.fraction
  if d ≤ n then (toString (n / d)).length else -((toString (d / n)).length - 1 : Nat)

/-- The shortest decimal that reads back as the absolute value of the double `x`. -/
def shortest (x : Double) : Decimal :=
  if x.mantissa = 0 then ⟨0, 0⟩
  else strip 400 ((search (Around.ofDouble x) 400 (powerAbove x)).getD ⟨0, 0⟩)

end Decimal

end PayloadAtlas
