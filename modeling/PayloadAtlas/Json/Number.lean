import PayloadAtlas.Decimal.Shortest

/-!
# Numbers in JSON

A number is an integer that fits into 64 bits, with or without a sign, or a double. `Number.ofLiteral?`
reads the text of a number: only plain digits make an integer. `Number.toText` writes one back.
-/

namespace PayloadAtlas.Json

/-- A number. -/
inductive Number where
  | integer (n : Int)
  | double (x : Double)
  deriving DecidableEq, Repr, Inhabited

/-- The text of a number, in its parts, as in `-12.5e3`. -/
structure NumberLiteral where
  negative : Bool
  /-- The digits before the point. -/
  whole : List Char
  /-- The digits after the point. -/
  fraction : Option (List Char) := none
  /-- Whether the exponent is negative, and its digits. -/
  exponent : Option (Bool × List Char) := none
  deriving DecidableEq, Repr, Inhabited

/-- The value of a digit. -/
def digitValue (c : Char) : Nat := c.toNat - '0'.toNat

/-- The value of digits, from `digitValue` of each. -/
def digitsValue (cs : List Char) : Nat := cs.foldl (fun n c => 10 * n + digitValue c) 0

/-- The least number beyond those of 64 bits, `2 ^ 64`. -/
def wordLimit : Nat := Nat.pow 2 64

/-- A significand, with the power of ten that it is short of. -/
structure Significand where
  value : Nat
  exponent : Int
  /-- Whether a digit did not fit any more. -/
  full : Bool

namespace Significand

/-- Takes digits before the point. Once one does not fit below `wordLimit` only the power of ten grows. -/
def takeWhole : Significand → List Char → Significand
  | s, [] => s
  | s, c :: cs =>
    let n := 10 * s.value + digitValue c
    if s.full || wordLimit ≤ n then takeWhole ⟨s.value, s.exponent + 1, true⟩ cs
    else takeWhole ⟨n, s.exponent, false⟩ cs

/-- Takes digits after the point, until one does not fit below `wordLimit`. -/
def takeFraction : Significand → List Char → Significand
  | s, [] => s
  | s, c :: cs =>
    let n := 10 * s.value + digitValue c
    if wordLimit ≤ n then s else takeFraction ⟨n, s.exponent - 1, s.full⟩ cs

end Significand

/-- An exponent, `2 ^ 31`, beyond which only the sign of the exponent counts. -/
def exponentLimit : Nat := Nat.pow 2 31

namespace Number

/-- The double that a literal with a point or an exponent, or a long one, is. -/
def double? (negative : Bool) (s : Significand) (exponent : Option (Bool × List Char)) :
    Option Number :=
  match exponent with
  | none => (Double.ofParts? negative s.value s.exponent).map .double
  | some (down, digits) =>
    let e := digitsValue digits
    if exponentLimit ≤ e then
      if s.value ≠ 0 ∧ !down then none else some (.double (.zero negative))
    else
      (Double.ofParts? negative s.value (if down then s.exponent - e else s.exponent + e)).map .double

/-- The number that a literal is; there is none if it is too large. -/
def ofLiteral? (l : NumberLiteral) : Option Number :=
  let whole := Significand.takeWhole ⟨0, 0, false⟩ l.whole
  match l.fraction, l.exponent with
  | none, none =>
    if whole.full then double? l.negative whole none
    else if !l.negative then some (.integer whole.value)
    else if whole.value = 0 ∨ wordLimit / 2 < whole.value then
      (Double.ofParts? true whole.value 0).map .double
    else some (.integer (-whole.value))
  | fraction, exponent => double? l.negative (whole.takeFraction (fraction.getD [])) exponent

/-- Whether two numbers are equal. -/
def same : Number → Number → Bool
  | .integer m, .integer n => m == n
  | .double x, .double y => x.same y
  | _, _ => false

/-- The exponents `e` that are written without an exponent. -/
def isPositional (e : Int) : Bool := -5 ≤ e && e ≤ 15

/-- The text of an exponent: its sign and two digits at least, as in `e+20`. -/
def exponentText (e : Int) : String :=
  let digits := toString e.natAbs
  (if e < 0 then "e-" else "e+") ++ (if digits.length < 2 then "0" ++ digits else digits)

/-- The text of a decimal: `d.ddd · 10 ^ e` is written without the power of ten for small `e`, and then
has a digit after the point. -/
def decimalText (d : Decimal) : String :=
  let digits := (toString d.digits).toList
  let e : Int := d.exponent + digits.length - 1
  if isPositional e then
    if e < 0 then "0." ++ String.ofList (List.replicate (-e - 1).toNat '0' ++ digits)
    else
      let whole := digits.take (e.toNat + 1)
      let rest := digits.drop (e.toNat + 1)
      String.ofList (whole ++ List.replicate (e.toNat + 1 - digits.length) '0') ++ "."
        ++ (if rest.isEmpty then "0" else String.ofList rest)
  else
    let rest := digits.drop 1
    String.ofList (digits.take 1) ++ (if rest.isEmpty then "" else "." ++ String.ofList rest)
      ++ exponentText e

/-- The text of a number. -/
def toText : Number → String
  | .integer n => toString n
  | .double x => (if x.negative then "-" else "") ++ decimalText (Decimal.shortest x)

end Number

end PayloadAtlas.Json
