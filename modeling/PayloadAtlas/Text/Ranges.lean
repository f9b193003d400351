/-!
# Tables of character ranges

A property of characters is given by the ranges of code points that have it, in ascending order.
`Ranges.contains` finds a code point by halving the table.
-/

namespace PayloadAtlas.Text

/-- Ranges of code points with both ends included, ascending and apart from each other. -/
abbrev Ranges := Array (Nat × Nat)

namespace Ranges

/-- Whether a code point lies in one of the ranges between two indices; the fuel bounds the number of
halvings. -/
def search (table : Ranges) (c : Nat) : Nat → Nat → Nat → Bool
  | 0, _, _ => false
  | fuel + 1, lo, hi =>
    if lo < hi then
      let mid := (lo + hi) / 2
      match table[mid]? with
      | some (a, b) =>
        if c < a then search table c fuel lo mid
        else if b < c then search table c fuel (mid + 1) hi
        else true
      | none => false
    else false

/-- Whether a code point lies in one of the ranges. -/
def contains (table : Ranges) (c : Nat) : Bool :=
  search table c (Nat.log2 table.size + 2) 0 table.size

end Ranges

end PayloadAtlas.Text
