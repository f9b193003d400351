/-!
# Sorted texts

Texts are ordered by their characters' code points, which is the order of their UTF-8 bytes.
-/

namespace PayloadAtlas.Text

/-- Whether one text does not come after another. -/
def notAfter (a b : String) : Bool := !decide (b < a)

/-- Texts in order; equal ones stay. -/
def sorted (xs : List String) : List String := xs.mergeSort notAfter

/-- A sorted list without the repetitions. -/
def dropRepeats : List String → List String
  | [] => []
  | x :: rest =>
    match dropRepeats rest with
    | [] => [x]
    | y :: ys => if x = y then y :: ys else x :: y :: ys

/-- The texts of a list in order, each once. -/
def sortedSet (xs : List String) : List String := dropRepeats (sorted xs)

end PayloadAtlas.Text
