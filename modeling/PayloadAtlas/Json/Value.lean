import PayloadAtlas.Association
import PayloadAtlas.Json.Number

/-!
# JSON values

A value as data. The members of an object keep the order in which their keys were first set.
-/

namespace PayloadAtlas.Json

/-- A value. -/
inductive Value where
  | null
  | bool (b : Bool)
  | number (n : Number)
  | string (s : String)
  | array (items : List Value)
  | object (members : List (String × Value))
  deriving Inhabited

namespace Value

/-- The members that come of setting keys in order, each by `Association.set`. -/
def membersOf (entries : List (String × Value)) : List (String × Value) :=
  entries.foldl (fun ms (k, v) => Association.set k v ms) []

/-- An object whose keys differ. -/
def ofMembers (members : List (String × Value)) : Value := .object members

/-- A natural number. -/
def ofNat (n : Nat) : Value := .number (.integer n)

/-- A list of texts. -/
def ofStrings (xs : List String) : Value := .array (xs.map .string)

/-- The value of `key` in an object. -/
def get? (key : String) : Value → Option Value
  | .object ms => ms.lookup key
  | _ => none

/-- The text that a value is. -/
def string? : Value → Option String
  | .string s => some s
  | _ => none

mutual

/-- How deep arrays and objects nest. -/
def depth : Value → Nat
  | .array xs => depthOfItems xs + 1
  | .object ms => depthOfMembers ms + 1
  | _ => 0

/-- How deep the deepest of some values nests. -/
def depthOfItems : List Value → Nat
  | [] => 0
  | x :: xs => max (depth x) (depthOfItems xs)

/-- How deep the deepest of some members nests. -/
def depthOfMembers : List (String × Value) → Nat
  | [] => 0
  | (_, v) :: rest => max (depth v) (depthOfMembers rest)

end

mutual

/-- Whether two values are equal; the order of keys does not count, and numbers are compared by `Number.same`. -/
def same : Value → Value → Bool
  | .null, .null => true
  | .bool a, .bool b => a == b
  | .number m, .number n => m.same n
  | .string s, .string t => s == t
  | .array xs, .array ys => sameItems xs ys
  | .object ms, .object ns => ms.length == ns.length && sameMembers ms ns
  | _, _ => false

/-- Whether two lists are equal. -/
def sameItems : List Value → List Value → Bool
  | [], [] => true
  | x :: xs, y :: ys => same x y && sameItems xs ys
  | _, _ => false

/-- Whether each member is one of some others. -/
def sameMembers : List (String × Value) → List (String × Value) → Bool
  | [], _ => true
  | (k, v) :: rest, ns =>
    (match ns.lookup k with
      | some w => same v w
      | none => false) && sameMembers rest ns

end

end Value

end PayloadAtlas.Json
