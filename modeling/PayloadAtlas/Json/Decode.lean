import PayloadAtlas.Json.Raw

/-!
# Data from JSON

A `Decoder` makes data of what a text or a value says. The flaws of a text and the places where it says
something else than what is asked for are met in the order of the text, and the first one counts.

A record is an object whose keys name the fields, in any order, unknown keys being passed over; or an
array that lists the fields in order. Fields that are not given keep the value that they had.
-/

namespace PayloadAtlas.Json

/-- Makes data of JSON; the number says how deep arrays and objects may nest, as in `nestingLimit`. -/
abbrev Decoder (α : Type) := Nat → Raw → Except Flaw α

namespace Decoder

variable {α ρ : Type}

/-- What is wrong with a value of another kind. Arrays and objects are not looked into, so that their flaws do not
count. -/
def mismatch : Raw → Flaw
  | .string q =>
    match q.toText with
    | .ok _ => .mismatched
    | .error f => f
  | .number none => .malformed
  | .broken flaw _ => flaw
  | _ => .mismatched

/-- A text. -/
def text : Decoder String
  | _, .string q => q.toText
  | _, r => .error (mismatch r)

/-- A truth value. -/
def bool : Decoder Bool
  | _, .bool b => .ok b
  | _, r => .error (mismatch r)

/-- A natural number below `bound`. -/
def natBelow (bound : Nat) : Decoder Nat
  | _, .number (some (.integer n)) =>
    if 0 ≤ n ∧ n < bound then .ok n.toNat else .error .mismatched
  | _, r => .error (mismatch r)

/-- Any value. -/
def value : Decoder Value := Raw.toValue

/-- The members of an object. -/
def members : Decoder (List (String × Value))
  | depth, .object es flaw => do
    match ← Raw.toValue depth (.object es flaw) with
    | .object ms => .ok ms
    | _ => .error .mismatched
  | _, r => .error (mismatch r)

/-- Data by `d`, or `none` for `null`. -/
def option (d : Decoder α) : Decoder (Option α)
  | _, .null => .ok none
  | depth, r => (d depth r).map some

/-- The data of all items by `d`, one after the other. -/
def items (d : Decoder α) (depth : Nat) : List Raw → Except Flaw (List α)
  | [] => .ok []
  | x :: xs => do return (← d depth x) :: (← items d depth xs)

/-- A list. -/
def list (d : Decoder α) : Decoder (List α)
  | 0, .array .. => .error .malformed
  | depth + 1, .array xs flaw => do Raw.closed flaw (← items d depth xs)
  | _, r => .error (mismatch r)

/-- A field of a record `ρ`: its key, and how it is read into a record. -/
structure FieldOf (ρ : Type) where
  key : String
  read : Nat → Raw → ρ → Except Flaw ρ

/-- A field that is `set` to what the decoder `d` makes. -/
def field (key : String) (d : Decoder α) (set : α → ρ → ρ) : FieldOf ρ where
  key
  read := fun depth x r => (d depth x).map (set · r)

/-- Reads fields in their order, as the items of an array. -/
def byPosition (depth : Nat) (flaw : Option Flaw) :
    List (FieldOf ρ) → List Raw → ρ → Except Flaw ρ
  | _, [], r => Raw.closed flaw r
  | [], _ :: _, _ => .error .malformed
  | f :: fs, x :: xs, r => do byPosition depth flaw fs xs (← f.read depth x r)

/-- Reads fields by their keys; a key may come once, and those in `seen` have come. -/
def byKey (fields : List (FieldOf ρ)) (depth : Nat) (flaw : Option Flaw) (seen : List String) :
    List (Quoted × Raw) → ρ → Except Flaw ρ
  | [], r => Raw.closed flaw r
  | (k, x) :: rest, r => do
    let key ← k.toText
    match fields.find? (·.key = key) with
    | some f =>
      if key ∈ seen then .error .mismatched
      else byKey fields depth flaw (key :: seen) rest (← f.read depth x r)
    | none =>
      match x.flaw? with
      | some f => .error f
      | none => byKey fields depth flaw seen rest r

/-- A record whose fields start with those of `start`; it may be an object or an array. -/
def record (fields : List (FieldOf ρ)) (start : ρ) : Decoder ρ
  | 0, .array .. => .error .malformed
  | 0, .object .. => .error .malformed
  | depth + 1, .array xs flaw => byPosition depth flaw fields xs start
  | depth + 1, .object es flaw => byKey fields depth flaw [] es start
  | _, r => .error (mismatch r)

/-- What is there, or a `mismatch`. -/
def required (x : Option α) : Except Flaw α :=
  match x with
  | some a => .ok a
  | none => .error .mismatched

/-- How deep arrays and objects may nest in a text. -/
def nestingLimit : Nat := 127

/-- The data of a text, within `nestingLimit`. Nothing but blanks may follow it. -/
def ofText (d : Decoder α) (s : String) : Except Flaw α := do
  let doc := Document.read s
  let a ← d nestingLimit doc.root
  if doc.trailing then .error .malformed else .ok a

/-- The data of a value, however deep it nests. -/
def ofValue (d : Decoder α) (v : Value) : Except Flaw α := d v.depth (Raw.ofValue v)

end Decoder

namespace Value

/-- The value of a text, however deep it nests; for texts that are known to be whole. -/
def ofText (s : String) : Except Flaw Value :=
  let doc := Document.read s
  match Raw.toValue s.length doc.root with
  | .error f => .error f
  | .ok v => if doc.trailing then .error .malformed else .ok v

end Value

end PayloadAtlas.Json
