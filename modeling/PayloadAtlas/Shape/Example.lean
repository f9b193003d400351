import PayloadAtlas.Shape
import PayloadAtlas.Text.LetterCase
import PayloadAtlas.Text.Part

/-!
# Examples of models

An example of a model is an object with a value for each field. A strategy makes the values from the
names and annotations of the fields; the usual one looks for the names of types in the annotation.
-/

namespace PayloadAtlas

open Json (Value)

/-- How example values are made, from the name of a field and its annotation. -/
abbrev ExampleStrategy := String → String → Value

namespace ExampleStrategy

/-- The usual strategy: the first type, from `int` to `mapping`, whose name stands in the annotation, in whatever
case, counts. -/
def usual : ExampleStrategy := fun name declaredType =>
  let hint := Text.lowercase declaredType
  let has (needle : String) : Bool := Text.hasPart needle.toList hint.toList
  if has "int" || has "float" || has "decimal" then .ofNat 0
  else if has "bool" then .bool false
  else if has "list" || has "tuple" then .array []
  else if has "dict" || has "mapping" then .object []
  else if hint = "" then .string "example"
  else .string ("example_" ++ name)

/-- The example of a model with `fields`; a repeated name keeps its first place and takes the last value. -/
def object (strategy : ExampleStrategy) (fields : List Field) : Members :=
  Value.membersOf (fields.map fun f => (f.name, strategy f.name f.typeText))

end ExampleStrategy

end PayloadAtlas
