import PayloadAtlas.Json.Decode
import PayloadAtlas.Json.Printer
import PayloadAtlas.Summary

/-!
# Summaries as JSON

How summaries and their parts are written as JSON values and read back. Fields that are optional are left
out when they are absent; when reading, every field may be missing and has a default then, except those
of models.
-/

namespace PayloadAtlas

open Json (Value Decoder)

/-- The bound of scores, which are written in 8 bits: less than `256`. -/
def scoreBound : Nat := 256

/-! ## Writing -/

/-- A member under `key` that is left out if there is nothing to `write`. -/
def optionalMember {α : Type} (key : String) (x : Option α) (write : α → Value) : Members :=
  match x with
  | some a => [(key, write a)]
  | none => []

/-- A field. -/
def Field.toJson (f : Field) : Value :=
  .object [("name", .string f.name), ("type_text", .string f.typeText),
    ("default_text", .string f.defaultText)]

/-- A list of fields. -/
def Field.listToJson (fs : List Field) : Value := .array (fs.map Field.toJson)

/-- A model. -/
def Model.toJson (m : Model) : Value :=
  .object [("name", .string m.name), ("module", .string m.module),
    ("fields", Field.listToJson m.fields), ("kind", .string m.kind.label)]

/-- A parameter. -/
def HandlerParameter.toJson (p : HandlerParameter) : Value :=
  .object ([("name", .string p.name), ("annotation_text", .string p.declaredType)]
    ++ optionalMember "model" p.model .string
    ++ optionalMember "model_fields" p.modelFields Field.listToJson
    ++ optionalMember "example_payload" p.example? .object)

/-- A shape. -/
def Shape.toJson (s : Shape) : Value :=
  .object ([("path", .string s.path), ("method", .string s.method),
      ("function", .string s.function), ("module", .string s.module),
      ("source_path", .string s.sourcePath),
      ("parameters", .array (s.parameters.map HandlerParameter.toJson)),
      ("registered", .bool s.registered), ("shape_score", .ofNat s.score)]
    ++ optionalMember "example_payload" s.example? .object)

/-- A drift. -/
def Drift.toJson (d : Drift) : Value :=
  .object [("added", .ofStrings d.added), ("removed", .ofStrings d.removed),
    ("changed", .ofStrings d.changed)]

/-- A summary. -/
def Summary.toJson (s : Summary) : Value :=
  .object [("timestamp", .string s.timestamp), ("shape_score_total", .ofNat s.scoreTotal),
    ("realm_metadata", s.realmMetadata), ("payload_shapes", .array (s.shapes.map Shape.toJson)),
    ("drift", s.drift.toJson)]

/-- A snapshot. -/
def Snapshot.toJson (s : Snapshot) : Value :=
  .object [("timestamp", .string s.timestamp), ("shape_score_total", .ofNat s.scoreTotal),
    ("payload_shapes_count", .ofNat s.shapeCount), ("drift", s.drift.toJson),
    ("realm_metadata", s.realmMetadata)]

/-! ## Reading -/

open Json.Decoder

/-- A field. -/
def Field.decoder : Decoder Field :=
  record [field "name" text fun x r => { r with name := x },
    field "type_text" text fun x r => { r with typeText := x },
    field "default_text" text fun x r => { r with defaultText := x }] {}

/-- The kind of a model: its name, or an object with its name alone and a null. -/
def ModelKind.decoder : Decoder ModelKind
  | depth, .object [(k, .null)] flaw => do
    Json.Raw.closed flaw (← ofName (← text depth (.string k)))
  | depth, r => do ofName (← text depth r)
where
  /-- The kind of a name. -/
  ofName (name : String) : Except Json.Flaw ModelKind :=
    match name with
    | "schema" => .ok .schema
    | "plain" => .ok .plain
    | _ => .error .mismatched

/-- A model as far as it has been read; `none` stands for what is still missing. -/
structure Model.Draft where
  name : Option String := none
  module : Option String := none
  fields : Option (List Field) := none
  kind : Option ModelKind := none

/-- A model; all its fields have to be there. -/
def Model.decoder : Decoder Model := fun depth raw => do
  let p ← record (ρ := Model.Draft)
    [field "name" text fun x r => { r with name := some x },
      field "module" text fun x r => { r with module := some x },
      field "fields" (list Field.decoder) fun x r => { r with fields := some x },
      field "kind" ModelKind.decoder fun x r => { r with kind := some x }] {} depth raw
  return ⟨← required p.name, ← required p.module, ← required p.fields, ← required p.kind⟩

/-- A parameter. -/
def HandlerParameter.decoder : Decoder HandlerParameter :=
  record [field "name" text fun x r => { r with name := x },
    field "annotation_text" text fun x r => { r with declaredType := x },
    field "model" (option text) fun x r => { r with model := x },
    field "model_fields" (option (list Field.decoder)) fun x r => { r with modelFields := x },
    field "example_payload" (option members) fun x r => { r with example? := x }] {}

/-- A shape. -/
def Shape.decoder : Decoder Shape :=
  record [field "path" text fun x r => { r with path := x },
    field "method" text fun x r => { r with method := x },
    field "function" text fun x r => { r with function := x },
    field "module" text fun x r => { r with module := x },
    field "source_path" text fun x r => { r with sourcePath := x },
    field "parameters" (list HandlerParameter.decoder) fun x r => { r with parameters := x },
    field "registered" bool fun x r => { r with registered := x },
    field "shape_score" (natBelow scoreBound) fun x r => { r with score := x },
    field "example_payload" (option members) fun x r => { r with example? := x }] {}

/-- A registered route. -/
def RegisteredRoute.decoder : Decoder RegisteredRoute :=
  record [field "file" text fun x r => { r with file := x },
    field "method" text fun x r => { r with method := x },
    field "path" text fun x r => { r with path := x }] {}

/-- A drift. -/
def Drift.decoder : Decoder Drift :=
  record [field "added" (list text) fun x r => { r with added := x },
    field "removed" (list text) fun x r => { r with removed := x },
    field "changed" (list text) fun x r => { r with changed := x }] {}

/-- A summary. -/
def Summary.decoder : Decoder Summary :=
  record [field "timestamp" text fun x r => { r with timestamp := x },
    field "shape_score_total" (natBelow scoreBound) fun x r => { r with scoreTotal := x },
    field "realm_metadata" value fun x r => { r with realmMetadata := x },
    field "payload_shapes" (list Shape.decoder) fun x r => { r with shapes := x },
    field "drift" Drift.decoder fun x r => { r with drift := x }] {}

/-! ## Texts -/

/-- The text of a summary, over several lines by `pretty`. -/
def Summary.toText (s : Summary) : String := s.toJson.pretty

/-- The summary of a text, by `Summary.decoder`. -/
def Summary.ofText (s : String) : Except Json.Flaw Summary := Decoder.ofText Summary.decoder s

end PayloadAtlas
