import PayloadAtlas.Config
import PayloadAtlas.Store.Table
import PayloadAtlas.Summary.Codec
import PayloadAtlas.Text.LetterCase
import PayloadAtlas.Text.Part

/-!
# Records

The rows that a synchronisation writes: one for each table that was found, with the routes that belong to
it, and one for the synchronisation itself.
-/

namespace PayloadAtlas

open Json (Value)

/-- The paths of the shapes of a summary that have `name` in them, when both are in `lowercase`. -/
def Summary.routesForTable (s : Summary) (name : String) : List String :=
  let needle := (Text.lowercase name).toList
  (s.shapes.filter fun shape => Text.hasPart needle (Text.lowercase shape.path).toList).map
    Shape.path

namespace Record

/-- Columns of the type `unknown`. -/
def columns (names : List String) : Value :=
  .array (names.map fun n => .object [("name", .string n), ("type", .string "unknown")])

/-- A list of documents, or `null` if it is empty. -/
def documents (refs : List String) : Value :=
  if refs.isEmpty then .null else .ofStrings refs

/-- The record of a table, under `table_name`, with the `routesForTable` of its name. -/
def ofTable (s : Summary) (table : String) (columnNames refs : List String) (time : String) :
    Value :=
  let t := Table.ofString table
  .object [("table_name", .string table), ("routes", .ofStrings (s.routesForTable t.name)),
    ("columns", columns columnNames), ("synced_at", .string time),
    ("shape_score_total", .ofNat s.scoreTotal), ("schema_name", .string t.schemaOrDefault),
    ("policy_info", .array []), ("summary_snapshot", s.snapshot.toJson),
    ("document_refs", documents refs)]

/-- The record of a synchronisation, with both lists and a snapshot of the summary. -/
def ofEvent (s : Summary) (eventType : String) (tables refs : List String) (time : String) :
    Value :=
  .object [("run_id", .string s.timestamp), ("event_type", .string eventType),
    ("event_time", .string time), ("synced_tables", .ofStrings tables),
    ("document_refs", .ofStrings refs), ("summary_snapshot", s.snapshot.toJson),
    ("payload_count", .ofNat s.shapes.length)]

end Record

end PayloadAtlas
