import PayloadAtlas.Store.Session
import PayloadAtlas.Text.Order

/-!
# Discovery of tables

What the rows of a discovery procedure say about which tables there are. The first row decides how all of
them are read: as names, as tables with their schemas, or as objects with the name of a table.
-/

namespace PayloadAtlas.Discovery

open Json (Value)

/-- How rows are read: as `names`, as `qualified` names with schemas, or as other `objects`. -/
inductive RowForm where
  | names
  | qualified
  | objects
  deriving DecidableEq, Repr

/-- The form of rows, by their `first` one. -/
def formOf (first : Value) : RowForm :=
  match first with
  | .string _ => .names
  | v =>
    if (v.get? "table_name").isSome && (v.get? "schema_name").isSome then .qualified else .objects

/-- The text of `key` in a row, unless it is empty. -/
def textAt? (key : String) (row : Value) : Option String := do
  let s ← (row.get? key).bind Value.string?
  if s = "" then none else some s

/-- The table that a row names in the `form`, if its schema is one of `allowed`. -/
def tableOf? (allowed : List String) (form : RowForm) (row : Value) : Option String :=
  match form with
  | .names => row.string?
  | .qualified => do
    let table ← textAt? "table_name" row
    let schema := ((row.get? "schema_name").bind Value.string?).getD Table.defaultSchema
    if schema ∈ allowed then some (schema ++ "." ++ table) else none
  | .objects => (textAt? "table_name" row).or (textAt? "tablename" row)

/-- The tables that `rows` name, as a `sortedSet` in order and each once. -/
def tables (rows : List Value) (allowed : List String) : List String :=
  match rows with
  | [] => []
  | first :: _ => Text.sortedSet (rows.filterMap (tableOf? allowed (formOf first)))

end PayloadAtlas.Discovery
