import PayloadAtlas.Association
import PayloadAtlas.Store.Session

/-!
# A store in memory

A store that holds its tables as lists of rows, in the order in which the rows came. A table has to be
there before anything is written to it. Failures can be arranged: of procedures, of reading a table, and
of writing to a table or to one row of it.
-/

namespace PayloadAtlas

open Json (Value)

/-- A store in memory. -/
structure MemoryStore where
  procedures : List (String × Value) := []
  /-- The tables by their texts. -/
  tables : List (String × List Value) := []
  failingProcedures : List String := []
  failingSelects : List String := []
  /-- Tables, or tables and keys with a colon between them. -/
  rejectedWrites : List String := []
  deriving Inhabited

namespace MemoryStore

/-- Gives a procedure its result. -/
def withProcedure (m : MemoryStore) (name : String) (result : Value) : MemoryStore :=
  { m with procedures := Association.set name result m.procedures }

/-- Makes a table with rows. -/
def withTable (m : MemoryStore) (table : String) (rows : List Value) : MemoryStore :=
  { m with tables := Association.set table rows m.tables }

/-- Lets a procedure fail. -/
def failingProcedure (m : MemoryStore) (name : String) : MemoryStore :=
  { m with failingProcedures := name :: m.failingProcedures }

/-- Lets reading a table fail. -/
def failingSelect (m : MemoryStore) (table : String) : MemoryStore :=
  { m with failingSelects := table :: m.failingSelects }

/-- Lets writing to a table, or to one row of it, be rejected. -/
def rejectingWrites (m : MemoryStore) (key : String) : MemoryStore :=
  { m with rejectedWrites := key :: m.rejectedWrites }

/-- The rows of a table; none, if there is no such table. -/
def rows (m : MemoryStore) (t : Table) : List Value := (m.tables.lookup t.toText).getD []

/-- The answer about a table that is not there. -/
def missingRelation (t : Table) : Response :=
  ⟨404, .object [("code", .string "42P01"),
    ("message", .string ("relation \"" ++ t.toText ++ "\" does not exist"))]⟩

/-- The answer to a rejected write. -/
def rejected (t : Table) : Response :=
  ⟨500, .object [("message", .string ("write to " ++ t.toText ++ " rejected"))]⟩

/-- Calls a procedure. -/
def rpc (m : MemoryStore) (name : String) : Answer :=
  if name ∈ m.failingProcedures then
    .error (.unavailable ("procedure " ++ name ++ " failed"))
  else
    match m.procedures.lookup name with
    | some result => .ok ⟨200, result⟩
    | none =>
      .ok ⟨404, .object [("message", .string ("function " ++ name ++ " does not exist"))]⟩

/-- Reads the first rows of a table. -/
def select (m : MemoryStore) (t : Table) (limit : Nat) : Answer :=
  if t.toText ∈ m.failingSelects then
    .error (.unavailable ("select on " ++ t.toText ++ " failed"))
  else
    match m.tables.lookup t.toText with
    | some rows => .ok ⟨200, .array (rows.take limit)⟩
    | none => .ok (missingRelation t)

/-- The value by which a row is found again. -/
def conflictValue (row : Value) (column : String) : Value := (row.get? column).getD .null

/-- Whether a row has a value in a column. -/
def holds (column : String) (v : Value) (row : Value) : Bool :=
  match row.get? column with
  | some w => w.same v
  | none => false

/-- Puts a row in the place of the first one with the same value in a column, or at the end. -/
def place (column : String) (row : Value) : List Value → List Value
  | [] => [row]
  | r :: rest =>
    if holds column (conflictValue row column) r then row :: rest else r :: place column row rest

/-- Writes a row over the one with the same value in a column. -/
def upsert (m : MemoryStore) (t : Table) (row : Value) (column : String) : Answer × MemoryStore :=
  let key := t.toText
  let rowKey := key ++ ":" ++ ((conflictValue row column).string?.getD "")
  if key ∈ m.rejectedWrites ∨ rowKey ∈ m.rejectedWrites then (.ok (rejected t), m)
  else
    match m.tables.lookup key with
    | none => (.ok (missingRelation t), m)
    | some rows => (.ok ⟨201, .array [row]⟩, m.withTable key (place column row rows))

/-- Adds a row. -/
def insert (m : MemoryStore) (t : Table) (row : Value) : Answer × MemoryStore :=
  let key := t.toText
  if key ∈ m.rejectedWrites then (.ok (rejected t), m)
  else
    match m.tables.lookup key with
    | none => (.ok (missingRelation t), m)
    | some rows => (.ok ⟨201, .null⟩, m.withTable key (rows ++ [row]))

/-- Answers a call. -/
def answer (c : Call) (m : MemoryStore) : Answer × MemoryStore :=
  match c with
  | .rpc name => (m.rpc name, m)
  | .select t _ limit => (m.select t limit, m)
  | .upsert t row column => m.upsert t row column
  | .insert t row => m.insert t row

end MemoryStore

end PayloadAtlas
