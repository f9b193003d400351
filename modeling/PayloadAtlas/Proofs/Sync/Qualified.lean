import PayloadAtlas.Proofs.Sync.Course
import PayloadAtlas.Proofs.Sync.Discovery

/-!
# Tables with their schemas

A table in a schema is written as one text with a dot between the two, and a text is cut again at its first dot. The
table that was written comes back if and only if that is the dot that was put there (`Table.ofString_toText_iff`).

So, where no allowed schema has a dot, rows that are read with their schemas give one name to two tables only if these
are the same, and whatever is asked and written for a name is about the schema and the table of the row that it comes
from (`names_tell_tables`). Dots in the names of the tables do no harm.
-/

namespace PayloadAtlas

open Json (Value)

/-! ## Texts of tables -/

namespace Table

theorem cutAtDot_append {a : List Char} (h : '.' ∉ a) (b : List Char) : cutAtDot (a ++ '.' :: b) = some (a, b) := by
  induction a with
  | nil => rfl
  | cons c a ih =>
    rw [List.mem_cons, not_or] at h
    rw [List.cons_append, cutAtDot, if_neg (Ne.symm h.1), ih h.2]
    rfl

/-- There is no dot before the cut. -/
theorem notMem_of_cutAtDot {cs a b : List Char} (h : cutAtDot cs = some (a, b)) : '.' ∉ a := by
  induction cs generalizing a with
  | nil => cases h
  | cons c cs ih =>
    rw [cutAtDot] at h
    split at h
    · cases h
      exact List.not_mem_nil
    · next hc =>
      obtain ⟨⟨a', b'⟩, hcut, heq⟩ := Option.map_eq_some_iff.mp h
      cases heq
      rw [List.mem_cons, not_or]
      exact ⟨Ne.symm hc, ih hcut⟩

/-- A text without dots is not cut, and no other one. -/
theorem cutAtDot_eq_none_iff {cs : List Char} : cutAtDot cs = none ↔ '.' ∉ cs := by
  induction cs with
  | nil => simp [cutAtDot]
  | cons c cs ih =>
    rw [cutAtDot, List.mem_cons, not_or, ← ih]
    by_cases hc : c = '.'
    · simp [hc]
    · rw [if_neg hc, Option.map_eq_none_iff]
      exact (and_iff_right (Ne.symm hc)).symm

theorem toList_toText (schema name : String) :
    (toText ⟨some schema, name⟩).toList = schema.toList ++ '.' :: name.toList := by
  simp [toText]

/-- A text is read as what is before and after the cut. -/
theorem ofString_of_cutAtDot {s : String} {a b : List Char} (h : cutAtDot s.toList = some (a, b)) :
    ofString s = ⟨some (String.ofList a), String.ofList b⟩ := by
  rw [ofString, h]

/-- A table in a schema without dots comes back from `toText`, whatever its name. -/
theorem ofString_toText_of_schema {schema : String} (h : '.' ∉ schema.toList) (name : String) :
    ofString (toText ⟨some schema, name⟩) = ⟨some schema, name⟩ := by
  have hcut : cutAtDot (toText ⟨some schema, name⟩).toList = some (schema.toList, name.toList) := by
    rw [toList_toText, cutAtDot_append h]
  rw [ofString_of_cutAtDot hcut, String.ofList_toList, String.ofList_toList]

/-- A table comes back from `toText` if and only if its schema has no dot, or it has no schema and its name has no
dot. -/
theorem ofString_toText_iff (t : Table) :
    ofString t.toText = t ↔
      (∃ schema, t.schema = some schema ∧ '.' ∉ schema.toList) ∨ t.schema = none ∧ '.' ∉ t.name.toList := by
  obtain ⟨schema, name⟩ := t
  cases schema with
  | some schema =>
    simp only [Option.some.injEq, exists_eq_left', reduceCtorEq, false_and, or_false]
    refine ⟨fun h => ?_, fun h => ofString_toText_of_schema h name⟩
    -- the text has a dot, so it is cut, and what is before the cut is the schema
    obtain ⟨⟨a, b⟩, hcut⟩ : ∃ p, cutAtDot (toText ⟨some schema, name⟩).toList = some p := by
      rw [← Option.ne_none_iff_exists', ne_eq, cutAtDot_eq_none_iff, toList_toText]
      simp
    rw [ofString_of_cutAtDot hcut] at h
    have hschema : String.ofList a = schema := Option.some.inj (congrArg Table.schema h)
    rw [← hschema, String.toList_ofList]
    exact notMem_of_cutAtDot hcut
  | none =>
    simp only [reduceCtorEq, false_and, exists_false, false_or, true_and]
    rw [← cutAtDot_eq_none_iff]
    show ofString name = ⟨none, name⟩ ↔ _
    rw [ofString]
    cases cutAtDot name.toList with
    | none => exact iff_of_true rfl rfl
    | some p => simp

end Table

/-! ## Rows of tables -/

namespace Discovery

variable {allowed : List String} {rows : List Value} {row : Value} {key name schema table schema' table' : String}

/-- A row is of the `table` in the `schema`. Rows without the text of a schema are of the default one. -/
structure IsOf (row : Value) (schema table : String) : Prop where
  table_eq : row.get? "table_name" = some (.string table)
  table_ne : table ≠ ""
  schema_eq : ((row.get? "schema_name").bind Value.string?).getD Table.defaultSchema = schema

/-- A row is of one table only. -/
theorem IsOf.unique (h : IsOf row schema table) (h' : IsOf row schema' table') :
    schema = schema' ∧ table = table' :=
  ⟨h.schema_eq.symm.trans h'.schema_eq, Value.string.inj (Option.some.inj (h.table_eq.symm.trans h'.table_eq))⟩

/-- A text is read where there is one that is not empty. -/
theorem textAt?_eq_some_iff :
    textAt? key row = some table ↔ row.get? key = some (.string table) ∧ table ≠ "" := by
  unfold textAt?
  cases row.get? key with
  | none => simp
  | some v =>
    cases v with
    | string s =>
      simp only [Option.bind_some, Value.string?, Option.bind_eq_bind, Option.ite_none_left_eq_some,
        Option.some.injEq, Value.string.injEq]
      constructor
      · rintro ⟨hs, rfl⟩
        exact ⟨rfl, hs⟩
      · rintro ⟨rfl, hs⟩
        exact ⟨hs, rfl⟩
    | _ => simp [Value.string?]

/-- Read with its schema, a row names the `toText` of its table if the schema is allowed. -/
theorem tableOf?_qualified_iff :
    tableOf? allowed .qualified row = some name ↔
      ∃ schema table, IsOf row schema table ∧ schema ∈ allowed ∧ name = (Table.mk (some schema) table).toText := by
  rw [tableOf?, Option.bind_eq_bind, Option.bind_eq_some_iff]
  simp only [textAt?_eq_some_iff, Option.ite_none_right_eq_some, Option.some.injEq]
  constructor
  · rintro ⟨table, ⟨htable, hne⟩, hallowed, rfl⟩
    exact ⟨_, table, ⟨htable, hne, rfl⟩, hallowed, rfl⟩
  · rintro ⟨schema, table, ⟨htable, hne, rfl⟩, hallowed, rfl⟩
    exact ⟨table, ⟨htable, hne⟩, hallowed, rfl⟩

theorem formOf_of_isQualified (h : IsQualified row) : formOf row = .qualified := by
  rcases formOf_cases row with ⟨⟨s, rfl⟩, -⟩ | ⟨-, hform⟩ | ⟨-, hnot, -⟩
  · cases h.1
  · exact hform
  · exact absurd h hnot

/-- In a list that begins with a qualified row, a row `Gives` the `toText` of its table. -/
theorem gives_iff_of_qualified (hrows : ∃ first ∈ rows.head?, IsQualified first) :
    Gives allowed rows row name ↔
      row ∈ rows ∧ ∃ schema table, IsOf row schema table ∧ schema ∈ allowed ∧
        name = (Table.mk (some schema) table).toText := by
  obtain ⟨first, hfirst, hqualified⟩ := hrows
  rw [← tableOf?_qualified_iff, ← formOf_of_isQualified hqualified]
  refine and_congr_right fun _ => ⟨?_, fun h => ⟨first, hfirst, h⟩⟩
  rintro ⟨first', hfirst', h⟩
  rwa [Option.mem_unique hfirst hfirst']

/-! ## What is written for a name -/

open Sync (RecordWrite writeTables registryTable)
open Session (World exchanges)

/-- What is asked and written for a name is about the `table` in the `schema`. -/
structure IsAbout (c : SyncConfig) (s : Summary) (refs : List String) (schema table : String) (rw : RecordWrite) :
    Prop where
  sampled : (rw.exchanges c s refs).map Prod.fst =
    [.select ⟨some schema, table⟩ "*" 1, .upsert (registryTable c) (rw.record s refs) "table_name"]
  key : (rw.record s refs).get? "table_name" = some (.string (Table.mk (some schema) table).toText)
  schema : (rw.record s refs).get? "schema_name" = some (.string schema)
  routes : (rw.record s refs).get? "routes" = some (.ofStrings (s.routesForTable table))

/-- A name that is the `toText` of a table in a schema without dots is about that table. -/
theorem isAbout_of_table (c : SyncConfig) (s : Summary) (refs : List String) {rw : RecordWrite}
    (hschema : '.' ∉ schema.toList) (h : rw.table = (Table.mk (some schema) table).toText) :
    IsAbout c s refs schema table rw := by
  have htable : Table.ofString rw.table = ⟨some schema, table⟩ := by
    rw [h, Table.ofString_toText_of_schema hschema]
  refine ⟨?_, ?_, ?_, ?_⟩
  · rw [RecordWrite.exchanges, htable]
    rfl
  · rw [← h]
    rfl
  · show some (Value.string (Table.ofString rw.table).schemaOrDefault) = _
    rw [htable]
    rfl
  · show some (Value.ofStrings (s.routesForTable (Table.ofString rw.table).name)) = _
    rw [htable]

/-- A text is what its table is written as, and a table comes back from its text unless there is a dot before the one
that is put there. So where no allowed schema has a dot the names of rows that are read with schemas tell their tables
and schemas, and what is asked and written for a name is about those. -/
theorem names_tell_tables :
    (∀ q, (Table.ofString q).toText = q) ∧
      (∀ t : Table, Table.ofString t.toText = t ↔
        (∃ schema, t.schema = some schema ∧ '.' ∉ schema.toList) ∨ t.schema = none ∧ '.' ∉ t.name.toList) ∧
      ∀ rows allowed, (∃ first ∈ rows.head?, IsQualified first) → (∀ schema ∈ allowed, '.' ∉ schema.toList) →
        (∀ row row' name name' schema table schema' table', Gives allowed rows row name → IsOf row schema table →
          Gives allowed rows row' name' → IsOf row' schema' table' →
            (name = name' ↔ schema = schema' ∧ table = table')) ∧
        ∀ (σ : Type) (w : World σ) (x : σ) (c : SyncConfig) (s : Summary) (refs : List String),
          ∃ rws : List RecordWrite, rws.map (·.table) = tables rows allowed ∧
            exchanges w (writeTables c s refs (tables rows allowed)) x = rws.flatMap (·.exchanges c s refs) ∧
            ∀ rw ∈ rws, (∃ row schema table, Gives allowed rows row rw.table ∧ IsOf row schema table) ∧
              ∀ row schema table, Gives allowed rows row rw.table → IsOf row schema table →
                IsAbout c s refs schema table rw := by
  refine ⟨Table.toText_ofString, Table.ofString_toText_iff, fun rows allowed hrows hallowed => ?_⟩
  -- the name that a row gives is the text of its table
  have hname : ∀ {row name schema table}, Gives allowed rows row name → IsOf row schema table →
      '.' ∉ schema.toList ∧ name = (Table.mk (some schema) table).toText := by
    intro row name schema table hgives hof
    obtain ⟨-, schema', table', hof', hmem, rfl⟩ := (gives_iff_of_qualified hrows).mp hgives
    obtain ⟨rfl, rfl⟩ := hof.unique hof'
    exact ⟨hallowed schema hmem, rfl⟩
  constructor
  · intro row row' name name' schema table schema' table' hgives hof hgives' hof'
    obtain ⟨hschema, rfl⟩ := hname hgives hof
    obtain ⟨hschema', rfl⟩ := hname hgives' hof'
    constructor
    · intro heq
      have htable := congrArg Table.ofString heq
      rw [Table.ofString_toText_of_schema hschema, Table.ofString_toText_of_schema hschema'] at htable
      cases htable
      exact ⟨rfl, rfl⟩
    · rintro ⟨rfl, rfl⟩
      rfl
  · intro σ w x c s refs
    obtain ⟨rws, htables, hexchanges, -⟩ := Sync.exchanges_writeTables w x c s refs (tables rows allowed)
    refine ⟨rws, htables, hexchanges, fun rw hrw => ⟨?_, fun row schema table hgives hof => ?_⟩⟩
    · have hmem : rw.table ∈ tables rows allowed := htables ▸ List.mem_map_of_mem hrw
      obtain ⟨row, hgives⟩ := mem_tables_iff.mp hmem
      obtain ⟨-, schema, table, hof, -⟩ := (gives_iff_of_qualified hrows).mp hgives
      exact ⟨row, schema, table, hgives, hof⟩
    · obtain ⟨hschema, htable⟩ := hname hgives hof
      exact isAbout_of_table c s refs hschema htable

/-- Rows of two schemas, one of them without the text of it, with the same name `notes.old` that has a dot. -/
def dottedRows : List Value :=
  [.object [("schema_name", .string "kitenga"), ("table_name", .string "notes.old")],
    .object [("table_name", .string "notes.old"), ("schema_name", .null)]]

theorem names_tell_tables_dotted :
    let allowed := ["public", "kitenga"]
    (∃ first ∈ dottedRows.head?, IsQualified first) ∧ (∀ schema ∈ allowed, '.' ∉ schema.toList) ∧
      tables dottedRows allowed = ["kitenga.notes.old", "public.notes.old"] ∧
      (∀ row row' name name' schema table schema' table', Gives allowed dottedRows row name → IsOf row schema table →
        Gives allowed dottedRows row' name' → IsOf row' schema' table' →
          (name = name' ↔ schema = schema' ∧ table = table')) ∧
      ∀ (σ : Type) (w : World σ) (x : σ) (c : SyncConfig) (s : Summary) (refs : List String),
        ∃ rws : List RecordWrite, rws.map (·.table) = tables dottedRows allowed ∧
          exchanges w (writeTables c s refs (tables dottedRows allowed)) x = rws.flatMap (·.exchanges c s refs) ∧
          ∀ rw ∈ rws, (∃ row schema table, Gives allowed dottedRows row rw.table ∧ IsOf row schema table) ∧
            ∀ row schema table, Gives allowed dottedRows row rw.table → IsOf row schema table →
              IsAbout c s refs schema table rw := by
  intro allowed
  have hrows : ∃ first ∈ dottedRows.head?, IsQualified first := ⟨_, rfl, rfl, rfl⟩
  have hallowed : ∀ schema ∈ allowed, '.' ∉ schema.toList := by decide
  have htables : tables dottedRows allowed = ["kitenga.notes.old", "public.notes.old"] :=
    Text.sortedSet_of_pairwise (by decide)
  exact ⟨hrows, hallowed, htables, names_tell_tables.2.2 dottedRows allowed hrows hallowed⟩

end Discovery

end PayloadAtlas
