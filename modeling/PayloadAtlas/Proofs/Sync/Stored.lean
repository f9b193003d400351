import PayloadAtlas.Proofs.Store.Conversation
import PayloadAtlas.Proofs.Store.Memory
import PayloadAtlas.Proofs.Sync.Course
import PayloadAtlas.Proofs.Sync.Row

/-!
# What a synchronisation leaves in a store

For a store in memory that has the three tables (`HasTables`), it can be said what is in them afterwards
(`Stored`): the documents and the records that the store takes were placed among the rows that had been
there, each over the row with its key, and an event came last. This is said without times, as the clock may
show any.

The one thing in a record that depends on the store is the columns that are seen of its table (`seen`). A
synchronisation writes to three of the tables that it may look at, so that it can see its own rows there. Of
the registry it sees what the records before have made of the first row (`headColumns`).
-/

namespace PayloadAtlas

open Json (Value)

/-! ## Records and their columns -/

namespace Record

/-- The keys of a record of a table, in the order of `ofTable`. -/
def keys : List String :=
  ["table_name", "routes", "columns", "synced_at", "shape_score_total", "schema_name", "policy_info",
    "summary_snapshot", "document_refs"]

/-- The keys of a record of a synchronisation, in the order of `ofEvent`. -/
def eventKeys : List String :=
  ["run_id", "event_type", "event_time", "synced_tables", "document_refs", "summary_snapshot",
    "payload_count"]

/-- A record of a table without its `synced_at`. -/
def undated (s : Summary) (refs columnNames : List String) (table : String) : Value :=
  timeless (ofTable s table columnNames refs "")

/-- A record has the `keys`, whatever is known about the table. -/
theorem keys_ofTable (s : Summary) (table : String) (columnNames refs : List String) (time : String) :
    (ofTable s table columnNames refs time).keys = keys := rfl

/-- An event has the `eventKeys`. -/
theorem keys_ofEvent (s : Summary) (eventType : String) (tables refs : List String) (time : String) :
    (ofEvent s eventType tables refs time).keys = eventKeys := rfl

theorem get?_undated (s : Summary) (refs columnNames : List String) (table : String) :
    (undated s refs columnNames table).get? "table_name" = some (.string table) := rfl

/-- The `columns` that a record tells of. -/
def columnNames (row : Value) : List String :=
  match row.get? "columns" with
  | some (.array xs) => xs.filterMap fun x => (x.get? "name").bind Value.string?
  | _ => []

theorem columnNames_undated (s : Summary) (refs names : List String) (table : String) :
    columnNames (undated s refs names table) = names := by
  show (names.map fun n => Value.object [("name", .string n), ("type", .string "unknown")]).filterMap
    (fun x => (x.get? "name").bind Value.string?) = names
  rw [List.filterMap_map]
  exact List.filterMap_some

/-- Records of one table differ in their columns only. -/
theorem undated_inj {s : Summary} {refs xs ys : List String} {table : String} :
    undated s refs xs table = undated s refs ys table ↔ xs = ys := by
  refine ⟨fun h => ?_, fun h => by rw [h]⟩
  rw [← columnNames_undated s refs xs table, h, columnNames_undated]

end Record

namespace MemoryStore

/-- The `keys` of the first of some rows, or none. -/
def firstKeys : List Value → List String
  | [] => []
  | first :: _ => first.keys

/-- The store `m'` does as `m` did, but for its rows. -/
structure SameRules (m m' : MemoryStore) : Prop where
  procedures : m'.procedures = m.procedures
  failingProcedures : m'.failingProcedures = m.failingProcedures
  failingSelects : m'.failingSelects = m.failingSelects
  rejectedWrites : m'.rejectedWrites = m.rejectedWrites

/-- Other rows in a table leave the rules as they are. -/
theorem SameRules.withTable {m m' : MemoryStore} (h : SameRules m m') (key : String)
    (rows : List Value) : SameRules m (m'.withTable key rows) :=
  ⟨h.procedures, h.failingProcedures, h.failingSelects, h.rejectedWrites⟩

theorem SameRules.rpc_eq {m m' : MemoryStore} (h : SameRules m m') (name : String) :
    m'.rpc name = m.rpc name := by
  rw [rpc, rpc, h.procedures, h.failingProcedures]

/-- Whether a row is taken depends on the rules only. -/
theorem SameRules.takes_iff {m m' : MemoryStore} (h : SameRules m m') (t : Table) (k : String) :
    m'.Takes t k ↔ m.Takes t k := by
  rw [Takes, Takes, h.rejectedWrites]

end MemoryStore

namespace Sync

open MemoryStore (world firstKeys placeAll textAt)

/-- Sampling a table tells the `firstKeys` of its rows, if it can be read. -/
theorem columnsOf_select (m : MemoryStore) (t : Table) :
    columnsOf (m.select t 1) =
      if t.toText ∈ m.failingSelects then [] else firstKeys (m.rows t) := by
  rw [MemoryStore.select, MemoryStore.rows]
  split
  · rfl
  · cases m.tables.lookup t.toText with
    | none => rfl
    | some rows =>
      cases rows with
      | nil => rfl
      | cons first rest => cases first <;> rfl

/-! ## The three tables -/

/-- A store has the registry, the documents and the events, and these are three tables. -/
structure HasTables (c : SyncConfig) (m : MemoryStore) : Prop where
  registry : m.Has (registryTable c)
  documents : m.Has (documentsTable c)
  events : m.Has (eventsTable c)
  nodup : [registryTable c, documentsTable c, eventsTable c].Nodup

theorem toText_inj {schema a b : String} :
    (⟨some schema, a⟩ : Table).toText = (⟨some schema, b⟩ : Table).toText ↔ a = b := by
  rw [← String.toList_inj, ← String.toList_inj]
  simp [Table.toText]

/-- Three tables in one schema have different texts, so that no call for one goes to another. -/
theorem texts_ne_of_nodup {c : SyncConfig}
    (h : [registryTable c, documentsTable c, eventsTable c].Nodup) :
    (registryTable c).toText ≠ (documentsTable c).toText ∧
      (registryTable c).toText ≠ (eventsTable c).toText ∧
      (documentsTable c).toText ≠ (eventsTable c).toText := by
  simp only [registryTable, documentsTable, eventsTable, List.nodup_cons, List.mem_cons,
    Table.mk.injEq, true_and, List.not_mem_nil, or_false, not_or, and_assoc] at h
  simp only [registryTable, documentsTable, eventsTable, ne_eq, toText_inj]
  exact ⟨h.1, h.2.1, h.2.2.1⟩

namespace HasTables

variable {c : SyncConfig} {m : MemoryStore} (h : HasTables c m)

include h

theorem texts_ne :
    (registryTable c).toText ≠ (documentsTable c).toText ∧
      (registryTable c).toText ≠ (eventsTable c).toText ∧
      (documentsTable c).toText ≠ (eventsTable c).toText :=
  texts_ne_of_nodup h.nodup

theorem withTable (key : String) (rows : List Value) : HasTables c (m.withTable key rows) :=
  ⟨h.registry.withTable, h.documents.withTable, h.events.withTable, h.nodup⟩

end HasTables

/-! ## What is seen of a table -/

/-- The columns of the first row of the registry, when the records of the tables `written` were written. -/
def headColumns (rows : List Value) (written : List String) : List String :=
  match rows with
  | [] => if written = [] then [] else Record.keys
  | first :: _ =>
    if ∃ t ∈ written, textAt "table_name" first = some t then Record.keys else first.keys

/-- The columns that are seen of a table by a synchronisation that starts with the store `m` and ends with `m'`, when
the records of the tables `written` were written. -/
def seen (c : SyncConfig) (m m' : MemoryStore) (written : List String) (table : String) :
    List String :=
  if table ∈ m.failingSelects then []
  else if table = (registryTable c).toText then headColumns (m.rows (registryTable c)) written
  else if table = (documentsTable c).toText then firstKeys (m'.rows (documentsTable c))
  else firstKeys (m.rows (Table.ofString table))

/-- Before any record is written, the first row has its own columns. -/
theorem headColumns_nil (rows : List Value) : headColumns rows [] = firstKeys rows := by
  cases rows <;> simp [headColumns, firstKeys]

/-- One record that is placed is one more that was written. -/
theorem headColumns_place {row : Value} {table : String} (written : List String) (rows : List Value)
    (hrow : row.get? "table_name" = some (.string table)) (hkeys : row.keys = Record.keys) :
    headColumns (MemoryStore.place "table_name" row rows) written =
      headColumns rows (table :: written) := by
  cases rows with
  | nil => simp [MemoryStore.place, headColumns, hkeys]
  | cons first rest =>
    have htext := MemoryStore.textAt_of_get? hrow
    rw [MemoryStore.place_cons hrow, htext]
    by_cases hfirst : textAt "table_name" first = some table
    · simp [headColumns, hfirst, hkeys]
    · simp [headColumns, hfirst]

/-- So it is for many, by induction on them. -/
theorem headColumns_placeAll {f : String → Value}
    (hf : ∀ t, (f t).get? "table_name" = some (.string t)) (hkeys : ∀ t, (f t).keys = Record.keys)
    (tables written : List String) (rows : List Value) :
    headColumns (placeAll "table_name" (tables.map f) rows) written =
      headColumns rows (tables ++ written) := by
  induction tables generalizing rows with
  | nil => rfl
  | cons table rest ih =>
    rw [List.map_cons, placeAll, List.foldl_cons, ← placeAll, ih,
      headColumns_place _ rows (hf table) (hkeys table), List.cons_append]

theorem headColumns_timeless (rows : List Value) (written : List String) :
    headColumns (rows.map Record.timeless) written = headColumns rows written := by
  cases rows with
  | nil => rfl
  | cons first rest =>
    have htext : textAt "table_name" (Record.timeless first) = textAt "table_name" first := by
      rw [textAt, Record.get?_timeless, textAt]
    simp only [List.map_cons, headColumns, htext, Record.keys_timeless]

/-- The times of the documents do not change their columns. -/
theorem firstKeys_timeless (rows : List Value) :
    firstKeys (rows.map Document.timeless) = firstKeys rows := by
  cases rows with
  | nil => rfl
  | cons first rest => exact Document.keys_timeless first

/-- It only counts which records were written. -/
theorem headColumns_congr {written written' : List String} (h : ∀ t, t ∈ written ↔ t ∈ written')
    (rows : List Value) : headColumns rows written = headColumns rows written' := by
  cases rows with
  | nil =>
    have hnil : written = [] ↔ written' = [] := by
      simp only [List.eq_nil_iff_forall_not_mem, h]
    simp only [headColumns, hnil]
  | cons first rest => simp only [headColumns, h]

theorem rows_ofString (m : MemoryStore) (t : Table) : m.rows (Table.ofString t.toText) = m.rows t := by
  rw [MemoryStore.rows, Table.toText_ofString, MemoryStore.rows]

/-- Sampling a table by its text tells what is `seen` of it before anything is written. -/
theorem columnsOf_select_ofString (c : SyncConfig) (m : MemoryStore) (table : String) :
    columnsOf (m.select (Table.ofString table) 1) = seen c m m [] table := by
  rw [columnsOf_select, Table.toText_ofString, seen, headColumns_nil]
  split
  · rfl
  · split
    · next htable => rw [htable, rows_ofString]
    · split
      · next htable => rw [htable, rows_ofString]
      · rfl

/-- What is `seen` depends on the rows that are looked at. -/
theorem seen_congr {c : SyncConfig} {m m' μ μ' : MemoryStore}
    (hselects : μ.failingSelects = m.failingSelects)
    (hregistry : μ.rows (registryTable c) = m.rows (registryTable c))
    (hdocuments : μ'.rows (documentsTable c) = m'.rows (documentsTable c))
    (hothers : ∀ t : Table, t.toText ≠ (registryTable c).toText →
      t.toText ≠ (documentsTable c).toText → μ.rows t = m.rows t)
    (written : List String) (table : String) :
    seen c μ μ' written table = seen c m m' written table := by
  rw [seen, seen, hselects, hregistry, hdocuments]
  by_cases hreg : table = (registryTable c).toText
  · rw [if_pos hreg, if_pos hreg]
  · by_cases hdoc : table = (documentsTable c).toText
    · rw [if_pos hdoc, if_pos hdoc]
    · rw [if_neg hreg, if_neg hreg, if_neg hdoc, if_neg hdoc, hothers]
      · rwa [Table.toText_ofString]
      · rwa [Table.toText_ofString]

/-- The record of a table changes what is `seen` of the registry only. -/
theorem seen_placing {c : SyncConfig} {m : MemoryStore} {row : Value} {table : String}
    (h : HasTables c m) (hrow : row.get? "table_name" = some (.string table))
    (hkeys : row.keys = Record.keys) (written : List String) (other : String) :
    seen c (m.placing (registryTable c) "table_name" [row])
        (m.placing (registryTable c) "table_name" [row]) written other =
      seen c m m (table :: written) other := by
  have hregistry : (m.placing (registryTable c) "table_name" [row]).rows (registryTable c) =
      MemoryStore.place "table_name" row (m.rows (registryTable c)) :=
    MemoryStore.rows_placing_self
  have hothers : ∀ t : Table, t.toText ≠ (registryTable c).toText →
      (m.placing (registryTable c) "table_name" [row]).rows t = m.rows t :=
    fun t ht => MemoryStore.rows_placing_of_ne ht
  rw [seen, seen, hregistry, headColumns_place written _ hrow hkeys,
    hothers _ h.texts_ne.1.symm]
  -- the registry may be sampled as well, and then has the new record
  by_cases hreg : other = (registryTable c).toText
  · rw [if_pos hreg, if_pos hreg]
    rfl
  · rw [if_neg hreg, if_neg hreg, hothers _ (by rwa [Table.toText_ofString])]
    rfl

/-! ## Stage by stage -/

/-- The tables that the `helpers` of a store name: those of the first one that names any. -/
def told (allowed : List String) (m : MemoryStore) : List String → List String
  | [] => []
  | helper :: rest =>
    match tablesOf allowed (m.rpc helper) with
    | [] => told allowed m rest
    | tables => tables

/-- The documents that a store takes, by `Takes`. -/
def takenDocuments (c : Config) (d : Disk) (s : Summary) (m : MemoryStore) : List Document :=
  (Document.collect c d s.timestamp "").filter (m.Takes (documentsTable c.sync) ·.name)

/-- The tables whose records a store takes, by `Takes`. -/
def takenTables (c : SyncConfig) (m : MemoryStore) (tables : List String) : List String :=
  tables.filter (m.Takes (registryTable c) ·)

/-- Which tables are named depends on the rules only. -/
theorem told_congr {m m' : MemoryStore} (h : m.SameRules m') (allowed helpers : List String) :
    told allowed m' helpers = told allowed m helpers := by
  induction helpers with
  | nil => rfl
  | cons helper rest ih => rw [told, told, h.rpc_eq, ih]

/-- Which documents are taken depends on the rules only. -/
theorem takenDocuments_congr {m m' : MemoryStore} (h : m.SameRules m') (c : Config) (d : Disk)
    (s : Summary) : takenDocuments c d s m' = takenDocuments c d s m := by
  simp only [takenDocuments, h.takes_iff]

/-- Which records are taken depends on the rules only. -/
theorem takenTables_congr {m m' : MemoryStore} (h : m.SameRules m') (c : SyncConfig)
    (tables : List String) : takenTables c m' tables = takenTables c m tables := by
  simp only [takenTables, h.takes_iff]

/-- The tables that are named are in strictly increasing order. -/
theorem pairwise_told (allowed : List String) (m : MemoryStore) (helpers : List String) :
    (told allowed m helpers).Pairwise (· < ·) := by
  induction helpers with
  | nil => exact List.Pairwise.nil
  | cons helper rest ih =>
    rw [told]
    split
    · exact ih
    · unfold tablesOf
      split
      · exact pairwise_tables _ _
      · exact List.Pairwise.nil

section Stages

variable (clock : Nat → String) (m : MemoryStore) (n : Nat)

/-- The search for tables leaves the store alone, and finds those of `told`. -/
theorem run_discover (allowed helpers : List String) :
    ∃ n', (discover allowed helpers).run (world clock) (m, n) = (told allowed m helpers, m, n') := by
  induction helpers generalizing n with
  | nil => exact ⟨n, rfl⟩
  | cons helper rest ih =>
    obtain ⟨n', hrun⟩ := ih (n + 1)
    rw [discover, Session.run_bind, Session.run_call, told]
    show ∃ n', (match tablesOf allowed (m.rpc helper) with
      | [] => discover allowed rest
      | tables => pure tables).run (world clock) (m, n + 1) = _
    split
    · exact ⟨n', hrun⟩
    · exact ⟨n + 1, rfl⟩

/-- The registry is found unless it cannot be read. -/
theorem run_probe {t : Table} (h : m.Has t) :
    (probe t).run (world clock) (m, n) = (decide (t.toText ∉ m.failingSelects), m, n + 1) := by
  have hanswer : (probe t).run (world clock) (m, n) = ((m.select t 1).succeeded, m, n + 1) := rfl
  rw [hanswer, MemoryStore.select, MemoryStore.lookup_of_has h]
  split
  · next hfails =>
    rw [decide_eq_false (not_not_intro hfails)]
    rfl
  · next hfails =>
    rw [decide_eq_true hfails]
    rfl

/-- Of the documents those that are taken are placed, and their names told. -/
theorem run_writeDocuments {t : Table} (h : m.Has t) (docs : List Document) :
    ∃ n', (writeDocuments t docs).run (world clock) (m, n) =
      ((docs.filter (m.Takes t ·.name)).map Document.name,
        m.placing t "name" ((docs.filter (m.Takes t ·.name)).map Document.toJson), n') := by
  induction docs generalizing m n with
  | nil =>
    refine ⟨n, ?_⟩
    rw [List.filter_nil, List.map_nil, List.map_nil, MemoryStore.placing_nil h]
    rfl
  | cons doc rest ih =>
    rw [writeDocuments, Session.run_bind, Session.run_call]
    have hanswer : (world clock).answer (.upsert t doc.toJson "name") (m, n) =
        ((m.upsert t doc.toJson "name").1, (m.upsert t doc.toJson "name").2, n + 1) := rfl
    rw [hanswer, MemoryStore.upsert_eq h doc.get?_toJson]
    -- a write does not change what the store takes, so the rest is as from the start
    by_cases htakes : m.Takes t doc.name
    · rw [if_pos htakes]
      obtain ⟨n', hrun⟩ := ih (m.placing t "name" [doc.toJson]) (n + 1) h.withTable
      refine ⟨n', ?_⟩
      rw [Session.run_bind, hrun, MemoryStore.placing_placing,
        List.filter_cons_of_pos (by simpa using htakes)]
      rfl
    · rw [if_neg htakes]
      obtain ⟨n', hrun⟩ := ih m (n + 1) h
      refine ⟨n', ?_⟩
      rw [Session.run_bind, hrun, List.filter_cons_of_neg (by simpa using htakes)]
      rfl

/-- The record has the columns that are `seen` when no other record was written. -/
theorem run_writeTable {c : SyncConfig} (h : HasTables c m) (s : Summary) (refs : List String)
    (table : String) :
    ∃ row, row.get? "table_name" = some (.string table) ∧ row.keys = Record.keys ∧
      Record.timeless row = Record.undated s refs (seen c m m [] table) table ∧
      (writeTable c s refs table).run (world clock) (m, n) =
        if m.Takes (registryTable c) table then
          (true, m.placing (registryTable c) "table_name" [row], n + 2)
        else (false, m, n + 2) := by
  refine ⟨Record.ofTable s table (seen c m m [] table) refs (clock (n + 1)), rfl, rfl,
    Record.timeless_ofTable .., ?_⟩
  rw [← columnsOf_select_ofString]
  generalize hrow : Record.ofTable s table (columnsOf (m.select (Table.ofString table) 1)) refs
    (clock (n + 1)) = row
  have hrun : (writeTable c s refs table).run (world clock) (m, n) =
      ((m.upsert (registryTable c) row "table_name").1.succeeded,
        (m.upsert (registryTable c) row "table_name").2, n + 2) := by
    rw [← hrow]
    rfl
  rw [hrun, MemoryStore.upsert_eq h.registry (hrow ▸ Record.get?_ofTable ..)]
  split <;> rfl

/-- Each record has the columns that are `seen` when those of the tables before it were written. -/
theorem run_writeTables {c : SyncConfig} (h : HasTables c m) (s : Summary) (refs : List String)
    {tables : List String} (hsorted : tables.Pairwise (· < ·)) :
    ∃ R n', (writeTables c s refs tables).run (world clock) (m, n) =
        (takenTables c m tables, m.placing (registryTable c) "table_name" R, n') ∧
      R.map Record.timeless = (takenTables c m tables).map fun t =>
        Record.undated s refs (seen c m m ((takenTables c m tables).filter (· < t)) t) t := by
  -- on the tables: the store of the rest is the one in which the first record is placed
  induction tables generalizing m n with
  | nil => exact ⟨[], n, by rw [MemoryStore.placing_nil h.registry]; rfl, rfl⟩
  | cons table rest ih =>
    obtain ⟨hfirst, hrest⟩ := List.pairwise_cons.mp hsorted
    obtain ⟨row, hrow, hkeys, htime, hrun⟩ := run_writeTable clock m n h s refs table
    rw [writeTables, Session.run_bind, hrun]
    by_cases htakes : m.Takes (registryTable c) table
    · rw [if_pos htakes]
      obtain ⟨R, n', hruns, hR⟩ := ih (m.placing (registryTable c) "table_name" [row]) (n + 2)
        (h.withTable _ _) hrest
      have htaken : takenTables c m (table :: rest) = table :: takenTables c m rest :=
        List.filter_cons_of_pos (by simpa using htakes)
      refine ⟨row :: R, n', ?_, ?_⟩
      · rw [Session.run_bind, hruns, MemoryStore.placing_placing, htaken]
        rfl
      · rw [htaken, List.map_cons, List.map_cons, htime, hR]
        -- no table comes before the first one, and the first one comes before the others
        have hafter : ∀ t ∈ takenTables c m rest, table < t :=
          fun t ht => hfirst t (List.mem_of_mem_filter ht)
        congr 1
        · rw [List.filter_cons_of_neg (by simp), List.filter_eq_nil_iff.mpr]
          intro t ht hlt
          exact (hafter t ht).asymm (of_decide_eq_true hlt)
        · refine List.map_congr_left fun t ht => ?_
          rw [List.filter_cons_of_pos (by simpa using hafter t ht), ← seen_placing h hrow hkeys]
          rfl
    · rw [if_neg htakes]
      obtain ⟨R, n', hruns, hR⟩ := ih m (n + 2) h hrest
      have htaken : takenTables c m (table :: rest) = takenTables c m rest :=
        List.filter_cons_of_neg (by simpa using htakes)
      refine ⟨R, n', ?_, ?_⟩
      · rw [Session.run_bind, hruns, htaken]
        rfl
      · rw [htaken, hR]

end Stages

/-! ## The whole -/

/-- What a synchronisation that writes makes of a store `m`, which is `m'` afterwards. -/
structure Stored (c : Config) (d : Disk) (s : Summary) (tables : List String)
    (m m' : MemoryStore) : Prop where
  rules : m.SameRules m'
  hasTables : HasTables c.sync m'
  /-- The documents that are taken stand among those that were there. -/
  documents : (m'.rows (documentsTable c.sync)).map Document.timeless =
    placeAll "name" ((takenDocuments c d s m).map fun doc => Document.timeless (doc.dated "").toJson)
      ((m.rows (documentsTable c.sync)).map Document.timeless)
  /-- The records that are taken stand among those that were there. -/
  records : (m'.rows (registryTable c.sync)).map Record.timeless =
    placeAll "table_name"
      ((takenTables c.sync m tables).map fun t =>
        Record.undated s ((takenDocuments c d s m).map Document.name)
          (seen c.sync m m' ((takenTables c.sync m tables).filter (· < t)) t) t)
      ((m.rows (registryTable c.sync)).map Record.timeless)
  /-- The event is the last one, unless it is rejected. -/
  events : ∃ row, row.keys = Record.eventKeys ∧ m'.rows (eventsTable c.sync) =
    if (eventsTable c.sync).toText ∈ m.rejectedWrites then m.rows (eventsTable c.sync)
    else m.rows (eventsTable c.sync) ++ [row]
  /-- No other table is written to. -/
  others : ∀ t : Table, t.toText ≠ (registryTable c.sync).toText →
    t.toText ≠ (documentsTable c.sync).toText → t.toText ≠ (eventsTable c.sync).toText →
    m'.rows t = m.rows t

/-- A store after each stage of a writing: the documents are placed in `m₁`, then the records in `m₂`, and then an
event is added in `m₃`. -/
structure Staged (c : SyncConfig) (D R : List Value) (event : Value) (m m₁ m₂ m₃ : MemoryStore) : Prop where
  documents : m₁ = m.placing (documentsTable c) "name" D
  records : m₂ = m₁.placing (registryTable c) "table_name" R
  event : m₃ = (m₂.insert (eventsTable c) event).2

namespace Staged

variable {c : SyncConfig} {D R : List Value} {event : Value} {m m₁ m₂ m₃ : MemoryStore} {t : Table}

/-! Each stage changes the rows of its own table only. -/

/-- The documents go to their table only. -/
theorem rows_documents (hm : Staged c D R event m m₁ m₂ m₃) (ht : t.toText ≠ (documentsTable c).toText) :
    m₁.rows t = m.rows t :=
  hm.documents ▸ MemoryStore.rows_placing_of_ne ht

/-- The records go to the registry only. -/
theorem rows_records (hm : Staged c D R event m m₁ m₂ m₃) (ht : t.toText ≠ (registryTable c).toText) :
    m₂.rows t = m₁.rows t :=
  hm.records ▸ MemoryStore.rows_placing_of_ne ht

/-- Placing rows leaves the rules as they are. -/
theorem sameRules_records (hm : Staged c D R event m m₁ m₂ m₃) : m.SameRules m₂ := by
  have hsame : m.SameRules m := ⟨rfl, rfl, rfl, rfl⟩
  exact hm.records ▸ hm.documents ▸ (hsame.withTable _ _).withTable _ _

theorem hasTables_records (hm : Staged c D R event m m₁ m₂ m₃) (h : HasTables c m) : HasTables c m₂ :=
  hm.records ▸ hm.documents ▸ (h.withTable _ _).withTable _ _

/-- The event comes last in its table, unless writing to it is refused. -/
theorem eq_insert (hm : Staged c D R event m m₁ m₂ m₃) (h : HasTables c m) :
    m₃ = if (eventsTable c).toText ∈ m.rejectedWrites then m₂
      else m₂.withTable (eventsTable c).toText (m₂.rows (eventsTable c) ++ [event]) := by
  rw [hm.event, MemoryStore.insert_snd (hm.hasTables_records h).events, hm.sameRules_records.rejectedWrites]

/-- The event goes to its table only. -/
theorem rows_event (hm : Staged c D R event m m₁ m₂ m₃) (h : HasTables c m)
    (ht : t.toText ≠ (eventsTable c).toText) : m₃.rows t = m₂.rows t := by
  rw [hm.eq_insert h]
  split
  · rfl
  · exact MemoryStore.rows_withTable_of_ne ht

/-- After all stages the rules are as before. -/
theorem sameRules (hm : Staged c D R event m m₁ m₂ m₃) (h : HasTables c m) : m.SameRules m₃ := by
  rw [hm.eq_insert h]
  split
  · exact hm.sameRules_records
  · exact hm.sameRules_records.withTable _ _

theorem hasTables (hm : Staged c D R event m m₁ m₂ m₃) (h : HasTables c m) : HasTables c m₃ := by
  rw [hm.eq_insert h]
  split
  · exact hm.hasTables_records h
  · exact (hm.hasTables_records h).withTable _ _

end Staged

/-- The stages of the writing do not meddle with each other's tables. -/
theorem stored_of_stages {c : Config} {d : Disk} {s : Summary} {tables : List String}
    {m m₁ m₂ m₃ : MemoryStore} {D R : List Value} {event : Value} (h : HasTables c.sync m)
    (hm : Staged c.sync D R event m m₁ m₂ m₃)
    (hD : D.map Document.timeless =
      (takenDocuments c d s m).map fun doc => Document.timeless (doc.dated "").toJson)
    (hR : R.map Record.timeless = (takenTables c.sync m tables).map fun t =>
      Record.undated s ((takenDocuments c d s m).map Document.name)
        (seen c.sync m₁ m₁ ((takenTables c.sync m tables).filter (· < t)) t) t)
    (hevent : event.keys = Record.eventKeys) : Stored c d s tables m m₃ := by
  obtain ⟨hrd, hre, hde⟩ := h.texts_ne
  have hdocs : m₃.rows (documentsTable c.sync) = m₁.rows (documentsTable c.sync) := by
    rw [hm.rows_event h hde, hm.rows_records hrd.symm]
  have hevents : m₂.rows (eventsTable c.sync) = m.rows (eventsTable c.sync) := by
    rw [hm.rows_records hre.symm, hm.rows_documents hde.symm]
  constructor
  case rules => exact hm.sameRules h
  case hasTables => exact hm.hasTables h
  case documents =>
    rw [hdocs, hm.documents, MemoryStore.rows_placing_self,
      MemoryStore.map_placeAll Document.get?_timeless, hD]
  case records =>
    rw [hm.rows_event h hre, hm.records, MemoryStore.rows_placing_self, hm.rows_documents hrd,
      MemoryStore.map_placeAll Record.get?_timeless, hR]
    congr 1
    refine List.map_congr_left fun t _ => ?_
    -- the documents that are seen are those that stay, as no later stage writes to their table
    rw [seen_congr (by rw [hm.documents]; rfl) (hm.rows_documents hrd) hdocs.symm fun u _ hu => hm.rows_documents hu]
  case events =>
    refine ⟨event, hevent, ?_⟩
    rw [hm.eq_insert h]
    split
    · exact hevents
    · rw [MemoryStore.rows_withTable_self, hevents]
  case others =>
    intro t hreg hdoc hev
    rw [hm.rows_event h hev, hm.rows_records hreg, hm.rows_documents hdoc]

/-- Documents collected at any time are taken as are those collected at no time, by `timeless`. -/
theorem taken_collect (c : Config) (d : Disk) (s : Summary) (m : MemoryStore) (time : String) :
    (Document.collect c d s.timestamp time).filter (m.Takes (documentsTable c.sync) ·.name) =
      (takenDocuments c d s m).map (Document.dated time) := by
  rw [Document.collect_dated c d s.timestamp "" time, List.filter_map]
  rfl

/-- The last part of a synchronisation takes a store to one that is `Stored`. -/
theorem run_write (clock : Nat → String) {m : MemoryStore} (n : Nat) {c : Config}
    (h : HasTables c.sync m) (d : Disk) (s : Summary) {tables : List String}
    (hsorted : tables.Pairwise (· < ·)) :
    ∃ m' n', (write c d s tables).run (world clock) (m, n) =
        ({ syncedTables := takenTables c.sync m tables
           documentRefs := (takenDocuments c d s m).map Document.name }, m', n') ∧
      Stored c d s tables m m' := by
  -- the times are those that the clock tells at the start, before the event and in each record
  let refs := (takenDocuments c d s m).map Document.name
  let D := (takenDocuments c d s m).map fun doc => (doc.dated (clock n)).toJson
  let m₁ := m.placing (documentsTable c.sync) "name" D
  obtain ⟨n₁, hdocs⟩ := run_writeDocuments clock m n h.documents
    (Document.collect c d s.timestamp (clock n))
  rw [taken_collect, List.map_map, List.map_map] at hdocs
  change _ = (refs, m₁, n₁) at hdocs
  obtain ⟨R, n₂, hrecords, hR⟩ := run_writeTables clock m₁ n₁ (h.withTable _ _) s refs hsorted
  let m₂ := m₁.placing (registryTable c.sync) "table_name" R
  let event := Record.ofEvent s c.sync.eventType (takenTables c.sync m tables) refs (clock n₂)
  refine ⟨(m₂.insert (eventsTable c.sync) event).2, n₂ + 1, ?_,
    stored_of_stages h ⟨rfl, rfl, rfl⟩ ?_ hR (Record.keys_ofEvent ..)⟩
  · have htime : (world clock).time (m, n) = clock n := rfl
    rw [write, Session.run_bind, Session.run_now, htime, Session.run_bind, hdocs, Session.run_bind,
      hrecords]
    rfl
  · rw [List.map_map]
    exact List.map_congr_left fun doc _ => doc.timeless_dated (clock n) ""

/-- A synchronisation of a store that has the three tables either stops and leaves the store alone, or writes all;
which of them depends on how the store does, and not on its rows. -/
theorem run_session (clock : Nat → String) {m : MemoryStore} (n : Nat) {c : Config}
    (h : HasTables c.sync m) (d : Disk) (s : Summary) :
    ∃ o m' n', (session c d s).run (world clock) (m, n) = (o, m', n') ∧
      if told c.sync.allowedSchemas m c.sync.discoveryHelpers = [] ∨
          (registryTable c.sync).toText ∈ m.failingSelects then
        o.syncedTables = [] ∧ m' = m
      else
        o.syncedTables =
            takenTables c.sync m (told c.sync.allowedSchemas m c.sync.discoveryHelpers) ∧
          Stored c d s (told c.sync.allowedSchemas m c.sync.discoveryHelpers) m m' := by
  obtain ⟨n₁, hdiscover⟩ := run_discover clock m n c.sync.allowedSchemas c.sync.discoveryHelpers
  have hsorted := pairwise_told c.sync.allowedSchemas m c.sync.discoveryHelpers
  rw [session, Session.run_bind, hdiscover]
  cases htold : told c.sync.allowedSchemas m c.sync.discoveryHelpers with
  | nil => exact ⟨.stopped .noTables, m, n₁, rfl, by simp [SyncOutcome.stopped]⟩
  | cons first rest =>
    rw [htold] at hsorted
    dsimp only
    rw [Session.run_bind, run_probe clock m n₁ h.registry]
    by_cases hfails : (registryTable c.sync).toText ∈ m.failingSelects
    · exact ⟨.stopped .registryMissing, m, n₁ + 1, by simp [hfails],
        by simp [hfails, SyncOutcome.stopped]⟩
    · obtain ⟨m', n', hrun, hstored⟩ := run_write clock (n₁ + 1) h d s hsorted
      exact ⟨_, m', n', by simpa [hfails] using hrun, by simpa [hfails] using hstored⟩

end Sync

end PayloadAtlas
