import PayloadAtlas.Store.Session
import PayloadAtlas.Sync.Discovery
import PayloadAtlas.Sync.Document
import PayloadAtlas.Sync.Outcome
import PayloadAtlas.Sync.Record

/-!
# Synchronisation

A synchronisation finds the tables of a store, makes sure that the registry is there, writes the documents,
then a record for each table, and last a record of itself. It stops before the first write if there are no
tables or no registry; after that, whatever cannot be written is passed over.
-/

namespace PayloadAtlas.Sync

open Json (Value)
open Session (call now)

/-- The registry. -/
def registryTable (c : SyncConfig) : Table := ⟨some c.registrySchema, c.registryTable⟩

/-- The table of the documents. -/
def documentsTable (c : SyncConfig) : Table := ⟨some c.registrySchema, c.documentsTable⟩

/-- The table of the synchronisations. -/
def eventsTable (c : SyncConfig) : Table := ⟨some c.registrySchema, c.eventsTable⟩

/-- The tables that an answer names, by `Discovery.tables` if it is one of success. -/
def tablesOf (allowed : List String) (a : Answer) : List String :=
  match a.success? with
  | some r => Discovery.tables r.rows allowed
  | none => []

/-- Asks one procedure after the other for tables with `rpc`, until there are some. -/
def discover (allowed : List String) : List String → Session (List String)
  | [] => pure []
  | helper :: rest => do
    let a ← call (.rpc helper)
    match tablesOf allowed a with
    | [] => discover allowed rest
    | tables => pure tables

/-- Whether the table `registry` can be read. -/
def probe (registry : Table) : Session Bool := do
  let a ← call (.select registry "table_name" 1)
  return a.succeeded

/-- Writes documents over those of the same `name`; the names of those that were written, in order. -/
def writeDocuments (table : Table) : List Document → Session (List String)
  | [] => pure []
  | doc :: rest => do
    let a ← call (.upsert table doc.toJson "name")
    let names ← writeDocuments table rest
    return if a.succeeded then doc.name :: names else names

/-- The columns of the first row of an answer, its keys. -/
def columnsOf (a : Answer) : List String :=
  match a.success? with
  | none => []
  | some r =>
    match r.rows with
    | .object ms :: _ => ms.map Prod.fst
    | _ => []

/-- Writes the record of `table` over the one of the same `table_name`; whether that was done. -/
def writeTable (c : SyncConfig) (s : Summary) (refs : List String) (table : String) :
    Session Bool := do
  let sample ← call (.select (Table.ofString table) "*" 1)
  let time ← now
  let record := Record.ofTable s table (columnsOf sample) refs time
  let a ← call (.upsert (registryTable c) record "table_name")
  return a.succeeded

/-- Writes the records of tables by `writeTable`; those for which that was done, in order. -/
def writeTables (c : SyncConfig) (s : Summary) (refs : List String) :
    List String → Session (List String)
  | [] => pure []
  | table :: rest => do
    let written ← writeTable c s refs table
    let tables ← writeTables c s refs rest
    return if written then table :: tables else tables

/-- All that is written once the `tables` are known and the registry is there. -/
def write (c : Config) (d : Disk) (s : Summary) (tables : List String) : Session SyncOutcome := do
  let generatedAt ← now
  let documents := Document.collect c d s.timestamp generatedAt
  let documentRefs ← writeDocuments (documentsTable c.sync) documents
  let syncedTables ← writeTables c.sync s documentRefs tables
  let time ← now
  let event := Record.ofEvent s c.sync.eventType syncedTables documentRefs time
  let _ ← call (.insert (eventsTable c.sync) event)
  return { syncedTables, documentRefs }

/-- Brings what the summary `s` says into a store. -/
def session (c : Config) (d : Disk) (s : Summary) : Session SyncOutcome := do
  match ← discover c.sync.allowedSchemas c.sync.discoveryHelpers with
  | [] => return .stopped .noTables
  | tables =>
    if ← probe (registryTable c.sync) then write c d s tables
    else return .stopped .registryMissing

/-- Brings what the summary `s` says into a store, if there is a `client` to talk to one. -/
def sessionWith {κ : Type} (client : Option κ) (c : Config) (d : Disk) (s : Summary) :
    Session SyncOutcome :=
  match client with
  | none => return .stopped .clientMissing
  | some _ => session c d s

end PayloadAtlas.Sync
