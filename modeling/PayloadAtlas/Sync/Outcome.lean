/-!
# Outcomes of a synchronisation

What a synchronisation wrote, and why it stopped, if it stopped before it wrote anything.
-/

namespace PayloadAtlas

/-- Why a synchronisation stopped early. -/
inductive SyncFault where
  /-- There is no store to talk to. -/
  | clientMissing
  /-- No tables were found. -/
  | noTables
  /-- The registry cannot be read. -/
  | registryMissing
  deriving DecidableEq, Repr, Inhabited

/-- The name of a fault. -/
def SyncFault.name : SyncFault → String
  | .clientMissing => "client_missing"
  | .noTables => "no_tables"
  | .registryMissing => "registry_missing"

/-- The fault of a name, as `SyncFault.name` gives it. -/
def SyncFault.ofName? (s : String) : Option SyncFault :=
  [.clientMissing, .noTables, .registryMissing].find? (·.name = s)

/-- What a synchronisation did. -/
structure SyncOutcome where
  /-- The tables whose records were written, in order. -/
  syncedTables : List String := []
  /-- The names of the documents that were written, in order. -/
  documentRefs : List String := []
  fault : Option SyncFault := none
  deriving DecidableEq, Repr, Inhabited

namespace SyncOutcome

/-- The outcome of a synchronisation that stopped early because of `f`. -/
def stopped (f : SyncFault) : SyncOutcome := { fault := some f }

/-- Whether a synchronisation stopped early, with a `fault`. -/
def isStopped (o : SyncOutcome) : Bool := o.fault.isSome

end SyncOutcome

end PayloadAtlas
