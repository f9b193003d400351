import PayloadAtlas.Scan.Scanner
import PayloadAtlas.Sync.Outcome

/-!
# Reports

What a command says about what it did.
-/

namespace PayloadAtlas.Command

/-- Lines as a text. -/
def ofLines (lines : List String) : String := String.join (lines.map (· ++ "\n"))

/-- The sections of a drift with their titles `Added`, `Removed` and `Changed`. -/
def driftLines (d : Drift) : List String :=
  [("Added", d.added), ("Removed", d.removed), ("Changed", d.changed)].flatMap
    fun (title, entries) =>
      (title ++ ": " ++ toString entries.length) :: entries.map fun e => "  " ++ e

/-- What is said about a scan. -/
def scanReport (c : Config) (o : ScanOutcome) : String :=
  ofLines (["", "Payload Registry", "================", "",
      "Files scanned:   " ++ toString o.stats.parsed.toNat,
      "Files skipped:   " ++ toString o.stats.skipped.toNat,
      "Models found:    " ++ toString o.stats.models.toNat,
      "Payload shapes:  " ++ toString o.summary.shapes.length,
      "Shape score:     " ++ toString o.summary.scoreTotal ++ " / 10", ""]
    ++ driftLines o.summary.drift ++ ["", "Artifacts: " ++ c.artifactDir])

/-- What is said about the files that a scan left out. -/
def skippedReport (o : ScanOutcome) : String :=
  if o.errors.isEmpty then ""
  else
    ofLines (["", "Skipped files (" ++ toString o.errors.length ++ "):"] ++
      o.errors.map fun (path, e) => "  " ++ path ++ " - " ++ e.message)

/-- What is said about a synchronisation. -/
def syncReport (o : SyncOutcome) : String :=
  match o.fault with
  | some f => ofLines ["", "Store sync skipped: " ++ f.name]
  | none =>
    ofLines ["", "Store sync: " ++ toString o.syncedTables.length ++ " tables, " ++
      toString o.documentRefs.length ++ " documents"]

end PayloadAtlas.Command
