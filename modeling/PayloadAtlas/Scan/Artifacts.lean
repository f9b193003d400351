import PayloadAtlas.Config
import PayloadAtlas.Disk.Change
import PayloadAtlas.Scan.Error
import PayloadAtlas.Summary.Codec
import PayloadAtlas.Summary.Markdown

/-!
# Artifacts

The files that a scan leaves and those that it looks at: the summary as JSON and as text, the list of
registered routes, and what is known about the realm. What was written last is what the next scan compares
with; a file that is not there or cannot be read counts as an empty one.
-/

namespace PayloadAtlas

open Json (Value Decoder)

/-- Why a file does not say what is asked for. -/
inductive ReadError where
  | file (cause : FileError)
  | content (flaw : Json.Flaw)
  deriving DecidableEq, Repr, Inhabited

/-- The text of an error. -/
def ReadError.message : ReadError → String
  | .file cause => cause.message
  | .content flaw => flaw.message

/-- The paths of the summary in its two forms. -/
structure Artifacts where
  json : String
  markdown : String
  deriving DecidableEq, Repr, Inhabited

namespace Artifacts

/-- The paths of a configuration. -/
def ofConfig (c : Config) : Artifacts := ⟨c.payloadJsonPath, c.payloadMarkdownPath⟩

/-! ## Writing -/

/-- What comes of writing: an error, if there was one, and the disk. -/
abbrev Written := Except ScanError Unit × Disk

/-- The result of a change made for the artifact at `path`. -/
def report (path : String) (c : Disk.Change) : Written :=
  match c with
  | (.ok (), d) => (.ok (), d)
  | (.error e, d) => (.error (.artifact path e.message), d)

/-- Makes the directory that the file at `path` lies in, if its path names one. -/
def makeParent (d : Disk) (path : String) : Disk.Change :=
  match Path.parent? path with
  | none => (.ok (), d)
  | some parent => if parent = "" then (.ok (), d) else d.makeDirectories parent

/-- Writes the file at `path` and makes the directory that it lies in. -/
def writeFile (d : Disk) (path text : String) : Written :=
  report path ((makeParent d path).andThen fun d => d.writeText path text)

/-- Writes a summary in both forms, `json` for reading back first. -/
def write (a : Artifacts) (d : Disk) (s : Summary) : Written :=
  match writeFile d a.json s.toText with
  | (.ok (), d) => writeFile d a.markdown s.markdown
  | (.error e, d) => (.error e, d)

/-! ## Reading -/

/-- The data of a file of JSON, by `decoder`. -/
def readFile {α : Type} (decoder : Decoder α) (d : Disk) (path : String) : Except ReadError α :=
  match d.readText path with
  | .error e => .error (.file e)
  | .ok text => (Decoder.ofText decoder text).mapError .content

/-- The summary in a file; `none` if there is no file. -/
def readSummary (d : Disk) (path : String) : Except ReadError (Option Summary) :=
  match readFile Summary.decoder d path with
  | .ok s => .ok (some s)
  | .error (.file .notFound) => .ok none
  | .error e => .error e

/-- The summary that was written last, or an empty one if there is none that can be read. -/
def baseline (a : Artifacts) (d : Disk) : Summary :=
  match readSummary d a.json with
  | .ok (some s) => s
  | _ => {}

/-- The registered routes in a file, or none. -/
def registeredRoutes (d : Disk) (path : String) : List RegisteredRoute :=
  match readFile (Decoder.list RegisteredRoute.decoder) d path with
  | .ok routes => routes
  | .error _ => []

/-- What a file says about the realm, or an empty object if it cannot be read as `json`. -/
def realm (d : Disk) (path : String) : Value :=
  match readFile Decoder.value d path with
  | .ok v => v
  | .error _ => .object []

end Artifacts

end PayloadAtlas
