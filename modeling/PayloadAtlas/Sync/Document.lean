import PayloadAtlas.Config
import PayloadAtlas.Disk
import PayloadAtlas.Scan.Analysis

/-!
# Documents

The files that are written to the store along with the registry: the known files of the artifact directory
in a fixed order, as far as they are there, then the review logs changed last, the oldest first. Files of
JSON are taken as values, and left out if they are none; other files are taken as texts.
-/

namespace PayloadAtlas

open Json (Value Decoder)

/-- What a file says. -/
inductive DocumentBody where
  | json (content : Value)
  | markdown (text : String)
  deriving Inhabited

/-- How a file is read. -/
inductive DocumentFormat where
  | json
  | markdown
  deriving DecidableEq, Repr, Inhabited

/-- The name of a format. -/
def DocumentFormat.label : DocumentFormat → String
  | .json => "json"
  | .markdown => "markdown"

/-- The format of a body. -/
def DocumentBody.format : DocumentBody → DocumentFormat
  | .json _ => .json
  | .markdown _ => .markdown

/-- A row of the table of documents. -/
structure Document where
  /-- The key of the row. -/
  name : String
  body : DocumentBody
  /-- The path from the root of the scan. -/
  path : String
  generatedAt : String
  source : String
  /-- The time of the summary; review logs belong to none. -/
  summaryTime : Option String
  deriving Inhabited

namespace Document

/-- A document as a row. -/
def toJson (doc : Document) : Value :=
  let (content, text) := match doc.body with
    | .json v => (v, Value.null)
    | .markdown s => (.null, .string s)
  let time := match doc.summaryTime with
    | some t => [("summary_timestamp", Value.string t)]
    | none => []
  .object [("name", .string doc.name), ("format", .string doc.body.format.label),
    ("content", content), ("text_content", text),
    ("metadata", .object ([("path", .string doc.path), ("generated_at", .string doc.generatedAt),
      ("source", .string doc.source)] ++ time))]

/-! ## Known files -/

/-- A file that becomes a document if it is there. -/
structure Known where
  name : String
  file : String
  format : DocumentFormat

/-- The known files of a configuration, such as `payloadJson` and `payloadMarkdown`. -/
def known (c : ArtifactConfig) : List Known :=
  [⟨"payload_map_json", c.payloadJson, .json⟩, ⟨"payload_map_md", c.payloadMarkdown, .markdown⟩,
    ⟨"routes_json", c.routesFile, .json⟩, ⟨"routes_summary", "routes_summary.json", .json⟩,
    ⟨"routes_compact", "routes_compact.md", .markdown⟩, ⟨"routes_md", "routes.md", .markdown⟩,
    ⟨"mcp_tools_manifest", "mcp_tools_manifest.json", .json⟩]

/-- What a file says in a `format`; `none`, if its text is not JSON and should be. -/
def bodyOf? (format : DocumentFormat) (text : String) : Option DocumentBody :=
  match format with
  | .markdown => some (.markdown text)
  | .json =>
    match Decoder.ofText Decoder.value text with
    | .ok v => some (.json v)
    | .error _ => none

/-- The document of the known file `k`, if it is there and can be read. -/
def ofKnown? (c : Config) (d : Disk) (summaryTime generatedAt : String) (k : Known) :
    Option Document :=
  let path := Path.join c.artifactDir k.file
  match d.readLossy path with
  | .error _ => none
  | .ok text => (bodyOf? k.format text).map fun body =>
    { name := k.name, body, path := SourceFile.pathFrom c.scan.rootPath path, generatedAt
      source := "analysis_runner", summaryTime := some summaryTime }

/-! ## Review logs -/

/-- A review log that is there, and since when. -/
structure Log where
  path : String
  modified : Int
  deriving DecidableEq, Repr

/-- What the names of review logs end with, `.md`. -/
def logEnding : String := ".md"

/-- Whether `name` is that of a review log: it begins with `start` and ends with `logEnding`. -/
def isLogName (start name : String) : Bool :=
  start.toList.isPrefixOf name.toList && logEnding.toList.isSuffixOf name.toList

/-- Whether one log does not come after another: by time, then by path. -/
def Log.notAfter (a b : Log) : Bool :=
  a.modified < b.modified ||
    (a.modified == b.modified && Path.notAfter (Path.components a.path) (Path.components b.path))

/-- All review logs in the `artifactDir`, the one that was changed last at the end. -/
def logs (c : Config) (d : Disk) : List Log :=
  match d.list c.artifactDir with
  | .error _ => []
  | .ok entries =>
    let found := entries.filterMap fun (name, e) => do
      let name ← Text.ofBytes? name
      if isLogName c.artifacts.reviewLogPrefix name then
        some (⟨Path.join c.artifactDir name, e.modified⟩ : Log)
      else none
    found.mergeSort Log.notAfter

/-- The review logs that are taken along: the last ones, as many as `latestLogsLimit`. -/
def latestLogs (c : Config) (d : Disk) : List Log :=
  let all := logs c d
  all.drop (all.length - c.sync.latestLogsLimit)

/-- The document of a review log, if it can be read. -/
def ofLog? (c : Config) (d : Disk) (generatedAt : String) (l : Log) : Option Document :=
  match d.readLossy l.path with
  | .error _ => none
  | .ok text => some
    { name := (Path.stem? l.path).getD l.path, body := .markdown text
      path := SourceFile.pathFrom c.scan.rootPath l.path, generatedAt
      source := "review_log", summaryTime := none }

/-- The documents of a configuration: those of `known` files, then those of the `latestLogs`. -/
def collect (c : Config) (d : Disk) (summaryTime generatedAt : String) : List Document :=
  (known c.artifacts).filterMap (ofKnown? c d summaryTime generatedAt)
    ++ (latestLogs c d).filterMap (ofLog? c d generatedAt)

end Document

end PayloadAtlas
