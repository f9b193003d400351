import PayloadAtlas.Json.Decode
import PayloadAtlas.Path
import PayloadAtlas.Python.Definition

/-!
# Configuration

What can be chosen about a scan, its artifacts and the synchronisation with a store, with what holds when
nothing is chosen. Paths that are not absolute are taken from the root of the scan.
-/

namespace PayloadAtlas

/-- What is scanned, and how. -/
structure ScanConfig where
  rootPath : String := "."
  /-- The names of directories that are left out. -/
  excludeDirs : List String := [".venv", "venv", "node_modules", "__pycache__", ".git"]
  /-- The extensions of source files. -/
  fileExtensions : List String := ["py"]
  followLinks : Bool := false
  /-- Whether ignore files and hidden names count. -/
  respectGitignore : Bool := false
  /-- The names of the attributes that declare routes. -/
  routeMethods : List String := ["get", "post", "put", "patch", "delete"]
  /-- The bases of models of a schema library. -/
  schemaBases : List String :=
    ["BaseModel", "BaseSettings", "pydantic.BaseModel", "pydantic.BaseSettings"]
  /-- The decorators of models of a schema library. -/
  dataclassMarkers : List String := ["dataclass"]
  deriving DecidableEq, Repr, Inhabited

/-- Which classes are models of a schema library, by `schemaBases` and `dataclassMarkers`. -/
def ScanConfig.modelRules (c : ScanConfig) : Python.ModelRules := ⟨c.schemaBases, c.dataclassMarkers⟩

/-- Where the artifacts are. -/
structure ArtifactConfig where
  outputDir : String := "analysis"
  payloadJson : String := "payload_map.json"
  payloadMarkdown : String := "payload_map.md"
  routesFile : String := "routes.json"
  realmFile : String := "realm.json"
  /-- What the names of review logs begin with. -/
  reviewLogPrefix : String := "review_log_"
  deriving DecidableEq, Repr, Inhabited

/-- What is synchronised with a store, and how. -/
structure SyncConfig where
  /-- The schema of the three tables. -/
  registrySchema : String := "kitenga"
  registryTable : String := "payload_registry"
  documentsTable : String := "analysis_documents"
  eventsTable : String := "analysis_sync_events"
  /-- The schemas whose tables count. -/
  allowedSchemas : List String := ["public", "graphql_public", "kitenga"]
  /-- The procedures that list tables, in the order in which they are tried. -/
  discoveryHelpers : List String := ["list_tables_ext", "list_tables_all", "list_public_tables"]
  /-- How many review logs are taken along. -/
  latestLogsLimit : Nat := 3
  requestTimeoutSecs : Nat := 30
  eventType : String := "repo_review"
  deriving DecidableEq, Repr, Inhabited

/-- All that can be chosen. -/
structure Config where
  scan : ScanConfig := {}
  artifacts : ArtifactConfig := {}
  sync : SyncConfig := {}
  deriving DecidableEq, Repr, Inhabited

namespace Config

/-! ## Paths -/

/-- A path taken from the `rootPath` of the scan. -/
def resolve (c : Config) (path : String) : String := Path.join c.scan.rootPath path

/-- The directory of the artifacts, `outputDir`. -/
def artifactDir (c : Config) : String := c.resolve c.artifacts.outputDir

/-- The path of the summary as JSON. -/
def payloadJsonPath (c : Config) : String := Path.join c.artifactDir c.artifacts.payloadJson

/-- The path of the summary to read. -/
def payloadMarkdownPath (c : Config) : String := Path.join c.artifactDir c.artifacts.payloadMarkdown

/-- The path of the list of registered routes. -/
def routesPath (c : Config) : String := Path.join c.artifactDir c.artifacts.routesFile

/-- The path of the realm. -/
def realmPath (c : Config) : String := c.resolve c.artifacts.realmFile

end Config

/-! ## Errors -/

/-- What is wrong with a configuration. The causes that lie outside are given by their texts. -/
inductive ConfigError where
  | rootNotFound (root : String)
  | rootNotDirectory (root : String)
  | invalidOption (option reason : String)
  | read (path cause : String)
  | parse (path cause : String)
  deriving DecidableEq, Repr, Inhabited

/-- The text of an error. -/
def ConfigError.message : ConfigError → String
  | .rootNotFound root => "scan root does not exist: " ++ root
  | .rootNotDirectory root => "scan root is not a directory: " ++ root
  | .invalidOption option reason => "invalid configuration option '" ++ option ++ "': " ++ reason
  | .read path cause => "failed to read configuration file " ++ path ++ ": " ++ cause
  | .parse path cause => "failed to parse configuration file " ++ path ++ ": " ++ cause

/-- What makes a configuration useless, such as no `routeMethods`. -/
def Config.flaw? (c : Config) : Option ConfigError :=
  if c.scan.routeMethods.isEmpty then
    some (.invalidOption "scan.route_methods" "at least one method name is required")
  else if c.scan.fileExtensions.isEmpty then
    some (.invalidOption "scan.file_extensions" "at least one extension is required")
  else none

/-! ## JSON -/

open Json (Value Decoder)
open Json.Decoder

/-- The section `scan`. -/
def ScanConfig.decoder : Decoder ScanConfig :=
  record [field "root_path" text fun x r => { r with rootPath := x },
    field "exclude_dirs" (list text) fun x r => { r with excludeDirs := x },
    field "file_extensions" (list text) fun x r => { r with fileExtensions := x },
    field "follow_links" bool fun x r => { r with followLinks := x },
    field "respect_gitignore" bool fun x r => { r with respectGitignore := x },
    field "route_methods" (list text) fun x r => { r with routeMethods := x },
    field "schema_bases" (list text) fun x r => { r with schemaBases := x },
    field "dataclass_markers" (list text) fun x r => { r with dataclassMarkers := x }] {}

/-- The section `artifacts`. -/
def ArtifactConfig.decoder : Decoder ArtifactConfig :=
  record [field "output_dir" text fun x r => { r with outputDir := x },
    field "payload_json" text fun x r => { r with payloadJson := x },
    field "payload_markdown" text fun x r => { r with payloadMarkdown := x },
    field "routes_file" text fun x r => { r with routesFile := x },
    field "realm_file" text fun x r => { r with realmFile := x },
    field "review_log_prefix" text fun x r => { r with reviewLogPrefix := x }] {}

/-- The section `sync`. -/
def SyncConfig.decoder : Decoder SyncConfig :=
  record [field "registry_schema" text fun x r => { r with registrySchema := x },
    field "registry_table" text fun x r => { r with registryTable := x },
    field "documents_table" text fun x r => { r with documentsTable := x },
    field "events_table" text fun x r => { r with eventsTable := x },
    field "allowed_schemas" (list text) fun x r => { r with allowedSchemas := x },
    field "discovery_helpers" (list text) fun x r => { r with discoveryHelpers := x },
    field "latest_logs_limit" (natBelow Json.wordLimit) fun x r => { r with latestLogsLimit := x },
    field "request_timeout_secs" (natBelow Json.wordLimit) fun x r => { r with requestTimeoutSecs := x },
    field "event_type" text fun x r => { r with eventType := x }] {}

/-- A configuration of the sections `scan`, `artifacts` and `sync`; whatever is missing keeps its default. -/
def Config.decoder : Decoder Config :=
  record [field "scan" ScanConfig.decoder fun x r => { r with scan := x },
    field "artifacts" ArtifactConfig.decoder fun x r => { r with artifacts := x },
    field "sync" SyncConfig.decoder fun x r => { r with sync := x }] {}

/-- The section `scan`, as `ScanConfig.decoder` reads it. -/
def ScanConfig.toJson (c : ScanConfig) : Value :=
  .object [("root_path", .string c.rootPath), ("exclude_dirs", .ofStrings c.excludeDirs),
    ("file_extensions", .ofStrings c.fileExtensions), ("follow_links", .bool c.followLinks),
    ("respect_gitignore", .bool c.respectGitignore), ("route_methods", .ofStrings c.routeMethods),
    ("schema_bases", .ofStrings c.schemaBases),
    ("dataclass_markers", .ofStrings c.dataclassMarkers)]

/-- The section `artifacts`, as `ArtifactConfig.decoder` reads it. -/
def ArtifactConfig.toJson (c : ArtifactConfig) : Value :=
  .object [("output_dir", .string c.outputDir), ("payload_json", .string c.payloadJson),
    ("payload_markdown", .string c.payloadMarkdown), ("routes_file", .string c.routesFile),
    ("realm_file", .string c.realmFile), ("review_log_prefix", .string c.reviewLogPrefix)]

/-- The section `sync`, as `SyncConfig.decoder` reads it. -/
def SyncConfig.toJson (c : SyncConfig) : Value :=
  .object [("registry_schema", .string c.registrySchema),
    ("registry_table", .string c.registryTable), ("documents_table", .string c.documentsTable),
    ("events_table", .string c.eventsTable), ("allowed_schemas", .ofStrings c.allowedSchemas),
    ("discovery_helpers", .ofStrings c.discoveryHelpers),
    ("latest_logs_limit", .ofNat c.latestLogsLimit),
    ("request_timeout_secs", .ofNat c.requestTimeoutSecs), ("event_type", .string c.eventType)]

/-- A configuration, as `Config.decoder` reads it. -/
def Config.toJson (c : Config) : Value :=
  .object [("scan", c.scan.toJson), ("artifacts", c.artifacts.toJson), ("sync", c.sync.toJson)]

end PayloadAtlas
