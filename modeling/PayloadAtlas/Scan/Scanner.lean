import PayloadAtlas.Scan.Analysis
import PayloadAtlas.Scan.Artifacts
import PayloadAtlas.Scan.Walk

/-!
# Scans

A scan finds the source files below a root, analyses them, builds the shapes of the routes that they
declare and compares them with those of the scan before. A run does the same and then writes the artifacts.
-/

namespace PayloadAtlas

/-- What a scan is done with: the configuration, the strategy for examples and, if given, the `registered` routes. -/
structure Scanner where
  config : Config
  strategy : ExampleStrategy
  /-- The registered routes, unless they are to be read from the file of the configuration. -/
  registered : Option (List RegisteredRoute) := none

/-- What comes of a scan. -/
structure ScanOutcome where
  summary : Summary
  stats : Stats
  /-- The files that were left out, and why. -/
  errors : List (String × ScanError)
  /-- The names of models that are used in several places. -/
  collisions : List Collision
  deriving Inhabited

namespace Scanner

/-- What keeps a configuration from being used for scans: its own `flaw?`, or that of its root. -/
def flaw? (d : Disk) (c : Config) : Option ConfigError := c.flaw?.or (c.rootFlaw? d)

/-- A scanner for a configuration. -/
def ofConfig (d : Disk) (c : Config) (strategy : ExampleStrategy)
    (registered : Option (List RegisteredRoute)) : Except ScanError Scanner :=
  match flaw? d c with
  | some e => .error (.config e)
  | none => .ok ⟨c, strategy, registered⟩

/-- The routes that count as registered: those given, or those in the file at `routesPath`. -/
def registeredRoutes (s : Scanner) (d : Disk) : List RegisteredRoute :=
  s.registered.getD (Artifacts.registeredRoutes d s.config.routesPath)

/-- What the shapes of a scan are made with, once the `registry` is filled. -/
def context (s : Scanner) (d : Disk) (registry : Registry) : Shape.Context where
  registry
  strategy := s.strategy
  methods := s.config.scan.routeMethods
  registered := s.registeredRoutes d

/-- What comes of a scan whose files have been `analysed`. -/
def conclude (s : Scanner) (d : Disk) (time : String) (analysed : List Analysed) : ScanOutcome :=
  let files := Analysed.files analysed
  let registry := Registry.ofFiles s.config.scan.modelRules files
  let shapes := (s.context d registry).shapes files
  let baseline := (Artifacts.ofConfig s.config).baseline d
  { summary :=
      { timestamp := time
        scoreTotal := min Shape.maxScore shapes.length
        realmMetadata := Artifacts.realm d s.config.realmPath
        shapes
        drift := Drift.between baseline.shapes shapes }
    stats :=
      ((analysed.foldl Analysed.count
        (({} : Stats).addDiscovered (UInt64.ofNat analysed.length))).addModels
          (UInt64.ofNat registry.size)).addHandlers (UInt64.ofNat shapes.length)
    errors := Analysed.errors analysed
    collisions := registry.collisions }

/-- Scans, and writes nothing: the `files` of the walk are analysed one by one, and the rest is `conclude`. -/
def scan (s : Scanner) (d : Disk) (time : String) : Except ScanError ScanOutcome := do
  let walk := Walk.ofConfig s.config.scan
  let paths ← walk.files d
  return s.conclude d time (Analysed.ofPaths d walk.root paths)

/-- Does what `scan` does and writes the artifacts. -/
def run (s : Scanner) (d : Disk) (time : String) : Except ScanError ScanOutcome × Disk :=
  match s.scan d time with
  | .error e => (.error e, d)
  | .ok outcome =>
    match (Artifacts.ofConfig s.config).write d outcome.summary with
    | (.ok (), d) => (.ok outcome, d)
    | (.error e, d) => (.error e, d)

end Scanner

end PayloadAtlas
