import PayloadAtlas.Command.Arguments
import PayloadAtlas.Command.Report
import PayloadAtlas.Rest.Client
import PayloadAtlas.Sync.Stages

/-!
# Commands

What the command line does: it scans and writes the artifacts, or takes the summary that was written last,
and then brings the summary into a store. All up to the conversation with the store is done here; the
conversation itself is a session that remains to be run.
-/

namespace PayloadAtlas.Command

/-- What remains to be done when the files are written. -/
inductive Remainder where
  /-- Nothing, and all went well. -/
  | nothing
  /-- Nothing, because something went wrong. -/
  | failure (message : String)
  /-- A conversation with a store, if there is one. -/
  | sync (client : Option RestClient) (session : Session SyncOutcome)

/-- What was done, and what remains. -/
structure Progressed where
  stdout : String := ""
  disk : Disk
  stderr : String := ""
  remainder : Remainder

/-- The time of a run, as it is noted in summaries and in names of files. -/
structure Moment where
  timestamp : String
  stamp : String

/-- The arguments and the environment of a run. -/
structure Invocation where
  arguments : Arguments
  environment : List (String × String) := []

namespace Invocation

/-- The value of the option `k`, if it has one. -/
def value? (i : Invocation) (k : Key) : Option String := i.arguments.value? i.environment k

/-- The configuration in the file of `--config`, or the usual one, before its options are set. -/
def baseConfig (i : Invocation) (d : Disk) : Except ConfigError Config :=
  match i.value? .config with
  | some path => Config.load d path
  | none => .ok {}

/-- A configuration with the options that stand on the command line in the place of its own. -/
def override (i : Invocation) (c : Config) : Config :=
  { c with
    scan := { c.scan with rootPath := (i.value? .root).getD c.scan.rootPath }
    artifacts := { c.artifacts with
      outputDir := (i.value? .artifactDir).getD c.artifacts.outputDir } }

/-- The configuration of a run, unless it has a `flaw?`. -/
def config (i : Invocation) (d : Disk) : Except ConfigError Config := do
  let c := i.override (← i.baseConfig d)
  match Scanner.flaw? d c with
  | some e => .error e
  | none => .ok c

/-! ## Review logs -/

/-- The path of the review log of a run. -/
def reviewLogPath (c : Config) (m : Moment) : String :=
  Path.join c.artifactDir (c.artifacts.reviewLogPrefix ++ m.stamp ++ "_payload.md")

/-- Makes the file at `reviewLogPath` if it is not there. It may be impossible; the run goes on then. -/
def openReviewLog (c : Config) (d : Disk) (m : Moment) : Disk :=
  match d.makeDirectories c.artifactDir with
  | (.error _, d) => d
  | (.ok (), d) =>
    let path := reviewLogPath c m
    if d.exists? path then d else (d.writeText path "").2

/-! ## Commands -/

/-- The conversation with the store about a summary. -/
def talk (i : Invocation) (c : Config) (d : Disk) (s : Summary) : Remainder :=
  match RestClient.ofCredentials (i.value? .storeUrl) (i.value? .storeKey) with
  | .error e => .failure e.message
  | .ok client => .sync client (Sync.sessionWith client c d s)

/-- Scans and writes the artifacts. -/
def scan (i : Invocation) (c : Config) (d : Disk) (m : Moment) : Progressed :=
  let d := openReviewLog c d m
  let routes := (i.value? .routes).map (Artifacts.registeredRoutes d)
  match Scanner.ofConfig d c .usual routes with
  | .error e => { disk := d, remainder := .failure e.message }
  | .ok scanner =>
    match scanner.run d m.timestamp with
    | (.error e, d) => { disk := d, remainder := .failure e.message }
    | (.ok o, d) =>
      { stdout := scanReport c o
        stderr := skippedReport o
        disk := d
        remainder := if i.arguments.isOn .noSync then .nothing else i.talk c d o.summary }

/-- Takes the summary that was written last, at `payloadJsonPath`. -/
def sync (i : Invocation) (c : Config) (d : Disk) : Progressed :=
  let path := c.payloadJsonPath
  let remainder := match Artifacts.readSummary d path with
    | .error e => .failure ("Failed to read " ++ path ++ ": " ++ e.message)
    | .ok none => .failure ("No summary at " ++ path ++ "; run \x60payreg scan\x60 first")
    | .ok (some s) => i.talk c d s
  { disk := d, remainder }

/-- Does what is asked for, up to the conversation with the store, which `Remainder` tells of. -/
def begin (i : Invocation) (d : Disk) (m : Moment) : Progressed :=
  match i.config d with
  | .error e => { disk := d, remainder := .failure e.message }
  | .ok c =>
    match i.arguments.place with
    | .sync => i.sync c d
    | _ => i.scan c d m

end Invocation

/-! ## Command lines -/

/-- The name and the version of the program in a place. -/
def versionText : Place → String
  | .ahead => "payreg 0.1.0\n"
  | .scan => "payreg-scan 0.1.0\n"
  | .sync => "payreg-sync 0.1.0\n"

/-- How the program is used. -/
def usageText : String := ofLines ["Usage: payreg [OPTIONS] <COMMAND>"]

/-- What comes of a run: how it ends, and what it says. -/
structure Ending where
  code : Nat
  stdout : String
  stderr : String
  deriving DecidableEq, Repr, Inhabited

/-- The ending of a run whose arguments were not read to the end. -/
def Stop.ending : Stop → Ending
  | .usage => ⟨2, "", usageText⟩
  | .help => ⟨0, usageText, ""⟩
  | .version p => ⟨0, versionText p, ""⟩

namespace Progressed

/-- The ending of a run with nothing left to do, or with what came of the conversation. -/
def ending (p : Progressed) (outcome : SyncOutcome) : Ending :=
  match p.remainder with
  | .nothing => ⟨0, p.stdout, p.stderr⟩
  | .failure message => ⟨1, p.stdout, p.stderr ++ "Error: " ++ message ++ "\n"⟩
  | .sync .. => ⟨0, p.stdout ++ syncReport outcome, p.stderr⟩

/-- Lets a conversation take place, where `send` sends requests in a state. -/
def finish {σ : Type} (p : Progressed) (send : RestClient.Sender σ) (time : σ → String) (s : σ) :
    Ending × σ :=
  match p.remainder with
  | .sync client session =>
    let answer (call : Call) (s : σ) : Answer × σ := match client with
      | some c => c.answer send call s
      | none => (.error (.unavailable "there is no store"), s)
    let (outcome, s) := session.run { answer, time } s
    (p.ending outcome, s)
  | _ => (p.ending {}, s)

end Progressed

end PayloadAtlas.Command
