import PayloadAtlas.Command.Run
import PayloadAtlas.Rest.Wire
import Std.Async.DNS
import Std.Async.TCP
import Std.Time

/-!
# The program

The command line of this machine: it takes a picture of the files that a run can look at, lets the run be
done on the picture, writes down what has changed, and leads the conversation with the store.
-/

namespace PayloadAtlas.Program

open Command (Arguments Ending Invocation Moment Progressed)

/-! ## Time -/

/-- The form of times in summaries and records. -/
def timestampForm : String := "uuuu-MM-dd'T'HH:mm:ss.SSSSSS"

/-- The form of times in the names of files. -/
def stampForm : String := "uuuuMMdd_HHmmss"

/-- The time in the zone that all times in records are given in. -/
def timestamp : IO String := do
  let wall := Std.Time.WallTime.ofTimestamp (← Std.Time.Timestamp.now)
    Std.Time.TimeZone.Offset.zero
  return (Std.Time.PlainDateTime.ofWallTime wall).format timestampForm

/-- The time of a run. -/
def moment : IO Moment := do
  return ⟨← timestamp, (← Std.Time.PlainDateTime.now).format stampForm⟩

/-! ## Files -/

/-- An absolute path as a location. -/
def locationOf (path : String) : Location :=
  (Disk.cut (Text.bytesOf path)).filter (· ≠ [])

/-- A location as an absolute path. -/
def pathOf (l : Location) : String :=
  Text.lossy (Disk.slash :: [Disk.slash].intercalate l)

/-- The entry of a directory with a name. -/
def entryOf (l : Location) (name : Bytes) : IO.FS.DirEntry := ⟨pathOf l, Text.lossy name⟩

/-- What the system says of an error, with the number that it has. -/
def told : IO.Error → String
  | .permissionDenied _ code details | .noFileOrDirectory _ code details | .resourceExhausted _ code details
  | .inappropriateType _ code details | .interrupted _ code details =>
    details ++ " (os error " ++ toString code ++ ")"
  | .hardwareFault code details | .otherError code details | .resourceBusy code details
  | .timeExpired code details | .resourceVanished code details =>
    details ++ " (os error " ++ toString code ++ ")"
  | cause => toString cause

/-- A disk with an entry of a directory, and with all that lies below it, unless its name is one of those to
leave out. A file that cannot be read is there all the same (`Content.refused`); one that has gone since its directory
was listed is not. -/
partial def copyEntry (skip : List String) (d : Disk) (l : Location) (e : IO.FS.DirEntry) :
    IO Disk := do
  let some data ← try (some <$> e.path.symlinkMetadata) catch _ => pure none
    | return d
  let modified := data.modified.sec
  match data.type with
  | .symlink =>
    let target ← try (toString <$> IO.FS.realPath e.path) catch _ => pure ""
    return d.put l ⟨.link (Text.bytesOf target), modified⟩
  | .file =>
    -- the scan tells the refusal as an error of this file, and goes on
    let content ← try Content.bytes <$> IO.FS.readBinFile e.path catch cause => pure (.refused (told cause))
    return d.put l ⟨.file content, modified⟩
  | .other => return d
  | .dir =>
    let mut d := d.put l ⟨.directory, modified⟩
    if e.fileName ∈ skip then return d
    for inner in ← e.path.readDir do
      d ← copyEntry skip d (l ++ [Text.bytesOf inner.fileName]) inner
    return d

/-- A disk with what is reached from a location over some names, and with all that lies below it; and with
the directories and links on the way. -/
partial def copyPath (skip : List String) (d : Disk) (here : Location) :
    List Bytes → IO Disk
  | [] => copyEntry skip d here ⟨pathOf here, "."⟩
  | name :: rest => do
    if name = [Disk.dot] then return ← copyPath skip d here rest
    if name = [Disk.dot, Disk.dot] then return ← copyPath skip d here.dropLast rest
    let l := here ++ [name]
    let some data ← try (some <$> (entryOf here name).path.symlinkMetadata) catch _ => pure none
      | return d
    match data.type with
    | .symlink =>
      let target ← try (toString <$> IO.FS.realPath (entryOf here name).path) catch _ => pure ""
      let d := d.put l ⟨.link (Text.bytesOf target), data.modified.sec⟩
      if target = "" then return d
      copyPath skip d [] (locationOf target ++ rest)
    | .dir => copyPath skip (d.put l ⟨.directory, data.modified.sec⟩) l rest
    | _ => copyPath skip d l []

/-- A disk with what an absolute path leads to. -/
def picture (skip : List String) (d : Disk) (path : String) : IO Disk :=
  copyPath skip d [] (locationOf path)

/-- A path as one from the root of this machine. -/
def absolute (working path : String) : String := Path.join working path

/-- A disk with all that a run can look at. -/
def filesOf (working : String) (i : Invocation) (start : Disk) : IO Disk := do
  let mut d := start
  if let some path := i.value? .config then d ← picture [] d (absolute working path)
  if let some path := i.value? .routes then d ← picture [] d (absolute working path)
  let c := match i.baseConfig d with
    | .ok c => i.override c
    | .error _ => {}
  let root := absolute working c.scan.rootPath
  for above in (Path.ancestors root).tail do
    for name in [".ignore", ".gitignore", ".git"] do
      d ← picture ["objects"] d (Path.join above name)
  d ← picture c.scan.excludeDirs d root
  d ← picture [] d (absolute working c.artifactDir)
  picture [] d (absolute working c.realmPath)

/-- Writes down what has changed. -/
def keep (old new : Disk) : IO Unit := do
  for (l, e) in new.entries do
    if (old.at? l).map Entry.node ≠ some e.node then
      match e.node with
      | .directory => IO.FS.createDirAll (pathOf l)
      | .file (.bytes content) => IO.FS.writeBinFile (pathOf l) content
      | .file (.refused _) | .link _ => pure ()

/-! ## Requests -/

/-- The most bytes that are taken at once. -/
def portion : UInt64 := 65536

/-- All bytes that come until the connection is closed. -/
partial def receive (socket : Std.Async.TCP.Socket.Client) (got : ByteArray) :
    Std.Async.Async ByteArray := do
  match ← socket.recv? portion with
  | some more => receive socket (got ++ more)
  | none => return got

/-- The places that an address stands for. -/
def places (u : Url) : IO (List Std.Net.SocketAddress) := do
  let port := UInt16.ofNat u.port
  let found ← (Std.Async.DNS.getAddrInfo u.host (toString u.port)).block
  return found.toList.map fun
    | .v4 addr => .v4 ⟨addr, port⟩
    | .v6 addr => .v6 ⟨addr, port⟩

/-- Sends a request, and waits for the reply. -/
def exchange (r : Request) : IO (Option Reply) := do
  if r.url.protocol ≠ .http then return none
  try
    let place :: _ ← places r.url | return none
    let socket ← Std.Async.TCP.Socket.Client.mk
    (socket.connect place).block
    (socket.send r.toWire).block
    return Reply.ofWire? (← (receive socket ByteArray.empty).block).data.toList
  catch _ => return none

/-- The answer to a call. -/
def answer (client : Option RestClient) (call : Call) : IO Answer := do
  let some c := client | return .error (.unavailable "there is no store")
  let some r := c.requestOf? call | return .error (.transport "the request cannot be sent")
  match ← exchange r with
  | some reply => return RestClient.answerOf reply
  | none => return .error (.transport "no reply came")

/-- Leads a conversation. -/
def talk {α : Type} (client : Option RestClient) : Session α → IO α
  | .done a => pure a
  | .ask call next => do
    let a ← answer client call
    talk client (next a)
  | .clock next => do
    let t ← timestamp
    talk client (next t)

/-! ## Runs -/

/-- The environment variables that count. -/
def environment : IO (List (String × String)) := do
  let names := [Command.Key.root, .config, .storeUrl, .storeKey].filterMap Command.Key.environmentName?
  let values ← names.mapM fun n => do return (← IO.getEnv n).map fun v => (n, v)
  return values.filterMap id

/-- Does what arguments ask for. -/
def run (arguments : Arguments) : IO Ending := do
  let invocation : Invocation := { arguments, environment := ← environment }
  let working ← IO.currentDir
  let seconds := (← Std.Time.Timestamp.now).toNanosecondsSinceUnixEpoch.val / 1000000000
  let start := Disk.ofWorking (locationOf (toString working)) seconds
  let old ← filesOf (toString working) invocation start
  let begun := invocation.begin old (← moment)
  keep old begun.disk
  match begun.remainder with
  | .sync client session => return begun.ending (← talk client session)
  | _ => return begun.ending {}

end PayloadAtlas.Program

open PayloadAtlas in
/-- The command line. -/
def main (args : List String) : IO UInt32 := do
  let ending ← match Command.Arguments.read args with
    | .error stop => pure stop.ending
    | .ok arguments => Program.run arguments
  IO.print ending.stdout
  IO.eprint ending.stderr
  return UInt32.ofNat ending.code
