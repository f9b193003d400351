/-!
# Arguments

What is asked for on the command line. Options that choose where things are can stand before the command
or after it, or come from the environment: what stands after the command goes before what stands ahead of
it, and that before the environment. An option may be given once in each place.

Arguments are read one after the other, and the first that is wrong, or asks for help or for the version,
ends the reading.
-/

namespace PayloadAtlas.Command

/-- An option with a value, such as `--root`. -/
inductive Key where
  | root
  | config
  | artifactDir
  | storeUrl
  | storeKey
  | routes
  deriving DecidableEq, Repr, Inhabited

/-- An option without a value, such as `--verbose`. -/
inductive Switch where
  | verbose
  | noSync
  | help
  | version
  deriving DecidableEq, Repr, Inhabited

/-- Where arguments stand: `ahead` of a command, or after `scan` or `sync`. -/
inductive Place where
  | ahead
  | scan
  | sync
  deriving DecidableEq, Repr, Inhabited

/-- An option. -/
inductive Opt where
  | key (k : Key)
  | switch (s : Switch)
  deriving DecidableEq, Repr, Inhabited

namespace Place

/-- The options that can be given in any place, by their long names without `--`. -/
def common : List (String × Opt) :=
  [("root", .key .root), ("config", .key .config), ("artifact-dir", .key .artifactDir),
    ("store-url", .key .storeUrl), ("store-key", .key .storeKey), ("verbose", .switch .verbose),
    ("help", .switch .help), ("version", .switch .version)]

/-- The options of a place, by their long names. -/
def long : Place → List (String × Opt)
  | .scan => [("no-sync", .switch .noSync), ("routes", .key .routes)] ++ common
  | _ => common

/-- The options of a place, by their letters. -/
def short : List (Char × Opt) :=
  [('r', .key .root), ('c', .key .config), ('v', .switch .verbose), ('h', .switch .help),
    ('V', .switch .version)]

/-- The place after the command `name`. -/
def ofCommand? (name : String) : Option Place :=
  if name = "scan" then some .scan else if name = "sync" then some .sync else none

end Place

/-- The environment variables that options can come from, such as `PAYREG_ROOT`. -/
def Key.environmentName? : Key → Option String
  | .root => some "PAYREG_ROOT"
  | .config => some "PAYREG_CONFIG"
  | .storeUrl => some "SUPABASE_URL"
  | .storeKey => some "SUPABASE_SERVICE_ROLE_KEY"
  | _ => none

/-- What was given in one place. -/
structure Given where
  values : List (Key × String) := []
  switches : List Switch := []
  deriving DecidableEq, Repr, Inhabited

/-- Why arguments are not read to the end. -/
inductive Stop where
  /-- They make no sense. -/
  | usage
  /-- Help is asked for. -/
  | help
  /-- The version is asked for, in a place. -/
  | version (p : Place)
  deriving DecidableEq, Repr, Inhabited

namespace Given

/-- Gives the value `v` to the option `k`, if it has none. -/
def setValue (g : Given) (k : Key) (v : String) : Except Stop Given :=
  if (g.values.lookup k).isSome then .error .usage
  else .ok { g with values := (k, v) :: g.values }

/-- Turns the switch `s` on. -/
def turnOn (p : Place) (g : Given) (s : Switch) : Except Stop Given :=
  match s with
  | .help => .error .help
  | .version => .error (.version p)
  | s => if s ∈ g.switches then .error .usage else .ok { g with switches := s :: g.switches }

end Given

/-! ## Reading -/

/-- A text before and after its first `=`. -/
def cutAtEquals : List Char → List Char × Option (List Char)
  | [] => ([], none)
  | c :: rest =>
    if c = '=' then ([], some rest)
    else
      let (a, b) := cutAtEquals rest
      (c :: a, b)

/-- What was given, and the option whose value comes next, if there is one. -/
abbrev Progress := Given × Option Key

/-- Reads an option by its long name, with or without its value behind `=`. -/
def readLong (p : Place) (g : Given) (cs : List Char) : Except Stop Progress :=
  let (name, value) := cutAtEquals cs
  match p.long.lookup (String.ofList name), value with
  | none, _ => .error .usage
  | some (.key k), some v => (g.setValue k (String.ofList v)).map (·, none)
  | some (.key k), none => .ok (g, some k)
  | some (.switch _), some _ => .error .usage
  | some (.switch s), none => (g.turnOn p s).map (·, none)

/-- Reads options by their letters, as in `-vr.`. What follows the letter of an option with a value is its value. -/
def readShort (p : Place) (g : Given) : List Char → Except Stop Progress
  | [] => .ok (g, none)
  | c :: rest =>
    match Place.short.lookup c with
    | none => .error .usage
    | some (.switch s) => do readShort p (← g.turnOn p s) rest
    | some (.key k) =>
      match rest with
      | [] => .ok (g, some k)
      | '=' :: v => (g.setValue k (String.ofList v)).map (·, none)
      | v => (g.setValue k (String.ofList v)).map (·, none)

/-- Reads an argument that begins with `-` and goes on; nothing if it does not. -/
def readOption? (p : Place) (g : Given) (arg : String) : Option (Except Stop Progress) :=
  match arg.toList with
  | '-' :: '-' :: name => some (readLong p g name)
  | '-' :: c :: rest => some (readShort p g (c :: rest))
  | _ => none

/-- What stands after `--` is no option any more; nothing can stand there. -/
def endOfOptions : String := "--"

/-- Reads arguments after a command. -/
def readAfter (p : Place) (g : Given) (pending : Option Key) : List String → Except Stop Given
  | [] => if pending.isSome then .error .usage else .ok g
  | arg :: rest =>
    if arg = endOfOptions then
      if rest.isEmpty && pending.isNone then .ok g else .error .usage
    else
      match readOption? p g arg, pending with
      | some _, some _ => .error .usage
      | some r, none => do
        let (g, pending) ← r
        readAfter p g pending rest
      | none, some k => do readAfter p (← g.setValue k arg) none rest
      | none, none => .error .usage

/-- Reads what help is asked for. -/
def readHelp : List String → Stop
  | [] => .help
  | [name] => if (Place.ofCommand? name).isSome || name = "help" then .help else .usage
  | _ => .usage

/-- What was given: ahead of the command, which command, and after it. -/
structure Arguments where
  ahead : Given
  place : Place
  after : Given
  deriving DecidableEq, Repr, Inhabited

/-- Reads arguments up to a command. -/
def readAhead (g : Given) (pending : Option Key) : List String → Except Stop Arguments
  | [] => .error .usage
  | arg :: rest =>
    match pending, Place.ofCommand? arg with
    | none, some p => (readAfter p {} none rest).map fun after => ⟨g, p, after⟩
    | _, _ =>
      if pending.isNone && arg = "help" then .error (readHelp rest)
      else if arg = endOfOptions then .error .usage
      else
        match readOption? .ahead g arg, pending with
        | some _, some _ => .error .usage
        | some r, none => do
          let (g, pending) ← r
          readAhead g pending rest
        | none, some k => do readAhead (← g.setValue k arg) none rest
        | none, none => .error .usage

namespace Arguments

/-- The arguments of a command line. -/
def read (args : List String) : Except Stop Arguments := readAhead {} none args

/-- The value of the option `k`: after the command, ahead of it, or in the environment. -/
def value? (a : Arguments) (env : List (String × String)) (k : Key) : Option String :=
  ((a.after.values.lookup k).or (a.ahead.values.lookup k)).or (k.environmentName?.bind fun name => env.lookup name)

/-- Whether the switch `s` is on. -/
def isOn (a : Arguments) (s : Switch) : Bool := s ∈ a.after.switches || s ∈ a.ahead.switches

end Arguments

end PayloadAtlas.Command
