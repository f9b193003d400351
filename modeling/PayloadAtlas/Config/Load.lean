import PayloadAtlas.Config
import PayloadAtlas.Disk

/-!
# Configurations in files

A configuration is read from a file of JSON, and its root is looked up on the disk.
-/

namespace PayloadAtlas

/-- What is wrong with `root` as the root of a scan: it is not there, or is no directory. -/
def ConfigError.ofRoot? (d : Disk) (root : String) : Option ConfigError :=
  if !d.exists? root then some (.rootNotFound root)
  else if !d.isDirectory root then some (.rootNotDirectory root)
  else none

namespace Config

/-- What is wrong with the root of a configuration. -/
def rootFlaw? (c : Config) (d : Disk) : Option ConfigError := ConfigError.ofRoot? d c.scan.rootPath

/-- The configuration in the file at `path`. -/
def load (d : Disk) (path : String) : Except ConfigError Config :=
  match d.readText path with
  | .error e => .error (.read path e.message)
  | .ok text =>
    match Json.Decoder.ofText decoder text with
    | .error flaw => .error (.parse path flaw.message)
    | .ok c =>
      match c.flaw? with
      | some e => .error e
      | none => .ok c

end Config

end PayloadAtlas
