import PayloadAtlas.Config.Load
import PayloadAtlas.Ignore.Rules
import PayloadAtlas.Scan.Error

/-!
# Finding source files

A walk goes through the directories below a root and finds the regular files with certain extensions.
Directories of certain names are left out with all that they hold, at any depth; so is what ignore files
say, and hidden names, if they count.

Links are passed over, or followed if that is asked for; a followed link that leads nowhere, or back to a
directory that the walk is in, ends the walk.
-/

namespace PayloadAtlas

/-- Where source files are looked for, and which. -/
structure Walk where
  root : String
  /-- The names of directories that are left out. -/
  excluded : List String := []
  extensions : List String := ["py"]
  followLinks : Bool := false
  /-- Whether ignore files and hidden names count. -/
  heedsIgnoreFiles : Bool := false
  deriving Repr, Inhabited

namespace Walk

/-- The walk of a configuration. -/
def ofConfig (c : ScanConfig) : Walk where
  root := c.rootPath
  excluded := c.excludeDirs
  extensions := c.fileExtensions
  followLinks := c.followLinks
  heedsIgnoreFiles := c.respectGitignore

/-! ## Names -/

/-- Whether a name is hidden, as `.git` is. One that ends with a dot is not. -/
def isHidden (name : Bytes) : Bool :=
  name.head? == some Disk.dot && name.getLast? != some Disk.dot

/-- Whether a directory is left out by its name, by `excludeDirs`. -/
def excludes (w : Walk) (name : Bytes) : Bool :=
  match Text.ofBytes? name with
  | some s => s ∈ w.excluded
  | none => false

/-- The path of what is found under `names` below the root. -/
def pathOf (w : Walk) (names : List Bytes) : Bytes :=
  names.foldl (fun path name =>
    if path.getLast? = some Disk.slash then path ++ name else path ++ Disk.slash :: name)
    (Text.bytesOf w.root)

/-- Whether a path has one of the `extensions`. -/
def wants (w : Walk) (path : String) : Bool :=
  match Path.extension? path with
  | some ext => ext ∈ w.extensions
  | none => false

/-! ## Going through directories -/

/-- What the walk meets: a regular file, a directory and where it is, or something else. -/
inductive Met where
  | file
  | directory (l : Location)
  | other
  deriving DecidableEq, Repr

/-- What an entry of a directory is to the walk; `none`, if it is a link that cannot be followed. -/
def meet? (w : Walk) (d : Disk) (inside : List Location) (dir : Location) (name : Bytes)
    (e : Entry) : Option Met :=
  match e.node with
  | .file _ => some .file
  | .directory => some (.directory (dir ++ [name]))
  | .link _ =>
    if !w.followLinks then some .other
    else
      match d.walkOver true Disk.mostLinks dir [name] with
      | .ok (.found l) =>
        match d.at? l with
        | some ⟨.directory, _⟩ => if l ∈ inside then none else some (.directory l)
        | some ⟨.file _, _⟩ => some .file
        | _ => some .other
      | _ => none

/-- Where a walk stands. -/
structure Standing where
  /-- Where the directory is. -/
  location : Location
  /-- The names from the root of the walk on. -/
  names : List Bytes := []
  /-- The directories that the walk is in. -/
  inside : List Location
  /-- The rules of the directories that the walk is in, the innermost first. -/
  layers : List Ignore.Layer
  /-- Where the root of the walk is. -/
  root : Location

/-- Whether the rules of ignore files, or a name that `isHidden`, leave something out. -/
def leavesOut (w : Walk) (s : Standing) (name : Bytes) (isDirectory : Bool) : Bool :=
  w.heedsIgnoreFiles &&
    match Ignore.verdict? s.layers (s.root ++ s.names ++ [name]) isDirectory with
    | some .leftOut => true
    | some .takenIn => false
    | none => isHidden name

/-- A step into the directory `name`, which is at `l`. -/
def enter (w : Walk) (d : Disk) (s : Standing) (name : Bytes) (l : Location) : Standing :=
  let names := s.names ++ [name]
  { s with
    location := l
    names
    inside := l :: s.inside
    layers :=
      if w.heedsIgnoreFiles then Ignore.Layer.ofDirectory d l (s.root ++ names) :: s.layers
      else s.layers }

/-- The path of a file, if the walk `wants` it. -/
def collect (w : Walk) (names : List Bytes) : Except ScanError (List String) :=
  let path := w.pathOf names
  match Text.ofBytes? path with
  | none => .error (.notUtf8 (Text.lossy path))
  | some p => .ok (if w.wants p then [p] else [])

/-- What ends a walk at a link. -/
def badLink : ScanError := .walk "a link leads nowhere or back"

/-- The files below the directory of a `Standing`; the number bounds how deep directories nest. -/
def below (w : Walk) (d : Disk) : Nat → Standing → Except ScanError (List String)
  | 0, _ => .ok []
  | n + 1, s => do
    let found ← (d.children s.location).mapM fun (name, e) => do
      match w.meet? d s.inside s.location name e with
      | none => .error badLink
      | some .other => .ok []
      | some .file =>
        if w.leavesOut s name false then .ok [] else w.collect (s.names ++ [name])
      | some (.directory l) =>
        if w.leavesOut s name true || w.excludes name then .ok []
        else w.below d n (w.enter d s name l)
    return found.flatten

/-- Locations from the root of the disk to right above `l`. -/
def above (l : Location) : List Location := (List.range l.length).map fun n => l.take n

/-- The beginning of a walk in the directory `root`. -/
def begin (w : Walk) (d : Disk) (root : Location) : Standing where
  location := root
  inside := [root]
  root
  layers :=
    if w.heedsIgnoreFiles then
      ((above root ++ [root]).map fun l => Ignore.Layer.ofDirectory d l l).reverse
    else []

/-- A root `-` stands for the standard input, in which no files are. -/
def standardInput : String := "-"

/-- How deep directories can nest in a walk. A step goes to a longer location, or over a link to a directory
that the walk is not in. -/
def deepest (d : Disk) : Nat :=
  (d.entries.length + 2) * ((d.entries.map fun e => e.1.length).foldr max 0 + 1)

/-- The files that a walk finds below `root`, in order. -/
def files (w : Walk) (d : Disk) : Except ScanError (List String) :=
  match ConfigError.ofRoot? d w.root, d.find true (Text.bytesOf w.root) with
  | some e, _ => .error (.config e)
  | none, .error e => .error (.walk e.message)
  | none, .ok (root, _) =>
    if Path.components w.root = [standardInput] then .ok []
    else if w.heedsIgnoreFiles && (above root).any (Ignore.Layer.isFlawed d) then
      .error (.walk "an ignore file above the root is no list of patterns")
    else (w.below d (deepest d) (w.begin d root)).map Path.sorted

end Walk

end PayloadAtlas
