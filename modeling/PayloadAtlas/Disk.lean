import PayloadAtlas.Association
import PayloadAtlas.Text.Utf8

/-!
# Files on a disk

A `Disk` holds what is at which location, as a flat list; a location is the list of the names from the root
on. A path is a text that leads to a location: it starts at the root or at the working directory, goes up
where it says so, and goes on at the target of every link on its way.

A file may refuse to be opened (`Content.refused`), as one does that the user has no right to, or that the drive
can no longer read, or that is taken away between its listing and its reading. It is there all the same: a walk
meets it. Directories and links can always be looked at, and a file that can be read can be written.
-/

namespace PayloadAtlas

/-- A name or a path, as the disk knows it. -/
abbrev Bytes := List UInt8

/-- A place on a disk: the names from the root on. -/
abbrev Location := List Bytes

/-- What comes of opening a file: its `bytes`, or what the system says that refuses it. -/
inductive Content where
  | bytes (b : ByteArray)
  | refused (message : String)

/-- Contents are the same if their bytes are, or what is said in their place. -/
instance : DecidableEq Content
  | .bytes ⟨a⟩, .bytes ⟨b⟩ => decidable_of_iff (a = b) (by simp)
  | .refused a, .refused b => decidable_of_iff (a = b) (by simp)
  | .bytes _, .refused _ | .refused _, .bytes _ => .isFalse nofun

/-- What can be at a location. -/
inductive Node where
  | file (content : Content)
  | directory
  | link (target : Bytes)
  deriving DecidableEq

/-- What is at a location, and since when. -/
structure Entry where
  node : Node
  /-- When it was last changed, in seconds. -/
  modified : Int
  deriving DecidableEq

/-- Why something cannot be done. -/
inductive FileError where
  | notFound
  | notDirectory
  | isDirectory
  | alreadyExists
  | tooManyLinks
  | nameTooLong
  | badName
  | notText
  /-- For a reason of the system's own, as it tells it. -/
  | refused (message : String)
  deriving DecidableEq, Repr, Inhabited

/-- The text of an error. -/
def FileError.message : FileError → String
  | .notFound => "No such file or directory (os error 2)"
  | .notDirectory => "Not a directory (os error 20)"
  | .isDirectory => "Is a directory (os error 21)"
  | .alreadyExists => "File exists (os error 17)"
  | .tooManyLinks => "Too many levels of symbolic links (os error 40)"
  | .nameTooLong => "File name too long (os error 36)"
  | .badName => "file name contained an unexpected NUL byte"
  | .notText => "stream did not contain valid UTF-8"
  | .refused message => message

/-- Files, directories and links. -/
structure Disk where
  entries : List (Location × Entry) := []
  /-- Where paths start that do not start at the root. -/
  working : Location := []
  /-- The time at which things are changed. -/
  clock : Int := 0

namespace Disk

/-! ## Locations -/

/-- The entry of the root `[]`, which is always there. -/
def rootEntry : Entry := ⟨.directory, 0⟩

/-- What is at the location `l`. -/
def at? (d : Disk) (l : Location) : Option Entry :=
  if l = [] then some rootEntry else d.entries.lookup l

/-- Puts the entry `e` at the location `l`. -/
def put (d : Disk) (l : Location) (e : Entry) : Disk :=
  { d with entries := Association.set l e d.entries }

/-- Notes that the names in the directory `l` have changed: it has the time of now. -/
def touch (d : Disk) (l : Location) : Disk :=
  match d.at? l with
  | some ⟨.directory, _⟩ => d.put l ⟨.directory, d.clock⟩
  | _ => d

/-- Puts `node` at the location `l`, as a change of now. -/
def place (d : Disk) (l : Location) (node : Node) : Disk :=
  let isNew := (d.at? l).isNone
  let d := d.put l ⟨node, d.clock⟩
  if isNew then d.touch l.dropLast else d

/-- The locations right below `l`, in the order of their names. -/
def children (d : Disk) (l : Location) : List (Bytes × Entry) :=
  let found := d.entries.filterMap fun (m, e) =>
    match m.getLast? with
    | some name => if m.dropLast = l then some (name, e) else none
    | none => none
  found.mergeSort fun a b => !decide (b.1 < a.1)

/-! ## Paths -/

/-- The byte `/`, which stands between the names of a path. -/
def slash : UInt8 := 47

/-- The byte `.`. -/
def dot : UInt8 := 46

/-- A path cut at each `slash`; there is at least one piece. -/
def cut : Bytes → List Bytes
  | [] => [[]]
  | b :: rest =>
    match cut rest with
    | [] => [[b]]
    | piece :: pieces => if b = slash then [] :: piece :: pieces else (b :: piece) :: pieces

/-- Where a path leads: `found`, or `free` in a directory that is there. -/
inductive Place where
  | found (l : Location)
  /-- Nothing is there, but it could be made; `directory` if the path says that it is one. -/
  | free (l : Location) (directory : Bool)
  deriving DecidableEq, Repr

/-- The greatest number of bytes in a name. -/
def longestName : Nat := 255

/-- The greatest number of bytes in a path. -/
def longestPath : Nat := 4095

/-- The greatest number of links on a way. -/
def mostLinks : Nat := 40

/-- Where a path starts: at the root if it begins with a `slash`. -/
def start (here : Location) (path : Bytes) : Location :=
  if path.head? = some slash then [] else here

/-- Goes on from a location, piece by piece. With `follow`, a link at the end is gone on with as well. What
to do from the target of a link on is given. -/
def walk (d : Disk) (follow : Bool) (again : Location → List Bytes → Except FileError Place) :
    Location → List Bytes → Except FileError Place
  | here, [] => .ok (.found here)
  | here, piece :: rest =>
    match d.at? here with
    | some ⟨.directory, _⟩ =>
      if piece = [] ∨ piece = [dot] then d.walk follow again here rest
      else if piece = [dot, dot] then d.walk follow again here.dropLast rest
      else if longestName < piece.length then .error .nameTooLong
      else
        let next := here ++ [piece]
        match d.at? next with
        | none =>
          if rest.all (· = []) then .ok (.free next !rest.isEmpty) else .error .notFound
        | some ⟨.link target, _⟩ =>
          if rest = [] ∧ follow = false then .ok (.found next)
          else if target = [] then .error .notFound
          else again (start here target) (cut target ++ rest)
        | some _ => d.walk follow again next rest
    | some _ => .error .notDirectory
    | none => .error .notFound

/-- Goes on from a location over at most so many links, which `walk` finds. -/
def walkOver (d : Disk) (follow : Bool) : Nat → Location → List Bytes → Except FileError Place
  | 0 => d.walk follow fun _ _ => .error .tooManyLinks
  | n + 1 => d.walk follow (d.walkOver follow n)

/-- Where `path` leads to; with `follow` also over a link at its end. -/
def locate (d : Disk) (follow : Bool) (path : Bytes) : Except FileError Place :=
  if path = [] then .error .notFound
  else if 0 ∈ path then .error .badName
  else if longestPath < path.length then .error .nameTooLong
  else d.walkOver follow mostLinks (start d.working path) (cut path)

/-- What `path` leads to, and where that is. -/
def find (d : Disk) (follow : Bool) (path : Bytes) : Except FileError (Location × Entry) := do
  match ← d.locate follow path with
  | .free .. => .error .notFound
  | .found l =>
    match d.at? l with
    | some e => .ok (l, e)
    | none => .error .notFound

/-! ## Looking -/

/-- Whether `path` leads to something, links followed. -/
def exists? (d : Disk) (path : String) : Bool := (d.find true (Text.bytesOf path)).isOk

/-- Whether `path` leads to a directory, links followed. -/
def isDirectory (d : Disk) (path : String) : Bool :=
  match d.find true (Text.bytesOf path) with
  | .ok (_, ⟨.directory, _⟩) => true
  | _ => false

/-- The bytes of the file that a path leads to, unless it refuses to be opened. -/
def readBytes (d : Disk) (path : Bytes) : Except FileError ByteArray := do
  match ← d.find true path with
  | (_, ⟨.file (.bytes content), _⟩) => .ok content
  | (_, ⟨.file (.refused message), _⟩) => .error (.refused message)
  | _ => .error .isDirectory

/-- The bytes of the file at `path`. -/
def read (d : Disk) (path : String) : Except FileError ByteArray := d.readBytes (Text.bytesOf path)

/-- The text of the file at `path`, which must be UTF-8. -/
def readText (d : Disk) (path : String) : Except FileError String := do
  match String.fromUTF8? (← d.read path) with
  | some s => .ok s
  | none => .error .notText

/-- The text of the file at `path`, by `Text.lossy` whatever its bytes are. -/
def readLossy (d : Disk) (path : String) : Except FileError String :=
  (d.read path).map fun content => Text.lossy content.data.toList

/-- What is in the directory that `path` leads to, by `children`. -/
def list (d : Disk) (path : String) : Except FileError (List (Bytes × Entry)) := do
  match ← d.find true (Text.bytesOf path) with
  | (l, ⟨.directory, _⟩) => .ok (d.children l)
  | _ => .error .notDirectory

end Disk

end PayloadAtlas
