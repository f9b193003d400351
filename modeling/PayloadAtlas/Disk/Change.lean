import PayloadAtlas.Disk
import PayloadAtlas.Path

/-!
# Changes on a disk

Writing files, making directories and links, taking things away. What cannot be done to its end may have
been done in part; so every change gives the disk that it leaves, whether or not it failed.
-/

namespace PayloadAtlas.Disk

/-- What comes of a change: whether it could be made, and the disk that it leaves. -/
abbrev Change := Except FileError Unit × Disk

/-- Goes on with `next` if the first change could be made. -/
def Change.andThen (c : Change) (next : Disk → Change) : Change :=
  match c with
  | (.ok (), d) => next d
  | (.error e, d) => (.error e, d)

/-- Writes a file, over what was in it. One that refuses to be opened is left as it is. -/
def writeBytes (d : Disk) (path : Bytes) (content : ByteArray) : Change :=
  match d.locate true path with
  | .error e => (.error e, d)
  | .ok (.free l directory) =>
    if directory then (.error .isDirectory, d) else (.ok (), d.place l (.file (.bytes content)))
  | .ok (.found l) =>
    match d.at? l with
    | some ⟨.file (.bytes _), _⟩ => (.ok (), d.place l (.file (.bytes content)))
    | some ⟨.file (.refused message), _⟩ => (.error (.refused message), d)
    | _ => (.error .isDirectory, d)

/-- Writes a text as a file, in UTF-8. -/
def writeText (d : Disk) (path text : String) : Change :=
  d.writeBytes (Text.bytesOf path) text.toUTF8

/-- Makes the directory `path`, in one that is there. -/
def makeDirectory (d : Disk) (path : Bytes) : Change :=
  match d.locate false path with
  | .error e => (.error e, d)
  | .ok (.free l _) => (.ok (), d.place l .directory)
  | .ok (.found _) => (.error .alreadyExists, d)

/-- Whether the bytes `path` lead to a directory. -/
def leadsToDirectory (d : Disk) (path : Bytes) : Bool :=
  match d.find true path with
  | .ok (_, ⟨.directory, _⟩) => true
  | _ => false

/-- Makes the directory `path` where something else may be: a directory that is there will do. -/
def ensureDirectory (d : Disk) (path : Bytes) : Change :=
  match d.makeDirectory path with
  | (.ok (), d) => (.ok (), d)
  | (.error e, d) => if d.leadsToDirectory path then (.ok (), d) else (.error e, d)

/-- Makes the first of some directories, each of which lies in the next one; those that are `notFound` are made
before. -/
def makeChain (d : Disk) : List Bytes → Change
  | [] => (.error .notFound, d)
  | path :: outer =>
    if path = [] then (.ok (), d)
    else
      match d.ensureDirectory path with
      | (.error .notFound, d) => (d.makeChain outer).andThen fun d => d.ensureDirectory path
      | c => c

/-- Makes a directory and all that it lies in, its `Path.ancestors`. -/
def makeDirectories (d : Disk) (path : String) : Change :=
  d.makeChain ((Path.ancestors path).map Text.bytesOf)

/-- Makes a link to `target`, which need not be there. -/
def makeLink (d : Disk) (path target : Bytes) : Change :=
  match d.locate false path with
  | .error e => (.error e, d)
  | .ok (.free l directory) =>
    if directory then (.error .notFound, d) else (.ok (), d.place l (.link target))
  | .ok (.found _) => (.error .alreadyExists, d)

/-- Sets the time at which something was changed. -/
def setModified (d : Disk) (path : Bytes) (time : Int) : Change :=
  match d.find true path with
  | .error e => (.error e, d)
  | .ok (l, e) => (.ok (), d.put l { e with modified := time })

/-- Takes away what is at a path, with all that lies below. -/
def remove (d : Disk) (path : Bytes) : Change :=
  match d.find false path with
  | .error e => (.error e, d)
  | .ok (l, _) =>
    let kept := d.entries.filter fun (m, _) => !l.isPrefixOf m
    (.ok (), { d with entries := kept }.touch l.dropLast)

/-- A disk with nothing but the directory `working` and those that it lies in. -/
def ofWorking (working : Location) (clock : Int) : Disk where
  entries := (List.range working.length).map fun n => (working.take (n + 1), ⟨.directory, clock⟩)
  working
  clock

end PayloadAtlas.Disk
