import PayloadAtlas.Disk
import PayloadAtlas.Ignore.Glob
import PayloadAtlas.Text.Space

/-!
# Ignore files

Each line of an ignore file is a rule: which paths it is about, and whether they are left out or taken in
again. Of the rules of one file the last that fits counts. A directory may hold three such files; one kind
goes before the next whatever the directories are, and among files of one kind the innermost directory that
has a rule that fits.
-/

namespace PayloadAtlas.Ignore

open Text (trimRight)

/-! ## Rules -/

/-- A line of an ignore file. -/
structure Rule where
  glob : Glob
  /-- Whether it takes paths in again. -/
  reopens : Bool
  directoriesOnly : Bool
  deriving Inhabited

namespace Rule

/-- Whether a text ends with another one. -/
def endsWith (tail cs : List Char) : Bool := tail.isSuffixOf cs

/-- A line without the blanks at its end, unless the last one is escaped as in `\ `. -/
def trimLine (line : List Char) : List Char :=
  if endsWith ['\\', ' '] line then line else trimRight line

/-- The pattern of a rule: one without a slash fits at any depth, as one with `**/` before it does, and one that ends
with all that lies below a directory does not fit the directory itself. -/
def pattern (anchored : Bool) (cs : List Char) : List Char :=
  let isDeep := ['*', '*', '/'].isPrefixOf cs || cs == ['*', '*']
  let cs := if anchored || '/' ∈ cs || isDeep then cs else ['*', '*', '/'] ++ cs
  if endsWith ['/', '*', '*'] cs then cs ++ ['/', '*'] else cs

/-- The body of a rule without a `/` at its end, and whether there was one. -/
def splitSlash (cs : List Char) : List Char × Bool :=
  if endsWith ['/'] cs then
    let cs := cs.dropLast
    (if endsWith ['\\'] cs then cs.dropLast else cs, true)
  else (cs, false)

/-- The rule of a line. Comments, which begin with `#`, and blank lines are none. -/
def ofLine (line : List Char) : Except GlobError (Option Rule) :=
  if line.head? = some '#' then .ok none
  else
    let line := trimLine line
    if line = [] then .ok none
    else
      let escaped := ['\\', '!'].isPrefixOf line || ['\\', '#'].isPrefixOf line
      let reopens := line.head? = some '!'
      let body := if escaped || reopens then line.tail else line
      let anchored := !escaped && body.head? = some '/'
      let (body, directoriesOnly) := splitSlash (if anchored then body.tail else body)
      (Glob.ofText (pattern anchored body)).map fun glob =>
        some { glob, reopens, directoriesOnly }

/-- Whether a rule is about a path. -/
def fits (r : Rule) (path : Bytes) (isDirectory : Bool) : Bool :=
  (!r.directoriesOnly || isDirectory) && r.glob.fits path

end Rule

/-- What rules say about a path. -/
inductive Verdict where
  | leftOut
  | takenIn
  deriving DecidableEq, Repr

/-- What a list of rules says about a path: the last one that `fits` counts. -/
def verdictOf (rules : List Rule) (path : Bytes) (isDirectory : Bool) : Option Verdict :=
  (rules.reverse.find? fun r => r.fits path isDirectory).map fun r =>
    if r.reopens then .takenIn else .leftOut

/-! ## Files -/

/-- The lines of a file, without their ends. -/
def lines : Bytes → List Bytes
  | [] => []
  | bytes@(_ :: _) => go bytes []
where
  /-- The lines of what is left, `rev` being the line so far, its last byte first. -/
  go : Bytes → Bytes → List Bytes
    | [], [] => []
    | [], rev => [rev.reverse]
    | 10 :: rest, rev => (if rev.head? = some 13 then rev.tail else rev).reverse :: go rest []
    | b :: rest, rev => go rest (b :: rev)

/-- The mark that may stand at the beginning of a text. -/
def byteOrderMark : Char := '\ufeff'

/-- The lines of a file as texts, up to the first that is none, without a `byteOrderMark`. -/
def textLines (content : Bytes) : List (List Char) :=
  let texts := (lines content).map fun l => (Text.ofBytes? l).map String.toList
  match (texts.takeWhile Option.isSome).filterMap id with
  | [] => []
  | first :: rest => first.dropWhile (· == byteOrderMark) :: rest

/-- The rules of a file; lines that are no patterns are left out, as `isFlawed` tells. -/
def rulesOf (content : Bytes) : List Rule :=
  (textLines content).filterMap fun l =>
    match Rule.ofLine l with
    | .ok r => r
    | .error _ => none

/-- Whether a file has a line that is no pattern. -/
def isFlawed (content : Bytes) : Bool :=
  (textLines content).any fun l => !(Rule.ofLine l).isOk

/-- The content of the file with `names` below the location `l`; nothing if there is no file. -/
def contentAt (d : Disk) (l : Location) (names : List String) : Bytes :=
  let path := Disk.slash :: [Disk.slash].intercalate (l ++ names.map Text.bytesOf)
  match d.readBytes path with
  | .ok content => content.data.toList
  | .error _ => []

/-! ## Directories -/

/-- The rules of a directory, from its three files `.ignore`, `.gitignore` and `.git/info/exclude`. -/
structure Layer where
  location : Location
  own : List Rule
  shared : List Rule
  excluded : List Rule
  deriving Inhabited

namespace Layer

/-- The files of a directory that hold rules. -/
def files : List (List String) := [[".ignore"], [".gitignore"], [".git", "info", "exclude"]]

/-- The rules of the directory at a location, where `path` says how it is reached. -/
def ofDirectory (d : Disk) (location path : Location) : Layer where
  location := path
  own := rulesOf (contentAt d location [".ignore"])
  shared := rulesOf (contentAt d location [".gitignore"])
  excluded := rulesOf (contentAt d location [".git", "info", "exclude"])

/-- Whether a file of the directory at a location has a line that is no pattern. -/
def isFlawed (d : Disk) (location : Location) : Bool :=
  files.any fun names => Ignore.isFlawed (contentAt d location names)

/-- What some of the rules say about what is reached by a path. -/
def verdict (rules : Layer → List Rule) (path : Location) (isDirectory : Bool) (l : Layer) :
    Option Verdict :=
  let below := path.drop l.location.length
  verdictOf (rules l) ([Disk.slash].intercalate below) isDirectory

end Layer

/-- What the rules of directories, the innermost first, say about what is reached by `path`. -/
def verdict? (layers : List Layer) (path : Location) (isDirectory : Bool) : Option Verdict :=
  let first (rules : Layer → List Rule) :=
    layers.findSome? (Layer.verdict rules path isDirectory)
  ((first Layer.own).or (first Layer.shared)).or (first Layer.excluded)

end PayloadAtlas.Ignore
