/-!
# Paths

Paths are texts whose components stand between slashes. Repeated slashes, a slash at the end and the
component `.`, unless it is the first, mean nothing. What is said here about a path is said of its text
alone, without looking at any file.
-/

namespace PayloadAtlas.Path

/-- A text cut at each `sep`; there is at least one piece. -/
def cut (sep : Char) : List Char → List (List Char)
  | [] => [[]]
  | c :: rest =>
    match cut sep rest with
    | [] => [[c]]
    | piece :: pieces => if c = sep then [] :: piece :: pieces else (c :: piece) :: pieces

/-- What stands between the slashes of a path, as in `a`, `b` for `a/b`. -/
def pieces (p : String) : List String := (cut '/' p.toList).map String.ofList

/-- Pieces with `/` between them. -/
def ofPieces (ps : List String) : String := "/".intercalate ps

/-- Whether a piece after the first is a component: it is neither empty nor `.`. -/
def counts (piece : String) : Bool := piece != "" && piece != "."

/-- The components of a path; a `/` at the beginning is one by itself. -/
def components (p : String) : List String :=
  if p = "" then []
  else
    match pieces p with
    | [] => []
    | first :: rest => (if first = "" then "/" else first) :: rest.filter counts

/-- Whether a path begins with `/`. -/
def isAbsolute (p : String) : Bool := p.toList.head? == some '/'

/-- Whether a path ends with `/`. -/
def endsOpen (p : String) : Bool := p.toList.getLast? == some '/'

/-- The path `b` from `a` on, or by itself if it is absolute. -/
def join (a b : String) : String :=
  if isAbsolute b then b
  else if a = "" || endsOpen a then a ++ b
  else a ++ "/" ++ b

/-- Whether a component is the name of something: no `/`, no `.` and no `..`. -/
def isName (c : String) : Bool := c != "/" && c != "." && c != ".."

/-- The name that a path ends with. -/
def fileName? (p : String) : Option String := (components p).getLast?.bind fun c =>
  if isName c then some c else none

/-- A name as its stem and its extension, cut at the last dot; there is no extension in `.profile`. -/
def splitName (name : String) : String × Option String :=
  let back := name.toList.reverse
  let ext := back.takeWhile (· != '.')
  match back.drop ext.length with
  | [] => (name, none)
  | [_] => (name, none)
  | _ :: stem => (String.ofList stem.reverse, some (String.ofList ext.reverse))

/-- The extension of the name that a path ends with. -/
def extension? (p : String) : Option String := (fileName? p).bind fun n => (splitName n).2

/-- The stem of the name that a path ends with. -/
def stem? (p : String) : Option String := (fileName? p).map fun n => (splitName n).1

/-- A list without the items at its end that `keep` does not hold of. -/
def trimEnd {α : Type} (keep : α → Bool) (xs : List α) : List α :=
  (xs.reverse.dropWhile fun x => !keep x).reverse

/-- A path up to the stem of its name. -/
def upToStem (p : String) : String :=
  match stem? p with
  | none => p
  | some stem =>
    match pieces p with
    | [] => p
    | first :: rest =>
      let kept := first :: trimEnd counts rest
      ofPieces (kept.dropLast ++ [stem])

/-- A path without the extension of its name. What is left when the letters of the extension are taken
off may be no name any more, as is `..`; it stays as it is then. -/
def withoutExtension (p : String) : String :=
  match extension? p with
  | none => p
  | some ext => upToStem (String.ofList (p.toList.take (p.length - ext.length)))

/-- The dotted name of the module in a file, as in `a.b` for `a/b.py`. -/
def moduleName (p : String) : String := ".".intercalate (components (withoutExtension p))

/-- The pieces after a number of components. -/
def dropComponents : Nat → List String → List String
  | 0, ps => ps
  | _ + 1, [] => []
  | n + 1, p :: ps => if counts p then dropComponents n ps else dropComponents (n + 1) ps

/-- The path that a path lies in: itself without its last component. -/
def parent? (p : String) : Option String :=
  match pieces p with
  | [] => none
  | first :: rest =>
    match trimEnd counts rest with
    | [] => if first = "" then none else some ""
    | kept =>
      match trimEnd counts kept.dropLast with
      | [] => some (if first = "" then "/" else first)
      | more => some (ofPieces (first :: more))

/-- The first so many paths among a path, the one that it lies in, and so on. -/
def firstAncestors : Nat → String → List String
  | 0, _ => []
  | n + 1, p =>
    match parent? p with
    | none => [p]
    | some q => p :: firstAncestors n q

/-- A path, the one that it lies in, and so on. -/
def ancestors (p : String) : List String := firstAncestors ((components p).length + 1) p

/-- What follows in the path `p` after `base`, by components. -/
def stripPrefix? (p base : String) : Option String :=
  let b := components base
  if (components p).take b.length ≠ b then none
  else
    match pieces p with
    | [] => some ""
    | first :: rest =>
      if b = [] then some (ofPieces (first :: trimEnd counts rest))
      else
        let left := dropComponents (b.length - 1) rest
        some (ofPieces (trimEnd counts (left.dropWhile fun x => !counts x)))

/-- The place of a component among others: a root, then `.` and `..`, then names. -/
def rank (c : String) : Nat :=
  if c = "/" then 0 else if c = "." then 1 else if c = ".." then 2 else 3

/-- Whether the components of a path do not come after those of another, by `rank` and then as texts. -/
def notAfter : List String → List String → Bool
  | [], _ => true
  | _ :: _, [] => false
  | a :: as, b :: bs =>
    if a = b then notAfter as bs
    else if rank a = rank b then decide (a < b) else decide (rank a < rank b)

/-- Paths in order, by `components`. -/
def sorted (ps : List String) : List String :=
  ps.mergeSort fun a b => notAfter (components a) (components b)

end PayloadAtlas.Path
