import PayloadAtlas.Rest.Percent

/-!
# Addresses

The addresses that a request can be sent to. A text is read leniently: blanks around it do not count, line
ends and tabs in it neither, a backslash is a slash, and what may not stand in an address is escaped. Dots
that stand alone as a segment of the path are resolved, and what follows a number sign is left out.
-/

namespace PayloadAtlas

/-- The protocols that an address can name. -/
inductive Protocol where
  | http
  | https
  deriving DecidableEq, Repr, Inhabited

/-- The port of a protocol, if no other is named. -/
def Protocol.port : Protocol → Nat
  | .http => 80
  | .https => 443

/-- The protocol of a name. -/
def Protocol.ofName? (name : List Char) : Option Protocol :=
  let name := String.ofList (name.map Char.toLower)
  if name = "http" then some .http else if name = "https" then some .https else none

/-- An address. -/
structure Url where
  protocol : Protocol
  host : String
  port : Nat
  /-- The segments of the path, with what may not stand there escaped. -/
  path : List String
  query : Option String
  deriving DecidableEq, Repr, Inhabited

namespace Url

/-! ## Cutting -/

/-- A text before and after the first character that `p` holds of; `none` if there is none. -/
def cutAt (p : Char → Bool) : List Char → Option (List Char × List Char)
  | [] => none
  | c :: rest => if p c then some ([], rest) else (cutAt p rest).map fun (a, b) => (c :: a, b)

/-- A text before the first `c`, and after it if there is one. -/
def splitAt (c : Char) (cs : List Char) : List Char × Option (List Char) :=
  match cutAt (· == c) cs with
  | some (a, b) => (a, some b)
  | none => (cs, none)

/-- Whether a character is a slash of either direction, `/` or `\`. -/
def isSlash (c : Char) : Bool := c == '/' || c == '\\'

/-- A text cut at its slashes. -/
def cutSlashes : List Char → List (List Char)
  | [] => [[]]
  | c :: rest =>
    match cutSlashes rest with
    | [] => [[c]]
    | piece :: pieces => if isSlash c then [] :: piece :: pieces else (c :: piece) :: pieces

/-- A text as it is read: without blanks around it, line ends and tabs. -/
def clean (s : String) : List Char :=
  let isBlank (c : Char) : Bool := c.toNat ≤ 0x20
  let cs := ((s.toList.dropWhile isBlank).reverse.dropWhile isBlank).reverse
  cs.filter fun c => c != '\t' && c != '\n' && c != '\r'

/-! ## Hosts -/

/-- The characters that cannot stand in the name of a host. -/
def forbidden : List Char :=
  [' ', '#', '/', ':', '<', '>', '?', '@', '[', '\\', ']', '^', '|', '%', '\x7f']

/-- Whether a text is the name of a host. -/
def isHost (cs : List Char) : Bool :=
  !cs.isEmpty && cs.all fun c => 0x20 ≤ c.toNat && c ∉ forbidden

/-- The greatest number of a port. -/
def maxPort : Nat := 65535

/-- The port that a text names, or `usual` if it is empty. -/
def portOf? (usual : Nat) (cs : List Char) : Option Nat :=
  if cs.isEmpty then some usual
  else if cs.all Char.isDigit then
    let n := cs.foldl (fun n c => n * 10 + (c.toNat - 48)) 0
    if n ≤ maxPort then some n else none
  else none

/-- A host and its port. -/
def hostOf? (usual : Nat) (cs : List Char) : Option (String × Nat) := do
  let (host, port) ← match cs with
    | '[' :: rest => do
      let (inside, after) ← cutAt (· == ']') rest
      match after with
      | [] => some ('[' :: inside ++ [']'], [])
      | ':' :: port => some ('[' :: inside ++ [']'], port)
      | _ => none
    | _ =>
      let (host, port) := splitAt ':' cs
      if isHost host then some (host, port.getD []) else none
  return (String.ofList (host.map Char.toLower), ← portOf? usual port)

/-! ## Paths -/

/-- A segment with the escapes `%2e` of dots resolved, in lower case. -/
def dotsOf (segment : List Char) : List Char :=
  match segment with
  | '%' :: '2' :: 'e' :: rest | '%' :: '2' :: 'E' :: rest => '.' :: dotsOf rest
  | c :: rest => c :: dotsOf rest
  | [] => []

/-- Puts segments after others, of which the last one comes first: `.` means nothing, `..` takes a segment back. -/
def resolve : List (List Char) → List (List Char) → List (List Char)
  | done, [] => done.reverse
  | done, [last] =>
    if dotsOf last = ['.'] then ([] :: done).reverse
    else if dotsOf last = ['.', '.'] then ([] :: done.tail).reverse
    else (last :: done).reverse
  | done, s :: rest =>
    if dotsOf s = ['.'] then resolve done rest
    else if dotsOf s = ['.', '.'] then resolve done.tail rest
    else resolve (s :: done) rest

/-- The segments of a path, by `resolve`. -/
def segments (path : List Char) : List String :=
  let path := match path with
    | c :: rest => if isSlash c then rest else path
    | [] => []
  (resolve [] ((cutSlashes path).map (Percent.encode Percent.inPath))).map String.ofList

/-! ## Addresses -/

/-- The address that a text names. -/
def ofString? (s : String) : Option Url := do
  let (name, rest) ← cutAt (· == ':') (clean s)
  let protocol ← Protocol.ofName? name
  let rest := rest.dropWhile isSlash
  let isEnd (c : Char) : Bool := isSlash c || c == '?' || c == '#'
  let authority := rest.takeWhile fun c => !isEnd c
  let (host, port) ← hostOf? protocol.port
    (authority.reverse.takeWhile (· != '@')).reverse
  let (shown, _) := splitAt '#' (rest.dropWhile fun c => !isEnd c)
  let (path, query) := splitAt '?' shown
  return { protocol, host, port, path := segments path
           query := query.map fun q => String.ofList (Percent.encode Percent.inQuery q) }

/-- An address with further `fields` in its query. -/
def addFields (u : Url) (fields : List (String × String)) : Url :=
  let added := String.ofList (Percent.form fields)
  match u.query with
  | none | some "" => { u with query := some added }
  | some q => { u with query := some (q ++ "&" ++ added) }

/-- The path and the query of an address, as they are sent. -/
def target (u : Url) : String :=
  let path := "/" ++ "/".intercalate u.path
  match u.query with
  | none => path
  | some q => path ++ "?" ++ q

end Url

end PayloadAtlas
