/-!
# Patterns of file names

A `Glob` is a pattern in the language of ignore files, matched against the bytes of a path: `?` stands for one
byte and `*` for any number of them, neither for a slash; two stars that stand alone between slashes cover any
number of directories; brackets hold a choice of characters and braces a choice of patterns. A bracket that
is never closed stands for itself.

A pattern is matched from the left by the set of what may be left over after each part of it.
-/

namespace PayloadAtlas.Ignore

/-- A part of a pattern, as `*`, `[a-z]` and `**/` are. -/
inductive Part where
  | literal (c : Char)
  /-- One byte that is no slash. -/
  | one
  /-- Any bytes that are no slashes. -/
  | many
  /-- Nothing, or directories, at the beginning. -/
  | leading
  /-- All that lies below, at the end. -/
  | trailing
  /-- A slash, or directories, in between. -/
  | between
  | choice (negated : Bool) (ranges : List (Char × Char))
  | alternatives (patterns : List (List Part))
  deriving Inhabited

/-- Why a text is no pattern. -/
inductive GlobError where
  | invalidRange (low high : Char)
  | unopenedAlternatives
  | unclosedAlternatives
  | danglingEscape
  deriving DecidableEq, Repr, Inhabited

namespace Glob

/-! ## Reading patterns -/

/-- What has been read: the branches that are open, the innermost first, each with its parts, the last one
first; and for each open brace how many branches were open before it. -/
structure Reading where
  branches : List (List Part) := [[]]
  braces : List Nat := []
  /-- Whether a bracket was found that is never closed. -/
  unclosed : Bool := false

namespace Reading

/-- Adds the part `p` to the innermost branch. -/
def push (r : Reading) (p : Part) : Reading :=
  match r.branches with
  | [] => r
  | b :: bs => { r with branches := (p :: b) :: bs }

/-- The parts of the innermost branch, the last one first. -/
def current (r : Reading) : List Part := r.branches.headD []

/-- Takes the last part of the innermost branch and puts another one in its place. -/
def replaceLast (r : Reading) (f : Part → Part) : Reading :=
  match r.branches with
  | (p :: b) :: bs => { r with branches := (f p :: b) :: bs }
  | _ => r

/-- Whether braces are open. -/
def inBraces (r : Reading) : Bool := !r.braces.isEmpty

/-- Opens a brace `{`. -/
def openBrace (r : Reading) : Reading :=
  { r with braces := r.branches.length :: r.braces, branches := [] :: r.branches }

/-- Closes a brace: its branches become `alternatives`. -/
def closeBrace (r : Reading) : Except GlobError Reading :=
  match r.braces with
  | [] => .error .unopenedAlternatives
  | outer :: braces =>
    let inner := r.branches.take (r.branches.length - outer)
    let r := { r with branches := r.branches.drop (r.branches.length - outer), braces }
    .ok (r.push (.alternatives (inner.map List.reverse).reverse))

end Reading

/-- What is in brackets: whether it is negated, its ranges, the last one first, and what follows. -/
abbrev Choice := Bool × List (Char × Char) × List Char

/-- Reads what is in brackets up to the closing one; nothing if there is none. `first` says that nothing
has been read, `inRange` that a dash is open. -/
def readRanges (negated : Bool) : Bool → Bool → List (Char × Char) → List Char →
    Except GlobError (Option Choice)
  | _, _, _, [] => .ok none
  | first, inRange, ranges, c :: rest =>
    if c = ']' ∧ first = false then
      .ok (some (negated, if inRange then ('-', '-') :: ranges else ranges, rest))
    else if c = '-' ∧ first = false ∧ inRange = false then
      readRanges negated false true ranges rest
    else if inRange then
      match ranges with
      | [] => .ok none
      | (low, _) :: more =>
        if c < low then .error (.invalidRange low c)
        else readRanges negated false false ((low, c) :: more) rest
    else readRanges negated false inRange ((c, c) :: ranges) rest

/-- Reads what follows an opening bracket. -/
def readChoice (cs : List Char) : Except GlobError (Option Choice) :=
  match cs with
  | '!' :: rest | '^' :: rest => readRanges true true false [] rest
  | _ => readRanges false true false [] cs

/-- Whether a star after a star, with `before` in front of it and another character after it, stands for directories.
-/
def coversDirectories (r : Reading) (before : Option Char) : Bool :=
  before = some '/' || (r.inBraces && (before = some ',' || before = some '\x7b'))

/-- Reads `**`, with a character `before` it and what follows; gives what is left to read. -/
def readStars (r : Reading) (before : Option Char) (rest : List Char) : Reading × List Char :=
  let plain := ((r.push .many).push .many, rest)
  if r.current.isEmpty then
    match rest with
    | [] => (r.push .leading, [])
    | '/' :: more => (r.push .leading, more)
    | _ => plain
  else if !coversDirectories r before then plain
  else
    let after (p : Part) : Part → Part
      | .leading => .leading
      | .trailing => .trailing
      | _ => p
    match rest with
    | [] => (r.replaceLast (after .trailing), [])
    | '/' :: more => (r.replaceLast (after .between), more)
    | c :: _ =>
      if r.inBraces && (c = ',' || c = '\x7d') then (r.replaceLast (after .trailing), rest) else plain

/-- Reads a pattern; the number bounds the characters that are left, and `before` is the last one read. -/
def readParts : Nat → Reading → Option Char → List Char → Except GlobError Reading
  | 0, r, _, _ => .ok r
  | _, r, _, [] => .ok r
  | n + 1, r, before, c :: rest =>
    match c with
    | '?' => readParts n (r.push .one) (some c) rest
    | '*' =>
      match rest with
      | '*' :: more =>
        let (r, left) := readStars r before more
        let last := if left.length < more.length then '/' else '*'
        readParts n r (some last) left
      | _ => readParts n (r.push .many) (some c) rest
    | '[' =>
      if r.unclosed then readParts n (r.push (.literal c)) (some c) rest
      else do
        match ← readChoice rest with
        | some (negated, ranges, left) =>
          readParts n (r.push (.choice negated ranges.reverse)) (some ']') left
        | none => readParts n ({ r with unclosed := true }.push (.literal c)) (some c) rest
    | '\x7b' => readParts n r.openBrace (some c) rest
    | '\x7d' => do readParts n (← r.closeBrace) (some c) rest
    | ',' =>
      if r.inBraces then readParts n { r with branches := [] :: r.branches } (some c) rest
      else readParts n (r.push (.literal c)) (some c) rest
    | '\\' =>
      match rest with
      | [] => .error .danglingEscape
      | e :: more => readParts n (r.push (.literal e)) (some e) more
    | _ => readParts n (r.push (.literal c)) (some c) rest

end Glob

/-- A pattern. -/
structure Glob where
  parts : List Part
  deriving Inhabited

namespace Glob

/-- The pattern that a text is. -/
def ofText (cs : List Char) : Except GlobError Glob := do
  let r ← readParts cs.length {} none cs
  match r.branches with
  | [b] => .ok ⟨b.reverse⟩
  | _ => .error .unclosedAlternatives

/-! ## Matching -/

/-- The slash. -/
def slash : UInt8 := 47

/-- The bytes of a character. -/
def bytesOf (c : Char) : List UInt8 := (String.singleton c).toUTF8.data.toList

/-- The ranges of bytes in a range of characters, as far as single bytes are concerned: a character of more than one
byte counts as its bytes, by `bytesOf`, one by one. -/
def byteRanges (range : Char × Char) : List (UInt8 × UInt8) :=
  let low := bytesOf range.1
  let single (b : UInt8) := (b, b)
  if range.1 = range.2 then low.map single
  else
    let high := bytesOf range.2
    low.dropLast.map single ++ [(low.getLastD 0, high.headD 0)] ++ high.tail.map single

/-- Whether a byte is in one of `ranges`, by `byteRanges`. -/
def holds (ranges : List (Char × Char)) (b : UInt8) : Bool :=
  ranges.any fun r => (byteRanges r).any fun (low, high) => low ≤ b && b ≤ high

/-- What is left of a text after the bytes that it starts with, if it does. -/
def after : List UInt8 → List UInt8 → Option (List UInt8)
  | [], text => some text
  | _ :: _, [] => none
  | b :: bs, t :: text => if b = t then after bs text else none

/-- A text, and what is left of it after each of its bytes up to the first slash. -/
def withoutNames : List UInt8 → List (List UInt8)
  | [] => [[]]
  | b :: rest => if b = slash then [b :: rest] else (b :: rest) :: withoutNames rest

/-- What is left of a text after each of its slashes. -/
def afterSlashes : List UInt8 → List (List UInt8)
  | [] => []
  | b :: rest => if b = slash then rest :: afterSlashes rest else afterSlashes rest

/-- All that can be left of a text at its end. -/
def tails : List UInt8 → List (List UInt8)
  | [] => [[]]
  | b :: rest => (b :: rest) :: tails rest

/-- Ends of one text, each length once. -/
def distinct (xs : List (List UInt8)) : List (List UInt8) :=
  xs.foldl (fun seen x => if seen.any (·.length == x.length) then seen else x :: seen) []

mutual

/-- Whether a part stands for nothing at all. -/
def isVoid : Part → Bool
  | .alternatives patterns => areVoid patterns
  | _ => false

/-- Whether parts stand for nothing at all. -/
def isVoidAll : List Part → Bool
  | [] => true
  | p :: ps => isVoid p && isVoidAll ps

/-- Whether all of some patterns stand for nothing. -/
def areVoid : List (List Part) → Bool
  | [] => true
  | p :: ps => isVoidAll p && areVoid ps

end

mutual

/-- What can be left of a text after a part. Among alternatives, those that stand for nothing, by `areVoid`, do not
count, unless all do. -/
def rests : Part → List UInt8 → List (List UInt8)
  | .literal c, text => (after (bytesOf c) text).toList
  | .one, b :: rest => if b = slash then [] else [rest]
  | .many, text => withoutNames text
  | .leading, text => text :: afterSlashes text
  | .trailing, b :: rest => if b = slash then tails rest else []
  | .between, b :: rest => if b = slash then rest :: afterSlashes rest else []
  | .choice negated ranges, b :: rest => if holds ranges b = negated then [] else [rest]
  | .alternatives patterns, text =>
    if areVoid patterns then [text] else restsOfAny patterns text
  | _, [] => []

/-- What can be left of some texts after parts, one after the other. -/
def restsOfAll : List Part → List (List UInt8) → List (List UInt8)
  | [], texts => texts
  | p :: ps, texts => restsOfAll ps (distinct (texts.flatMap (rests p)))

/-- What can be left of a text after one of some patterns. -/
def restsOfAny : List (List Part) → List UInt8 → List (List UInt8)
  | [], _ => []
  | p :: more, text =>
    (if isVoidAll p then [] else restsOfAll p [text]) ++ restsOfAny more text

end

/-- Whether the bytes `path` fit a pattern as a whole. -/
def fits (g : Glob) (path : List UInt8) : Bool :=
  match g.parts with
  | [.leading] => true
  | ps => (restsOfAll ps [path]).any List.isEmpty

end Glob

end PayloadAtlas.Ignore
