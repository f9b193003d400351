import PayloadAtlas.Text.Source

/-!
# Layout: indentation, line ends and strings

Some tokens depend on more than the next characters: a line end counts only outside brackets, an
indentation opens or closes a block in view of the blocks that are open, and inside a string nearly
everything is content. The layout scanner produces these tokens. It keeps the indentations of the
open blocks and the delimiters of the open strings; both are part of its `Layout`, which a reader
remembers along with each token that the scanner produced.

What the scanner looks for depends on `Expected`, the tokens that the reader's state admits. When a
reader has lost its way everything is admitted; content and line ends are not produced then.
-/

namespace PayloadAtlas.Python

open PayloadAtlas.Text

/-- The delimiter of an open string. -/
structure Delimiter where
  quote : Char
  triple : Bool := false
  format : Bool := false
  raw : Bool := false
  bytes : Bool := false
  deriving DecidableEq, Repr, Inhabited

/-- What the layout scanner remembers. -/
structure Layout where
  /-- The columns of the open blocks, the innermost first; the outermost column, `0`, is left out. -/
  indents : List Nat := []
  /-- The open strings, the innermost first. -/
  delimiters : List Delimiter := []
  /-- Whether the string opened last is a format string that is still open. -/
  insideFormat : Bool := false
  deriving DecidableEq, Repr, Inhabited

/-- The tokens of the layout scanner. -/
inductive LayoutToken where
  | newline
  | indent
  | dedent
  | stringStart
  | stringContent
  | escapeInterpolation
  | stringEnd
  deriving DecidableEq, Repr, Inhabited

/-- Which tokens a reader's state admits, as far as the layout scanner cares. -/
structure Expected where
  newline : Bool
  indent : Bool
  dedent : Bool
  stringStart : Bool
  stringContent : Bool
  escapeInterpolation : Bool
  /-- A closing bracket of some kind. -/
  closing : Bool
  /-- The keyword of a handler. -/
  handler : Bool
  deriving Inhabited

namespace Layout

/-- Whether the reader has lost its way: only then are `stringContent` and `indent` both admitted. -/
def Expected.lost (e : Expected) : Bool := e.stringContent && e.indent

/-- A token with its place and the layout after it. -/
structure Produced where
  token : LayoutToken
  start : Nat
  stop : Nat
  layout : Layout
  deriving Inhabited

/-! ## Inside strings -/

/-- How the inside of a string ends at a place. -/
inductive Inside where
  /-- Content up to a place; an empty one is no token. -/
  | content (stop : Nat)
  /-- The closing delimiter up to a place. -/
  | close (stop : Nat)
  /-- No token begins here. -/
  | nothing
  /-- The source ends, or has a NUL character, before the string does. -/
  | exhausted (stop : Nat)

/-- The place after a backslash in a raw string: it takes one `quote`, backslash or line end along. -/
def afterRawBackslash (s : Source) (quote : Char) (i : Nat) : Nat :=
  let j := i + 1
  let j := if s.at? j == quote || s.at? j == '\\' then j + 1 else j
  if s.at? j == '\r' then if s.at? (j + 1) == '\n' then j + 2 else j + 1
  else if s.at? j == '\n' then j + 1
  else j

/-- Reads on inside a string from a place; `any` says whether something has been read as content. -/
def readInside (s : Source) (d : Delimiter) : Nat → Nat → Bool → Inside
  | 0, i, _ => .exhausted i
  | fuel + 1, i, any =>
    let c := s.at? i
    let content : Inside := if any then .content i else .nothing
    if c == '\x00' then .exhausted i
    else if (c == '{' || c == '}') && d.format then content
    else if c == '\\' then
      if d.raw then readInside s d fuel (afterRawBackslash s d.quote i) any
      else if d.bytes then
        let e := s.at? (i + 1)
        if e == 'N' || e == 'u' || e == 'U' then
          -- no escape in a byte string: the letter is read, and one character more
          readInside s d fuel (min (i + 3) s.size) true
        else content
      else content
    else if c == d.quote then
      if d.triple then
        if s.at? (i + 1) != d.quote then .content (i + 1)
        else if s.at? (i + 2) != d.quote then .content (i + 2)
        else if any then .content i
        else .close (i + 3)
      else if any then .content i
      else .close (i + 1)
    else if c == '\n' && any && !d.triple then .nothing
    else readInside s d fuel (i + 1) true

/-! ## Between tokens -/

/-- What stands before the next token. -/
structure Gap where
  /-- Where the next token may start. -/
  stop : Nat
  /-- Whether a line ended on the way. -/
  lineEnded : Bool
  /-- The column of the next token, if a line ended. -/
  column : Nat
  /-- The column of the first comment on a line of its own. -/
  comment : Option Nat

/-- The end of a comment's line. -/
def afterComment (s : Source) : Nat → Nat → Nat
  | 0, i => i
  | fuel + 1, i =>
    if i < s.size && s.at? i != '\n' && s.at? i != '\x00' then afterComment s fuel (i + 1)
    else if i < s.size then i + 1 else i

/-- Columns are counted modulo this number, `65536`. -/
def columnLimit : Nat := 65536

/-- Measures the gap from a place on. There is none if a lone backslash comes first or, with `comments`, a comment on
the same line. -/
def measure (s : Source) (comments : Bool) : Nat → Gap → Option Gap
  | 0, _ => none
  | fuel + 1, g =>
    let i := g.stop
    let c := s.at? i
    if s.size ≤ i then some { g with column := 0, lineEnded := true }
    else if c == '\n' then
      measure s comments fuel { g with stop := i + 1, lineEnded := true, column := 0 }
    else if c == ' ' then
      measure s comments fuel { g with stop := i + 1, column := (g.column + 1) % columnLimit }
    else if c == '\r' || c == '\x0c' then
      measure s comments fuel { g with stop := i + 1, column := 0 }
    else if c == '\t' then
      measure s comments fuel { g with stop := i + 1, column := (g.column + 8) % columnLimit }
    else if c == '#' && comments then
      if g.lineEnded then
        measure s comments fuel { g with
          stop := afterComment s (s.size + 1) i, column := 0, comment := g.comment.or (some g.column) }
      else none
    else if c == '\\' then
      let j := if s.at? (i + 1) == '\r' then i + 2 else i + 1
      if s.at? j == '\n' || s.size ≤ j then
        measure s comments fuel { g with stop := min (j + 1) s.size }
      else none
    else some g

/-! ## Opening a string -/

/-- The letters before a string's quote, such as `rb`; the answer also says whether there was any. -/
def readLetters (s : Source) : Nat → Nat → Delimiter → Nat × Delimiter
  | 0, i, d => (i, d)
  | fuel + 1, i, d =>
    match s.at? i with
    | 'f' | 'F' => readLetters s fuel (i + 1) { d with format := true }
    | 'r' | 'R' => readLetters s fuel (i + 1) { d with raw := true }
    | 'b' | 'B' => readLetters s fuel (i + 1) { d with bytes := true }
    | 'u' | 'U' => readLetters s fuel (i + 1) d
    | _ => (i, d)

/-- The delimiter that opens a string at the place `i`, and where it stops. -/
def openString? (s : Source) (i : Nat) : Option (Delimiter × Nat) :=
  let (j, d) := readLetters s (s.size - i) i { quote := '`' }
  let q := s.at? j
  if q == '`' then some (d, j + 1)
  else if q == '\'' || q == '"' then
    if s.at? (j + 1) == q && s.at? (j + 2) == q then
      some ({ d with quote := q, triple := true }, j + 3)
    else some ({ d with quote := q }, j + 1)
  else none

/-! ## Scanning -/

/-- What the open string has at a place. -/
inductive Within where
  /-- A token, or the certainty that there is none. -/
  | decided (token : Option Produced)
  /-- Nothing; what comes between tokens is looked at from a place on. -/
  | passed (stop : Nat)

/-- The token of the string that is open, if `e` admits one. -/
def scanInside (l : Layout) (s : Source) (e : Expected) (i : Nat) : Within :=
  match l.delimiters with
  | [] => .passed i
  | d :: rest =>
    let c := s.at? i
    if Expected.lost e then .passed i
    else if e.escapeInterpolation && (c == '{' || c == '}') && d.format then
      .decided (if s.at? (i + 1) == c then some ⟨.escapeInterpolation, i, i + 2, l⟩ else none)
    else if e.stringContent then
      match readInside s d (s.size + 1) i false with
      | .content stop => .decided (some ⟨.stringContent, i, stop, l⟩)
      | .close stop =>
        .decided (some ⟨.stringEnd, i, stop, { l with delimiters := rest, insideFormat := false }⟩)
      | .nothing => .decided none
      | .exhausted stop => .passed stop
    else .passed i

/-- The block that a new line opens or closes, or the line end itself, as a token from `start` to
`stop`. -/
def scanLine (l : Layout) (s : Source) (e : Expected) (g : Gap) (start stop : Nat) :
    Option Produced :=
  let current := l.indents.head?.getD 0
  let next := s.at? g.stop
  let quoted := next == '"' || next == '\'' || next == '`'
  if e.indent && current < g.column then
    some ⟨.indent, start, stop, { l with indents := g.column :: l.indents }⟩
  else if (e.dedent || (!e.newline && !(e.stringStart && quoted) && !e.closing))
      && g.column < current && !l.insideFormat && g.comment.all (· < current) then
    some ⟨.dedent, start, stop, { l with indents := l.indents.tail }⟩
  else if e.newline && !Expected.lost e then some ⟨.newline, start, stop, l⟩
  else none

/-- The token of the layout scanner at the place `i`, if there is one. -/
def scan (l : Layout) (s : Source) (e : Expected) (i : Nat) : Option Produced :=
  match l.scanInside s e i with
  | .decided token => token
  | .passed j => do
    let g ← measure s (e.indent || e.dedent || e.newline || e.handler) (s.size + 2) ⟨j, false, 0, none⟩
    -- a token that covers nothing stands before the gap
    let line := if g.lineEnded then l.scanLine s e g (if j < g.stop then j else i) j else none
    match line with
    | some p => some p
    | none =>
      if e.stringStart && g.comment.isNone then
        (openString? s g.stop).map fun (d, stop) =>
          ⟨.stringStart, if j < g.stop then g.stop else i, stop,
            { l with delimiters := d :: l.delimiters, insideFormat := d.format }⟩
      else none

end Layout

end PayloadAtlas.Python
