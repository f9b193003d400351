import PayloadAtlas.Grammar.Merging
import PayloadAtlas.Text.Source
import PayloadAtlas.Text.WordCharacter

/-!
# The lexicon

How the terminals of the grammar read. `scan` looks, from a place in the source, for the terminals of
a given set and answers with the longest one that is there: blanks are passed over first, except that
an escape in a string has to stand right at the place. Of two terminals of equal length a fixed text
goes before a pattern.

A place that no terminal of the set fits is answered with how far the attempt went, so that a reader
that skips what it cannot read makes progress.
-/

namespace PayloadAtlas.Python.Lexicon

open PayloadAtlas.Grammar PayloadAtlas.Text

/-- Whether a character may be passed over between tokens. -/
def isBlank (c : Char) : Bool :=
  ('\t' ≤ c && c ≤ '\r') || c == ' ' || c == '\u200b' || c == '\u2060' || c == '\ufeff'

/-- Passes over characters of the class `p`; the fuel is the number of characters that may be left. -/
def passWhile (s : Source) (p : Char → Bool) : Nat → Nat → Nat
  | 0, i => i
  | fuel + 1, i => if i < s.size && p (s.at? i) then passWhile s p fuel (i + 1) else i

/-- The place after the longest run of characters of the class `p`. -/
def after (s : Source) (p : Char → Bool) (i : Nat) : Nat := passWhile s p (s.size - i) i

/-- Whether a character is a hexadecimal digit. -/
def isHex (c : Char) : Bool := c.isDigit || ('a' ≤ c && c ≤ 'f') || ('A' ≤ c && c ≤ 'F')

/-! ## Numbers -/

/-- The place after digits of a class in groups, each two groups separated by one underscore; `lead`
and `trail` say whether an underscore may also stand before the first and after the last group. -/
def digitGroups (s : Source) (p : Char → Bool) (lead trail : Bool) : Nat → Nat → Option Nat
  | 0, _ => none
  | fuel + 1, i =>
    let start := if lead && s.at? i == '_' then i + 1 else i
    let stop := after s p start
    if stop == start then none
    else if s.at? stop == '_' then
      match digitGroups s p false trail fuel (stop + 1) with
      | some j => some j
      | none => some (if trail then stop + 1 else stop)
    else some stop

/-- Decimal digits, each group perhaps followed by one `_`. -/
def digits (s : Source) (i : Nat) : Option Nat :=
  digitGroups s Char.isDigit false true (s.size - i + 1) i

/-- The place after one character of the class `p`, if there is one. -/
def one (s : Source) (p : Char → Bool) (i : Nat) : Option Nat :=
  if i < s.size && p (s.at? i) then some (i + 1) else none

/-- Digits to another base after its `mark`, as in `0x1f`, and perhaps a mark of length. -/
def based (s : Source) (mark : Char → Bool) (p : Char → Bool) (i : Nat) : Option Nat := do
  if s.at? i != '0' then none
  let j ← one s mark (i + 1)
  let k ← digitGroups s p true false (s.size - j + 1) j
  return (one s (fun c => c == 'L' || c == 'l') k).getD k

/-- An integer, perhaps a long or an imaginary one. -/
def integer (s : Source) (i : Nat) : Option Nat :=
  let decimal := (digits s i).map fun j =>
    (one s (fun c => c == 'L' || c == 'l' || c == 'J' || c == 'j') j).getD j
  [based s (fun c => c == 'x' || c == 'X') isHex i,
    based s (fun c => c == 'o' || c == 'O') (fun c => '0' ≤ c && c ≤ '7') i,
    based s (fun c => c == 'b' || c == 'B') (fun c => c == '0' || c == '1') i,
    decimal].foldl max none

/-- An exponent, as in `e-5`. -/
def exponent (s : Source) (i : Nat) : Option Nat := do
  let j ← one s (fun c => c == 'e' || c == 'E') i
  digits s ((one s (fun c => c == '+' || c == '-') j).getD j)

/-- A number with a point or an exponent, perhaps an imaginary one. -/
def float (s : Source) (i : Nat) : Option Nat := do
  let tail (j : Nat) : Nat := (exponent s j).getD j
  let afterDigits (j : Nat) : Option Nat :=
    match one s (· == '.') j with
    | some k => some (tail ((digits s k).getD k))
    | none => exponent s j
  let leadingPoint : Option Nat := ((one s (· == '.') i).bind (digits s)).map tail
  let body ← ((digits s i).map afterDigits).getD leadingPoint
  return (one s (fun c => c == 'J' || c == 'j') body).getD body

/-! ## Words, comments and escapes -/

/-- A word. -/
def word (s : Source) (i : Nat) : Option Nat := do
  let j ← one s isWordStart i
  return after s isWordInner j

/-- A comment, from `#` to the end of its line. -/
def comment (s : Source) (i : Nat) : Option Nat := do
  let j ← one s (· == '#') i
  return after s (fun c => c != '\n' && c != '\x00') j

/-- A backslash at the end of a line, or at the end of the source. -/
def lineContinuation (s : Source) (i : Nat) : Option Nat := do
  let j ← one s (· == '\\') i
  if s.size ≤ j then some j
  else if s.at? j == '\n' || s.at? j == '\x00' then some (j + 1)
  else if s.at? j == '\r' && s.at? (j + 1) == '\n' then some (j + 2)
  else none

/-- A given number of hexadecimal digits. -/
def hexDigits (s : Source) : Nat → Nat → Option Nat
  | 0, i => some i
  | n + 1, i => do hexDigits s n (← one s isHex i)

/-- A backslash with what it escapes. -/
def escape (s : Source) (i : Nat) : Option Nat := do
  let j ← one s (· == '\\') i
  let c := s.at? j
  if c == 'u' then hexDigits s 4 (j + 1)
  else if c == 'U' then hexDigits s 8 (j + 1)
  else if c == 'x' then hexDigits s 2 (j + 1)
  else if c.isDigit then
    let k := j + 1
    match one s Char.isDigit k with
    | some k' => some ((one s Char.isDigit k').getD k')
    | none => some k
  else if c == '\n' then some (j + 1)
  else if c == '\r' then one s (· == '\n') (j + 1)
  else if c == 'N' then do
    let k ← one s (· == '{') (j + 1)
    let l := after s (fun c => c != '}' && c != '\x00') k
    if l == k then none else one s (· == '}') l
  else one s ("'\"abfrntv\\".toList.contains ·) j

/-- The conversion of an interpolated value, as in `!r`. -/
def conversion (s : Source) (i : Nat) : Option Nat := do
  let j ← one s (· == '!') i
  one s (fun c => 'a' ≤ c && c ≤ 'z') j

/-- The text of a format specification. -/
def isFormatText (c : Char) : Bool := c != '{' && c != '}' && c != '\n' && c != '\x00'

/-! ## Terminals -/

/-- The fixed text `cs`. -/
def fixed (s : Source) (cs : List Char) (i : Nat) : Option Nat :=
  match cs with
  | [] => some i
  | c :: rest => if i < s.size && s.at? i == c then fixed s rest (i + 1) else none

/-- The longest reading of the pattern `name` that may stand after blanks. -/
def pattern (s : Source) (name : String) (i : Nat) : Option Nat :=
  match name with
  | "identifier" => word s i
  | "integer" => integer s i
  | "float" => float s i
  | "comment" => comment s i
  | "line_continuation" => lineContinuation s i
  | "type_conversion" => conversion s i
  | _ => none

/-- The outcome of looking for a terminal. -/
inductive Outcome where
  /-- The symbol that was found, and where it starts and stops. -/
  | found (symbol start stop : Nat)
  /-- Nothing fits: where an attempt would have started, and how far it went. -/
  | nothing (start reached : Nat)

/-- A reading: its symbol, where it stops, and its rank. A longer one wins, then one of a higher
rank: an escape over a fixed text, that over a pattern, and a lone backslash comes last. -/
abbrev Reading := Nat × Nat × Nat

/-- The better of two readings, the earlier one if they are equally good. -/
def better (a : Option Reading) (b : Option Reading) : Option Reading :=
  match a, b with
  | none, _ => b
  | _, none => a
  | some (s, m, r), some (s', m', r') =>
    if m < m' || (m == m' && r < r') then some (s', m', r') else some (s, m, r)

/-- What the lexicon looks for in one set of terminals. -/
structure Search where
  /-- The fixed texts with their symbols. -/
  texts : List (List Char × Nat)
  /-- The patterns that may stand after blanks, with their symbols. -/
  patterns : List (String × Nat)
  escape? : Option Nat
  backslash? : Option Nat
  formatText? : Option Nat
  /-- Whether the end of the source is looked for. -/
  atEnd : Bool
  deriving Inhabited

/-- The search for the terminals of `set`. -/
def Search.ofSet (v : Vocabulary) (set : TokenSet) : Search := Id.run do
  let mut out : Search := ⟨[], [], none, none, none, set.contains 0⟩
  for i in (List.range v.terminals.size).reverse do
    if set.contains (i + 1) then
      match (v.terminals.getD i default).rule with
      | .text t => out := { out with texts := (t.toList, i + 1) :: out.texts }
      | .pattern "escape_sequence" => out := { out with escape? := some (i + 1) }
      | .pattern "_not_escape_sequence" => out := { out with backslash? := some (i + 1) }
      | .pattern "_format_text" => out := { out with formatText? := some (i + 1) }
      | .pattern p => out := { out with patterns := (p, i + 1) :: out.patterns }
      | _ => pure ()
  return out

/-- The best terminal right at a place. -/
def readAt (k : Search) (s : Source) (i : Nat) : Option Reading :=
  let texts := k.texts.foldl (fun best (t, symbol) =>
    better best ((fixed s t i).map fun j => (symbol, j, 2))) none
  k.patterns.foldl (fun best (p, symbol) =>
    better best ((pattern s p i).map fun j => (symbol, j, 1))) texts

/-- How far an attempt went at a place where nothing fits. -/
def reachedAt (s : Source) (i : Nat) : Nat :=
  if s.at? i == '!' then i + 1
  else if s.at? i == '\\' then if s.at? (i + 1) == '\r' then i + 2 else i + 1
  else i

/-- Looks for a terminal of the search `k` from the place `i` on. -/
def scan (k : Search) (s : Source) (i : Nat) : Outcome :=
  match k.formatText? with
  | some symbol =>
    let j := after s (· == '\n') i
    let stop := after s isFormatText j
    if j < stop then .found symbol j stop
    else match readAt k s j with
      | some (symbol, stop, _) => .found symbol j stop
      | none => .nothing j j
  | none =>
    let escapes := better ((k.escape?.bind fun symbol => (escape s i).map fun j => (symbol, j, 3)))
      (k.backslash?.bind fun symbol => (one s (· == '\\') i).map fun j => (symbol, j, 0))
    let j := after s isBlank i
    match better escapes (readAt k s j) with
    | some (symbol, stop, _) => .found symbol j stop
    | none => if k.atEnd && s.size ≤ j then .found 0 j j else .nothing j (reachedAt s j)

end PayloadAtlas.Python.Lexicon
