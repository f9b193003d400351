import PayloadAtlas.Python.Stack

/-!
# The next token

The next token of a branch is looked for where the branch has come to, in view of the state it is in.
The layout scanner is asked first, then the lexicon. If neither finds anything they are asked again
for whatever the language has, and if that fails too, characters are skipped until something is
found: what was skipped is the token then, an error.

A word that reads like a keyword is one where the state has something to do with the keyword.
-/

namespace PayloadAtlas.Python

open PayloadAtlas.Grammar PayloadAtlas.Text

/-- The mark that may stand at the very beginning of a text, where it means nothing. -/
def byteOrderMark : Char := '\uFEFF'

namespace Token

/-- Where a search that begins at `i` looks first: behind a `byteOrderMark` at the beginning. -/
def entry (s : Source) (i : Nat) : Nat := if i == 0 && s.at? 0 == byteOrderMark then 1 else i

/-- What a search comes to: a token, or how far it got. -/
inductive Search where
  | found (token : Piece)
  | nothing (start reached : Nat)

/-- What the search for a token may look at besides the text. -/
structure View where
  state : Nat
  /-- The layout after the branch's last token of the layout scanner. -/
  layout : Option Layout
  /-- Whether the branch has read anything since it last lost its way. -/
  hasAdvanced : Bool

/-- Whether a token that covers nothing and changes nothing, `symbol`, is of use: it has to lead somewhere. -/
def View.admitsEmpty (w : View) (l : Language) (lost : Bool) (symbol : Nat) : Bool :=
  !(lost || !w.hasAdvanced || l.automaton.next w.state symbol == w.state)

/-- The token of the layout scanner at `i`, for a search that looks for what `mode` admits. -/
def ofLayout? (l : Language) (s : Source) (w : View) (mode : Nat) (lost : Bool) (origin i : Nat) :
    Option Piece := do
  let p ← (w.layout.getD {}).scan s (l.expected.getD mode default) (entry s i)
  let symbol := l.layoutSymbol p.token
  let changes := w.layout != some p.layout
  if i < p.stop || changes || w.admitsEmpty l lost symbol then
    some (.mk { kind := .symbol symbol, origin, start := p.start, stop := p.stop
                layout := some p.layout, changesLayout := changes } [])
  else none

/-- A token of the lexicon; a word may turn into a keyword. -/
def ofTerminal (l : Language) (s : Source) (w : View) (origin symbol start stop : Nat) : Piece :=
  let plain : Facts := { kind := .symbol symbol, origin, start, stop, extra := symbol == 0 }
  let facts :=
    if symbol == l.automaton.vocabulary.word then
      match l.keywords[s.slice start stop]? with
      | some k =>
        let kept := (l.automaton.actions w.state k).isEmpty
        { plain with kind := .symbol (if kept then symbol else k), keyword := true }
      | none => plain
    else plain
  .mk facts []

/-- One search, from `i` on, for what the state `mode` admits. -/
def search (l : Language) (s : Source) (w : View) (mode : Nat) (lost : Bool) (origin i : Nat) :
    Search :=
  match ofLayout? l s w mode lost origin i with
  | some token => .found token
  | none =>
    match Lexicon.scan (l.searches.getD mode default) s (entry s i) with
    | .found symbol start stop => .found (ofTerminal l s w origin symbol start stop)
    | .nothing start reached => .nothing start reached

/-- Skips characters until a search finds something; `stop` is how far the last one got. -/
def skip (l : Language) (s : Source) (w : View) (origin start : Nat) : Nat → Nat → Nat → Piece
  | 0, _, stop => .mk { kind := .error, origin, start, stop } []
  | fuel + 1, stop, reached =>
    -- a search that got nowhere is helped on by one character
    if reached == stop && s.size ≤ reached then .mk { kind := .error, origin, start, stop } []
    else
      let i := if reached == stop then reached + 1 else reached
      match search l s w 0 true origin i with
      | .found _ => .mk { kind := .error, origin, start, stop := i } []
      | .nothing _ further => skip l s w origin start fuel i further

/-- The next token at the place `origin`. -/
def next (l : Language) (s : Source) (w : View) (origin : Nat) : Piece :=
  let lost := w.state == 0
  match search l s w w.state lost origin origin with
  | .found token => token
  | .nothing start reached =>
    if lost then skip l s w origin start (s.size + 2) start reached
    else
      match search l s w 0 true origin origin with
      | .found token => token
      | .nothing start reached => skip l s w origin start (s.size + 2) start reached

end Token

/-- The next token of the branch `v`. -/
def Stack.nextToken (k : Stack) (l : Language) (s : Source) (v : Nat) : Piece :=
  let f := k.top v
  Token.next l s ⟨f.state, (k.branch v).layout, k.hasAdvanced s v⟩ f.place

end PayloadAtlas.Python
