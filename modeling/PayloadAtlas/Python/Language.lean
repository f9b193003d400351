import PayloadAtlas.Python.Automaton
import PayloadAtlas.Python.Lexicon
import PayloadAtlas.Python.Layout

/-!
# What a reader of Python sources consults

`language` gathers, once, everything about the grammar that reading a source needs state by state:
the actions, what the lexicon looks for, what the layout scanner may produce, the keywords, and which
symbols are nodes of the tree.
-/

namespace PayloadAtlas.Python

open PayloadAtlas.Grammar

/-- The tables of a language. -/
structure Language where
  automaton : Automaton
  /-- The search of the lexicon in each state. -/
  searches : Array Lexicon.Search
  /-- What the layout scanner may produce in each state. -/
  expected : Array Expected
  keywords : Std.HashMap String Nat
  /-- The symbols of the layout scanner's tokens. -/
  layoutSymbol : LayoutToken → Nat
  /-- All tokens but the end of the source, the word first. -/
  tokens : List Nat
  /-- Whether each symbol is a node of the tree. -/
  shown : Array Bool
  deriving Inhabited

namespace Language

/-- The name that the grammar gives to a token of the layout scanner, such as `_newline`. -/
def layoutName : LayoutToken → String
  | .newline => "_newline"
  | .indent => "_indent"
  | .dedent => "_dedent"
  | .stringStart => "string_start"
  | .stringContent => "_string_content"
  | .escapeInterpolation => "escape_interpolation"
  | .stringEnd => "string_end"

/-- Whether a symbol is a node of the tree: fixed texts are, and whatever has a visible name. -/
def isShown (v : Vocabulary) (symbol : Nat) : Bool :=
  match v.terminal? symbol, v.variableOf? symbol with
  | some t, _ => (t.lexeme?.isSome && !t.named) || !isHiddenName t.name
  | none, some x => x.kind == .visible
  | none, none => symbol != 0 && !isHiddenName (v.nameOf symbol)

/-- The tables of an automaton. -/
def ofAutomaton (a : Automaton) : Language :=
  let v := a.vocabulary
  let symbol (name : String) : Nat := (v.symbol? name).getD 0
  let sets := a.lexemes.toList.eraseDups
  let built := sets.map fun x => (x, Lexicon.Search.ofSet v x)
  let admits (s : State) (name : String) : Bool := !(s.actions.getD (symbol name) []).isEmpty
  { automaton := a
    searches := a.lexemes.map fun x => (built.lookup x).getD default
    expected := a.states.map fun s =>
      { newline := admits s "_newline", indent := admits s "_indent", dedent := admits s "_dedent"
        stringStart := admits s "string_start", stringContent := admits s "_string_content"
        escapeInterpolation := admits s "escape_interpolation"
        closing := admits s ")" || admits s "]" || admits s "\x7d"
        handler := admits s "except" }
    keywords := (List.range v.terminals.size).foldl (fun m i =>
      let t := v.terminals.getD i default
      match t.lexeme? with
      | some text => if t.isKeyword then m.insert text (i + 1) else m
      | none => m) ∅
    layoutSymbol := fun t => symbol (layoutName t)
    tokens := v.word :: (List.range' 1 (v.tokenCount - 1)).filter (· != v.word)
    shown := (Array.range (v.tokenCount + v.nonterminals.size)).map (isShown v) }

end Language

/-- The language of Python sources. -/
def language : Language := Language.ofAutomaton automaton

end PayloadAtlas.Python
