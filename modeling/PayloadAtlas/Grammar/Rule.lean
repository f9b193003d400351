/-!
# Grammar rules

The vocabulary in which a concrete grammar is written down: literal tokens, tokens that are described
by a pattern, references to other rules, and the combinators over them. A rule may carry a
precedence, a side to group to, a label that renames what it matches, and a field name under which
its match is found in the parent node.

`Rule.alternatives` multiplies a rule out into the choice-free rules it stands for; everything after
it (`Production`) only deals with those.
-/

namespace PayloadAtlas.Grammar

/-- The side to which operators of one precedence group. -/
inductive Side where
  | left
  | right
  deriving DecidableEq, Hashable, Repr

/-- A name that a node bears in place of the name of its rule. -/
structure Label where
  /-- The name to show. -/
  text : String
  /-- Whether the node counts as a named node. -/
  named : Bool
  deriving DecidableEq, Hashable, Repr

/-- A grammar rule. -/
inductive Rule where
  /-- Matches nothing and consumes nothing. -/
  | blank
  /-- A token with a fixed text. -/
  | text (lexeme : String)
  /-- A token that the lexicon describes by a pattern. -/
  | pattern (name : String)
  /-- Another rule, or a token of the layout scanner, by name. -/
  | ref (name : String)
  /-- One rule after another. -/
  | seq (first rest : Rule)
  /-- Either rule. -/
  | choice (one other : Rule)
  /-- The rule once or more often. -/
  | repeat1 (body : Rule)
  /-- A rule that binds at a level, and perhaps groups to one side. -/
  | prec (level : Int) (side : Option Side) (body : Rule)
  /-- A rule whose parses are preferred, at run time, by a weight. -/
  | dynamic (weight : Int) (body : Rule)
  /-- A rule whose node bears another name. -/
  | relabel (label : Label) (body : Rule)
  /-- A rule whose match is a named field of the parent node. -/
  | field (name : String) (body : Rule)
  deriving DecidableEq, Hashable, Repr, Inhabited

namespace Rule

instance : Coe String Rule := ⟨.text⟩

/-- The rules in order. -/
def seqs : List Rule → Rule
  | [] => .blank
  | [r] => r
  | r :: rs => .seq r (seqs rs)

/-- Any one of the rules. -/
def choices : List Rule → Rule
  | [] => .blank
  | [r] => r
  | r :: rs => .choice r (choices rs)

/-- The rule, or nothing, as in `r?`. -/
def optional (r : Rule) : Rule := .choice r .blank

/-- The rule any number of times, as in `r*`. -/
def many (r : Rule) : Rule := optional (.repeat1 r)

/-- One or more of `r`, each two separated by `separator`. -/
def separated (r separator : Rule) : Rule := .seq r (many (.seq separator r))

/-- One or more of `r`, separated by commas. -/
def commaSep (r : Rule) : Rule := separated r ","

/-- The rule at `level`, grouping to neither side. -/
def atLevel (level : Int) (r : Rule) : Rule := .prec level none r

/-- The rule at `level`, grouping to the left. -/
def leftAt (level : Int) (r : Rule) : Rule := .prec level (some .left) r

/-- The rule at `level`, grouping to the right. -/
def rightAt (level : Int) (r : Rule) : Rule := .prec level (some .right) r

/-- The rule as a named node with the other name `name`. -/
def named (r : Rule) (name : String) : Rule := .relabel ⟨name, true⟩ r

/-- The rules without choices that a rule stands for, in the order in which they are written. A
repetition counts as one piece here: it is given a variable of its own beforehand. -/
def alternatives : Rule → List Rule
  | .seq a b => a.alternatives.flatMap fun x => b.alternatives.map (.seq x ·)
  | .choice a b => a.alternatives ++ b.alternatives
  | .prec n s r => r.alternatives.map (.prec n s ·)
  | .dynamic n r => r.alternatives.map (.dynamic n ·)
  | .relabel l r => r.alternatives.map (.relabel l ·)
  | .field f r => r.alternatives.map (.field f ·)
  | r => [r]

end Rule

end PayloadAtlas.Grammar

namespace PayloadAtlas

/-- A grammar: its rules in order, the first being the start rule, and what the rules mean besides. -/
structure Grammar where
  /-- The rules with their names. -/
  rules : List (String × Grammar.Rule)
  /-- Tokens that may stand between any two others. -/
  extras : List String
  /-- Tokens that the layout scanner alone produces. -/
  layout : List String
  /-- Tokens whose admissibility the layout scanner looks at, though the lexicon produces them. -/
  watched : List String
  /-- Rules that are replaced by their definitions. -/
  inlined : List String
  /-- Rules that group others and have no node of their own; a name that starts with an underscore has
  none either. -/
  supertypes : List String
  /-- The token whose texts the keywords are taken from. -/
  word : String

end PayloadAtlas
