import PayloadAtlas.Grammar.Rule
import Std.Data.HashMap

/-!
# Productions

`Vocabulary.ofGrammar` turns a grammar into numbered symbols and choice-free productions:

    rules ──tokens──▶ terminals ──repetitions──▶ variables ──alternatives──▶ productions ──inlining──▶

Symbols are numbered in one row: the end of the input is `0`, then come the terminals of the lexicon,
then the tokens of the layout scanner, then the variables. A repetition becomes a variable of its own
with two productions, one for a single match and one that joins two shorter runs.
-/

namespace PayloadAtlas.Grammar

/-- One symbol of a production, with what the grammar says about it there. -/
structure Step where
  symbol : Nat
  level : Option Int
  side : Option Side
  label : Option Label
  field : Option String
  deriving DecidableEq, Hashable, Repr, Inhabited

/-- A choice-free rule: its symbols in order and the weight of its parses. -/
structure Production where
  steps : Array Step
  weight : Int
  deriving DecidableEq, Hashable, Repr, Inhabited

/-- What a variable is for. -/
inductive Kind where
  /-- Its matches are nodes of the tree. -/
  | visible
  /-- Its matches lend their children to the parent. -/
  | hidden
  /-- It stands for a repetition. -/
  | auxiliary
  deriving DecidableEq, Repr, Inhabited

/-- A variable of the grammar. -/
structure Variable where
  name : String
  kind : Kind
  productions : Array Production
  deriving Repr, Inhabited

/-- A terminal of the lexicon: a fixed text or a pattern, and the name of its nodes. -/
structure Terminal where
  /-- The rule that is this one token. -/
  rule : Rule
  name : String
  /-- Whether its nodes are named nodes. -/
  named : Bool
  deriving Repr, Inhabited

/-- The fixed text of a terminal; `none` for a pattern. -/
def Terminal.lexeme? (t : Terminal) : Option String :=
  match t.rule with
  | .text s => some s
  | _ => none

/-- A grammar with numbered symbols. -/
structure Vocabulary where
  terminals : Array Terminal
  layout : Array String
  nonterminals : Array Variable
  /-- The symbols that may stand between any two others. -/
  extras : List Nat
  /-- The symbol of the word token. -/
  word : Nat
  /-- The symbols that the layout scanner watches. -/
  watched : List Nat
  deriving Inhabited

namespace Vocabulary

/-- The number of tokens, the end of the input and those of `layout` among them. -/
def tokenCount (v : Vocabulary) : Nat := 1 + v.terminals.size + v.layout.size

/-- Whether the symbol `s` is produced by the layout scanner alone. -/
def isLayout (v : Vocabulary) (s : Nat) : Bool := v.terminals.size < s && s < v.tokenCount

/-- The terminal of the symbol `s`. -/
def terminal? (v : Vocabulary) (s : Nat) : Option Terminal :=
  if s = 0 then none else v.terminals[s - 1]?

/-- The variable of the symbol `s`. -/
def variableOf? (v : Vocabulary) (s : Nat) : Option Variable :=
  if s < v.tokenCount then none else v.nonterminals[s - v.tokenCount]?

/-- The name of a symbol. -/
def nameOf (v : Vocabulary) (s : Nat) : String :=
  match v.terminal? s, v.variableOf? s with
  | some t, _ => t.name
  | none, some x => x.name
  | none, none => v.layout.getD (s - 1 - v.terminals.size) "end"

/-- The symbol that bears `name`. -/
def symbol? (v : Vocabulary) (name : String) : Option Nat :=
  match v.terminals.findIdx? (·.name == name) with
  | some i => some (1 + i)
  | none => match v.layout.findIdx? (· == name) with
    | some i => some (1 + v.terminals.size + i)
    | none => (v.nonterminals.findIdx? (·.name == name)).map (v.tokenCount + ·)

end Vocabulary

/-! ## Tokens -/

/-- The tokens in a rule, in order and with repetitions. -/
def Rule.tokens : Rule → List Rule
  | .text s => [.text s]
  | .pattern n => [.pattern n]
  | .seq a b | .choice a b => a.tokens ++ b.tokens
  | .repeat1 r | .prec _ _ r | .dynamic _ r | .relabel _ r | .field _ r => r.tokens
  | .blank | .ref _ => []

/-- Whether a name, such as `_statement`, is that of something without a node. -/
def isHiddenName (name : String) : Bool := name.toList.head? == some '_'

private def Rule.tokenName : Rule → String
  | .text s | .pattern s => s
  | _ => ""

/-- The terminals in the order in which the rules first use them. A rule that is nothing but a token
used nowhere else gives its name to that token. -/
def terminalsOf (rules : List (String × Rule)) : Array Terminal := Id.run do
  let all := rules.flatMap fun (_, r) => r.tokens
  let mut uses : Std.HashMap Rule Nat := ∅
  let mut order : Array Rule := #[]
  for t in all do
    match uses[t]? with
    | none => order := order.push t; uses := uses.insert t 1
    | some n => uses := uses.insert t (n + 1)
  let names : Std.HashMap Rule String := rules.foldl (fun m (name, r) =>
    if uses[r]? == some 1 then m.insert r name else m) ∅
  return order.map fun t =>
    match names[t]? with
    | some name => ⟨t, name, !isHiddenName name⟩
    | none => ⟨t, t.tokenName, false⟩

/-! ## Repetitions -/

/-- The repetitions met so far: each body with its variable, and the variables' bodies in order. -/
structure Repetitions where
  known : Std.HashMap Rule String := ∅
  made : Array (String × Rule) := #[]
  /-- How many the rule at hand has made. -/
  count : Nat := 0

/-- Replaces each repetition by a variable named after `owner`, the same one for equal bodies. -/
def Rule.nameRepetitions (owner : String) : Rule → StateM Repetitions Rule
  | .seq a b => return .seq (← a.nameRepetitions owner) (← b.nameRepetitions owner)
  | .choice a b => return .choice (← a.nameRepetitions owner) (← b.nameRepetitions owner)
  | .prec n s r => return .prec n s (← r.nameRepetitions owner)
  | .dynamic n r => return .dynamic n (← r.nameRepetitions owner)
  | .relabel l r => return .relabel l (← r.nameRepetitions owner)
  | .field f r => return .field f (← r.nameRepetitions owner)
  | .repeat1 r => do
    let body ← r.nameRepetitions owner
    let st ← get
    match st.known[body]? with
    | some name => return .ref name
    | none =>
      let name := owner ++ "_repeat" ++ toString (st.count + 1)
      set { known := st.known.insert body name, made := st.made.push (name, body),
            count := st.count + 1 : Repetitions }
      return .ref name
  | r => return r

/-! ## From choice-free rules to productions -/

/-- What surrounds a symbol in its rule. -/
structure Context where
  level : Option Int := none
  side : Option Side := none
  label : Option Label := none
  field : Option String := none

/-- The steps of a choice-free rule. A level covers the symbols inside it, except that the last of
them, unless the rule ends there, already belongs to what comes outside. -/
def Rule.steps (symbol : Rule → Nat) : Rule → Context → Bool → Array Step → Array Step
  | .seq a b, c, last, acc => b.steps symbol c last (a.steps symbol c false acc)
  | .prec n s r, c, last, acc =>
    let inner := r.steps symbol { c with level := some n, side := s.or c.side } last acc
    if last || inner.size == acc.size then inner
    else inner.modify (inner.size - 1) fun x =>
      { x with level := c.level, side := if s.isSome then c.side else x.side }
  | .dynamic _ r, c, last, acc => r.steps symbol c last acc
  | .relabel l r, c, last, acc => r.steps symbol { c with label := some l } last acc
  | .field f r, c, last, acc => r.steps symbol { c with field := some f } last acc
  | .blank, _, _, acc | .choice _ _, _, _, acc | .repeat1 _, _, _, acc => acc
  | r, c, _, acc => acc.push ⟨symbol r, c.level, c.side, c.label, c.field⟩

private def heavier (a b : Int) : Int := if a.natAbs < b.natAbs then b else a

/-- The weight of a choice-free rule: the largest in it, by `heavier`. -/
def Rule.weight : Rule → Int
  | .seq a b | .choice a b => heavier a.weight b.weight
  | .dynamic n r => heavier n r.weight
  | .prec _ _ r | .relabel _ r | .field _ r | .repeat1 r => r.weight
  | _ => 0

private def distinct {α : Type} [BEq α] [Hashable α] (xs : List α) : Array α :=
  (xs.foldl (fun (seen, out) x =>
    if seen.contains x then (seen, out) else (seen.insert x (), out.push x))
    ((∅, #[]) : Std.HashMap α Unit × Array α)).2

/-- The productions of a rule without repetitions, one for each of its `alternatives`. -/
def Rule.productions (symbol : Rule → Nat) (r : Rule) : Array Production :=
  distinct (r.alternatives.map fun x => ⟨x.steps symbol {} true #[], x.weight⟩)

/-! ## Inlining -/

/-- The steps of the inlined production `p` in the place of the step `outer`. -/
def Step.splice (outer : Step) (p : Production) : Array Step :=
  let renamed := p.steps.map fun x =>
    { x with label := outer.label.or x.label, field := outer.field.or x.field }
  renamed.modify (renamed.size - 1) fun x =>
    { x with level := x.level.or outer.level, side := x.side.or outer.side }

/-- Replaces inlined variables in a production until none is left, or the fuel is used up; the fuel
is the number of replacements that one production may need. -/
def Production.inline (definition : Nat → Option (Array Production)) :
    Nat → Production → List Production
  | 0, p => [p]
  | fuel + 1, p =>
    match p.steps.findIdx? fun x => (definition x.symbol).isSome with
    | none => [p]
    | some i =>
      let outer := p.steps.getD i default
      ((definition outer.symbol).getD #[]).toList.flatMap fun q =>
        inline definition fuel
          ⟨p.steps.extract 0 i ++ outer.splice q ++ p.steps.extract (i + 1) p.steps.size,
            heavier p.weight q.weight⟩

/-! ## The vocabulary of a grammar -/

/-- Numbers the symbols of a grammar and multiplies its rules out. The last variable is the goal: its
one production is the start rule. -/
def Vocabulary.ofGrammar (g : Grammar) : Vocabulary := Id.run do
  let terminals := terminalsOf g.rules
  let lexical : Std.HashMap String Nat := terminals.foldl (fun (m, i) t =>
    ((if t.rule.tokenName == t.name && t.lexeme?.isSome then m else m.insert t.name i), i + 1))
    ((∅, 1) : Std.HashMap String Nat × Nat) |>.1
  let ofToken : Std.HashMap Rule Nat := terminals.foldl (fun (m, i) t => (m.insert t.rule i, i + 1))
    ((∅, 1) : Std.HashMap Rule Nat × Nat) |>.1
  let layout := g.layout.toArray
  let tokenCount := 1 + terminals.size + layout.size
  -- rules that are not tokens, with their repetitions named
  let proper := g.rules.filter fun (name, _) => !lexical.contains name
  let mut reps : Repetitions := {}
  let mut rules : Array (String × Kind × Rule) := #[]
  for (name, r) in proper do
    let (r', reps') := r.nameRepetitions name |>.run { reps with count := 0 }
    reps := reps'
    let kind := if isHiddenName name || g.supertypes.contains name then .hidden else .visible
    rules := rules.push (name, kind, r')
  for (name, body) in reps.made do
    rules := rules.push (name, .auxiliary, .choice (.seq (.ref name) (.ref name)) body)
  rules := rules.push ("", .visible, .ref ((g.rules.head?.map (·.1)).getD ""))
  -- symbols by name
  let mut named : Std.HashMap String Nat := lexical
  for i in [0:layout.size] do
    named := named.insert (layout.getD i "") (1 + terminals.size + i)
  for i in [0:rules.size] do
    named := named.insert (rules.getD i default).1 (tokenCount + i)
  let symbols := named
  let symbol : Rule → Nat
    | .ref n => symbols.getD n 0
    | r => ofToken.getD r 0
  let plain := rules.map fun (name, kind, r) => Variable.mk name kind (r.productions symbol)
  let definition (s : Nat) : Option (Array Production) :=
    if s < tokenCount then none
    else (plain[s - tokenCount]?).bind fun x =>
      if g.inlined.contains x.name then some x.productions else none
  let nonterminals := plain.map fun x =>
    { x with productions :=
        if g.inlined.contains x.name then #[]
        else distinct (x.productions.toList.flatMap (Production.inline definition 16 ·)) }
  let tokens := terminals.foldl (fun (m, i) t => (m.insert t.name i, i + 1))
    ((∅, 1) : Std.HashMap String Nat × Nat) |>.1
  return { terminals, layout, nonterminals
           extras := g.extras.map (symbols.getD · 0)
           word := symbols.getD g.word 0
           watched := g.watched.map (tokens.getD · 0) }

end PayloadAtlas.Grammar
