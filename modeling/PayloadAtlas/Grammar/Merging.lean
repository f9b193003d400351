import PayloadAtlas.Grammar.Automaton

/-!
# Merging states

The canonical states are many, and most of those with the same items differ only in what may follow.
`Automaton.ofGrammar` joins states with the same items wherever that changes no decision: the joined
actions agree, and no token is added to a state in which it could be read in place of another or
could change what the layout scanner does. States that would do nothing but close a match that leaves
no trace are passed by.

States that are joined also share the set of terminals that the lexicon looks for; sets are shared
further between states as long as no terminal of one gets in the way of a terminal of the other.
-/

namespace PayloadAtlas.Grammar

/-- How the terminals of a grammar get into each other's way. -/
structure Contention where
  /-- Pairs of names: the first may read on where the second is complete, with a character that may
  also follow the second. -/
  rivals : List (String × String)
  /-- Terminals that read almost anything, so that each other terminal gives way to them. -/
  greedy : List String
  /-- Pairs in which some text of the first goes on from a text of the second, besides the pairs that
  show from their fixed texts. -/
  extensions : List (String × String)

/-- The tokens of both `a` and `b`. -/
def TokenSet.inter (a b : TokenSet) : TokenSet := ⟨a.bits &&& b.bits⟩

/-- The tokens of `a` that are not in `b`. -/
def TokenSet.diff (a b : TokenSet) : TokenSet := ⟨a.bits &&& (a.bits ^^^ b.bits)⟩

/-- The tokens that have actions in a state. -/
def State.present (s : State) : TokenSet :=
  (s.actions.foldl (fun (out, i) a => (if a.isEmpty then out else out.insert i, i + 1))
    ((∅, 0) : TokenSet × Nat)).1

/-- Whether a fixed text is a keyword: it reads like a word. -/
def Terminal.isKeyword (t : Terminal) : Bool :=
  match t.lexeme? with
  | some s => s.toList.all fun c => c.isAlpha || c == '_'
  | none => false

/-- The terminals that the lexicon looks for in a state by itself: those with `isKeyword` are looked for as words. -/
def State.wanted (v : Vocabulary) (s : State) : TokenSet :=
  ((List.range (1 + v.terminals.size)).filter fun i => !(s.actions.getD i []).isEmpty).foldl
    (fun out i => match v.terminal? i with
      | some t => if t.isKeyword then out.insert v.word else out.insert i
      | none => out.insert i) ∅

namespace Automaton

/-- The contention of a grammar by symbol. -/
structure Rivalry where
  /-- The terminals that each symbol is a rival of. -/
  rivals : Array TokenSet
  /-- The terminals whose texts go on from, or lead to, texts of each symbol. -/
  overlaps : Array TokenSet

/-- Whether the fixed text of `a` goes on from that of `b`. -/
def textExtends (a b : Terminal) : Bool :=
  match a.lexeme?, b.lexeme? with
  | some s, some t => s != t && t.isPrefixOf s
  | _, _ => false

/-- The terminals as a set. -/
def terminalSet (v : Vocabulary) : TokenSet :=
  (List.range v.terminals.size).foldl (fun s i => s.insert (i + 1)) ∅

/-- Looks the contention up symbol by symbol. -/
def Rivalry.ofContention (v : Vocabulary) (c : Contention) : Rivalry := Id.run do
  let symbol (name : String) : Nat := (v.symbol? name).getD 0
  let mut rivals : Array TokenSet := Array.replicate v.tokenCount ∅
  let mut overlaps : Array TokenSet := Array.replicate v.tokenCount ∅
  for (a, b) in c.rivals do
    rivals := rivals.modify (symbol a) (·.insert (symbol b))
  for a in c.greedy do
    rivals := rivals.set! (symbol a) (terminalSet v)
    overlaps := overlaps.set! (symbol a) (terminalSet v)
    for i in [1:v.terminals.size + 1] do
      overlaps := overlaps.modify i (·.insert (symbol a))
  for (a, b) in c.extensions do
    overlaps := overlaps.modify (symbol a) (·.insert (symbol b))
    overlaps := overlaps.modify (symbol b) (·.insert (symbol a))
  for i in [0:v.terminals.size] do
    for j in [0:v.terminals.size] do
      if textExtends (v.terminals.getD i default) (v.terminals.getD j default) then
        overlaps := overlaps.modify (i + 1) (·.insert (j + 1))
        overlaps := overlaps.modify (j + 1) (·.insert (i + 1))
  return ⟨rivals, overlaps⟩

/-! ## Splitting groups of states -/

/-- A division of the states into groups. -/
structure Division where
  groupOf : Array Nat
  groups : Array (Array Nat)

/-- Takes every state out of its group that is at `odds` with one that stays, the first group first; the states taken
out of a group form a new one, which is looked at later. -/
def Division.split (d : Division) (odds : Array Nat → Nat → Nat → Bool) : Bool × Division := Id.run do
  let mut groupOf := d.groupOf
  let mut groups := d.groups
  let mut any := false
  for g in [0:stateLimit] do
    if groups.size ≤ g then break
    let members := groups.getD g #[]
    let mut out : Array Bool := Array.replicate members.size false
    for i in [0:members.size] do
      unless out.getD i false do
        for j in [i + 1:members.size] do
          unless out.getD j false do
            if odds groupOf (members.getD i 0) (members.getD j 0) then
              out := out.set! j true
    if out.contains true then
      any := true
      let leaving := (members.zip out).filterMap fun (m, o) => if o then some m else none
      let staying := (members.zip out).filterMap fun (m, o) => if o then none else some m
      for m in leaving do
        groupOf := groupOf.set! m groups.size
      groups := (groups.set! g staying).push leaving
  return (any, ⟨groupOf, groups⟩)

/-- Whether the actions of two states on a token disagree, steps to states of one group by `groupOf` being alike. -/
def disagree (groupOf : Array Nat) : List Action → List Action → Bool
  | [], [] => false
  | .shift a x :: as, .shift b y :: bs =>
    groupOf.getD a 0 != groupOf.getD b 0 || x != y || disagree groupOf as bs
  | a :: as, b :: bs => a != b || disagree groupOf as bs
  | _, _ => true

/-- Whether a `token` that is new to a state, with those that are `present`, would get in the way there. -/
def intrudes (v : Vocabulary) (r : Rivalry) (token : Nat) (present : TokenSet) : Bool :=
  if v.isLayout token || v.watched.contains token then true
  else !((r.rivals.getD token ∅).inter present).isEmpty

/-- Whether the states `a` and `b` may not be joined because of their actions. -/
def conflict (v : Vocabulary) (r : Rivalry) (states : Array State) (present : Array TokenSet)
    (groupOf : Array Nat) (a b : Nat) : Bool :=
  let x := states.getD a default
  let y := states.getD b default
  (List.range v.tokenCount).any fun token =>
    match x.actions.getD token [], y.actions.getD token [] with
    | [], [] => false
    | [], _ => intrudes v r token (present.getD a ∅)
    | _, [] => intrudes v r token (present.getD b ∅)
    | p, q => disagree groupOf p q

private def lastShift : List Action → Option Nat
  | [] => none
  | [.shift n _] => some n
  | [_] => none
  | _ :: as => lastShift as

/-- Whether the states `a` and `b` lead to states of different groups. -/
def lead (v : Vocabulary) (states : Array State) (groupOf : Array Nat) (a b : Nat) : Bool :=
  let x := states.getD a default
  let y := states.getD b default
  (List.range v.tokenCount).any (fun token =>
      match lastShift (x.actions.getD token []), lastShift (y.actions.getD token []) with
      | some m, some n => groupOf.getD m 0 != groupOf.getD n 0
      | _, _ => false)
    || (List.range v.nonterminals.size).any fun i =>
      let m := x.gotos.getD i 0
      let n := y.gotos.getD i 0
      m != 0 && n != 0 && groupOf.getD m 0 != groupOf.getD n 0

/-- The coarsest division found by splitting the states with equal items until nothing is at odds. -/
def divide (v : Vocabulary) (r : Rivalry) (states : Array State) : Division := Id.run do
  let present := states.map State.present
  let cores := states.foldl (fun n s => max n (s.core + 1)) 0
  let mut groups : Array (Array Nat) := Array.replicate cores #[]
  for i in [0:states.size] do
    groups := groups.modify (states.getD i default).core (·.push i)
  let mut d : Division := ⟨states.map State.core, groups⟩
  d := (d.split (conflict v r states present)).2
  for _ in [0:states.size] do
    let (any, d') := d.split (lead v states)
    d := d'
    unless any do break
  return d

/-- One state for each group of `d`: the actions of all its members, with the steps renumbered. -/
def join (v : Vocabulary) (states : Array State) (d : Division) : Array State := Id.run do
  -- the groups of the lost state and of the start state come first
  let lost := d.groupOf.getD 0 0
  let start := d.groupOf.getD 1 0
  let order := #[lost, start] ++
    (Array.range d.groups.size).filter fun g => g != lost && g != start
  let mut place : Array Nat := Array.replicate d.groups.size 0
  for i in [0:order.size] do
    place := place.set! (order.getD i 0) i
  let number := place
  let goTo (s : Nat) : Nat := number.getD (d.groupOf.getD s 0) 0
  return order.map fun g => Id.run do
    let mut actions : Array (List Action) := Array.replicate v.tokenCount []
    let mut gotos : Array Nat := Array.replicate v.nonterminals.size 0
    for m in d.groups.getD g #[] do
      let s := states.getD m default
      for token in [0:v.tokenCount] do
        let here := s.actions.getD token []
        unless here.isEmpty do
          actions := actions.set! token (here.map fun
            | .shift n again => .shift (goTo n) again
            | a => a)
      for i in [0:v.nonterminals.size] do
        let n := s.gotos.getD i 0
        unless n == 0 do gotos := gotos.set! i (goTo n)
    return ⟨actions, gotos, g⟩

/-! ## Passing states by -/

/-- The variable of a state that does nothing but close one and the same variable over a single match,
where that leaves no trace in the tree. -/
def loneClosing? (allowed : Nat → Bool) (shapes : Array (Array Slot)) (s : State) : Option Nat :=
  let steps := s.actions.toList.flatten.filter (· != .shiftExtra)
  match steps with
  | .reduce target 1 0 shape :: _ =>
    let traceless := (shapes.getD shape #[]).all (· == (none, none))
    let same := steps.all fun
      | .reduce i 1 0 j => i == target && j == shape
      | _ => false
    if traceless && same && allowed target then some target else none
  | _ => none

/-- The variables whose closing may be passed by: those that never are nodes. -/
def passable (v : Vocabulary) (supertypes : List String) (i : Nat) : Bool :=
  let x := v.nonterminals.getD i default
  let relabelled := v.nonterminals.any fun y => y.productions.any fun p =>
    p.steps.any fun s => s.symbol == v.tokenCount + i && s.label.isSome
  x.kind != .visible && !supertypes.contains x.name && !relabelled

/-- Leads every step past the states that would only close a variable, to where the state that is left
goes from there. -/
def passBy (v : Vocabulary) (supertypes : List String) (shapes : Array (Array Slot))
    (states : Array State) : Array State :=
  let allowed := (Array.range v.nonterminals.size).map (passable v supertypes)
  let lone := states.map (loneClosing? (allowed.getD · false) shapes)
  states.map fun s =>
    let rec past : Nat → Nat → Nat
      | 0, n => n
      | fuel + 1, n =>
        match lone.getD n none with
        | some i => if s.gotos.getD i 0 == 0 then n else past fuel (s.gotos.getD i 0)
        | none => n
    let goTo := past states.size
    { s with
      actions := s.actions.map fun xs => xs.map fun
        | .shift n again => .shift (goTo n) again
        | a => a
      gotos := s.gotos.map fun n => if n == 0 then 0 else goTo n }

/-- The states that a state leads to. -/
def targets (s : State) : List Nat :=
  s.actions.toList.flatten.filterMap (fun
    | .shift n _ => some n
    | _ => none) ++ s.gotos.toList.filter (· != 0)

/-- Empties the states that neither the lost state nor the start state leads to. -/
def emptyUnreached (states : Array State) : Array State := Id.run do
  let mut seen : Array Bool := (Array.replicate states.size false).set! 0 true |>.set! 1 true
  let mut pending : List Nat := [1]
  for _ in [0:states.size] do
    match pending with
    | [] => break
    | n :: rest =>
      pending := rest
      for m in targets (states.getD n default) do
        unless seen.getD m false do
          seen := seen.set! m true
          pending := m :: pending
  let reached := seen
  return states.mapIdx fun i s => if reached.getD i false then s else { (default : State) with core := s.core }

/-! ## What the lexicon looks for -/

/-- For each terminal, the terminals that some state has actions for together with it; `compatible` asks for them. -/
def coincidences (v : Vocabulary) (states : Array State) : Array TokenSet :=
  states.foldl (fun out s =>
    let p := s.present
    (List.range (1 + v.terminals.size)).foldl (fun out i =>
      if p.contains i then out.modify i (·.union p) else out) out)
    (Array.replicate v.tokenCount ∅)

/-- Whether the sets `a` and `b` may be looked for at once. -/
def compatible (v : Vocabulary) (r : Rivalry) (together : Array TokenSet) (a b : TokenSet) : Bool :=
  (List.range' 1 v.terminals.size).all fun i =>
    let clash (other : TokenSet) : Bool :=
      !(other.inter (r.rivals.getD i ∅)).isEmpty
        || !(other.inter ((r.overlaps.getD i ∅).diff (together.getD i ∅))).isEmpty
    match a.contains i, b.contains i with
    | true, false => !clash b
    | false, true => !clash a
    | _, _ => true

/-- The set that each state looks for, shared as widely as the terminals allow. -/
def sharedSets (v : Vocabulary) (r : Rivalry) (together : Array TokenSet) (states : Array State) :
    Array TokenSet := Id.run do
  let mut sets : Array TokenSet := #[]
  let mut choice : Array Nat := #[]
  for s in states do
    let own := s.wanted v
    match sets.findIdx? fun x => compatible v r together x own with
    | some i =>
      sets := sets.modify i (·.union own)
      choice := choice.push i
    | none =>
      choice := choice.push sets.size
      sets := sets.push own
  let final := sets
  return choice.map (final.getD · ∅)

/-- The automaton of a grammar. -/
def ofGrammar (g : Grammar) (c : Contention) : Automaton :=
  let v := Vocabulary.ofGrammar g
  let table := ItemTable.ofVocabulary v
  let rivalry := Rivalry.ofContention v c
  let canon := canonical table (c.greedy.filterMap v.symbol?)
  let shapes := table.shapes.map List.toArray
  let joined := join v canon (divide v rivalry canon)
  let states := emptyUnreached (passBy v g.supertypes shapes joined)
  { vocabulary := v, states, shapes
    lexemes := sharedSets v rivalry (coincidences v (canon.set! 0 default)) states }

/-! ## Looking things up -/

/-- The actions of `state` on `token`. -/
def actions (a : Automaton) (state token : Nat) : List Action :=
  (a.states.getD state default).actions.getD token []

/-- The state after a symbol, or `0` if there is none. -/
def next (a : Automaton) (state symbol : Nat) : Nat :=
  if symbol < a.vocabulary.tokenCount then
    match (a.actions state symbol).getLast? with
    | some (.shift n _) => n
    | some .shiftExtra => state
    | _ => 0
  else (a.states.getD state default).gotos.getD (symbol - a.vocabulary.tokenCount) 0

end Automaton

end PayloadAtlas.Grammar
