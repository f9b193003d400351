import PayloadAtlas.Grammar.Production

/-!
# Items

An item is a production with a place in it: what stands before the place has been read, what stands
after it is still expected. Two items are the same item if they expect the same and will build the
same node, whatever the symbols were that they have read.

`ItemTable.ofVocabulary` numbers the items in a fixed order, and `ItemTable.closure` completes a set
of items with everything that may begin where they stand, each with the tokens that may follow it.
-/

namespace PayloadAtlas.Grammar

/-- A set of tokens: bit `i` stands for token `i`. -/
structure TokenSet where
  bits : Nat
  deriving DecidableEq, Inhabited

namespace TokenSet

instance : EmptyCollection TokenSet := ⟨⟨0⟩⟩
instance : Hashable TokenSet := ⟨fun s => mixHash (hash s.bits) (hash (s.bits >>> 64))⟩

/-- The set of the one token `i`. -/
def singleton (i : Nat) : TokenSet := ⟨1 <<< i⟩

/-- Whether the token `i` is in the set. -/
def contains (s : TokenSet) (i : Nat) : Bool := s.bits.testBit i

/-- The tokens of `s` and those of `t`. -/
def union (s t : TokenSet) : TokenSet := ⟨s.bits ||| t.bits⟩

/-- The set with the token `i` besides. -/
def insert (s : TokenSet) (i : Nat) : TokenSet := s.union (singleton i)

/-- Whether the set has no token. -/
def isEmpty (s : TokenSet) : Bool := s.bits == 0

/-- The tokens of the set below `bound`, in order. -/
def below (s : TokenSet) (bound : Nat) : List Nat := (List.range bound).filter s.contains

end TokenSet

/-- The name under which a child of a node is shown, and the field it is. -/
abbrev Slot := Option Label × Option String

/-- What makes two items the same. -/
structure ItemKey where
  dot : Nat
  owner : Nat
  weight : Int
  length : Nat
  level : Option Int
  side : Option Side
  done : List Slot
  rest : List Step
  deriving DecidableEq, Hashable

/-- An item, as the automaton needs it. -/
structure Item where
  dot : Nat
  /-- The index of the variable that the production belongs to. -/
  owner : Nat
  weight : Int
  /-- The level and side of the step before the place. -/
  level : Option Int
  side : Option Side
  /-- The symbol after the place and the item with the place behind it. -/
  next : Option (Nat × Nat)
  /-- The tokens that may begin what follows the next symbol; none if nothing follows. -/
  after : Option TokenSet
  /-- The number of the production's row of slots. -/
  shape : Nat
  deriving Inhabited

/-- A place in a production that begins where a variable is expected. -/
structure Opening where
  item : Nat
  /-- The tokens that may follow in any case. -/
  follow : TokenSet
  /-- Whether what follows the variable may follow the production too. -/
  inherits : Bool
  deriving Inhabited

/-- All items of a grammar. -/
structure ItemTable where
  vocabulary : Vocabulary
  items : Array Item
  /-- The item at the beginning of the goal. -/
  start : Nat
  /-- The tokens that a match of each symbol may begin with. -/
  first : Array TokenSet
  /-- For each variable, the places that open where it is expected. -/
  openings : Array (Array Opening)
  /-- The rows of slots, numbered by `Item.shape`; row `0` names nothing. -/
  shapes : Array (List Slot)
  deriving Inhabited

private def compareOption (a b : Option Int) : Ordering :=
  match a, b with
  | none, none => .eq
  | none, some _ => .lt
  | some _, none => .gt
  | some x, some y => compare x y

private def sideRank : Option Side → Nat
  | none => 0
  | some .left => 1
  | some .right => 2

/-- The order in which items are numbered. -/
def ItemKey.compare (a b : ItemKey) : Ordering :=
  (Ord.compare a.dot b.dot).then <| (Ord.compare a.owner b.owner).then <|
    (Ord.compare a.weight b.weight).then <| (Ord.compare a.length b.length).then <|
    (compareOption a.level b.level).then <| Ord.compare (sideRank a.side) (sideRank b.side)

/-- The key of the place `dot` in a production. -/
def ItemKey.ofPlace (owner : Nat) (p : Production) (dot : Nat) : ItemKey :=
  let before := if dot = 0 then none else p.steps[dot - 1]?
  { dot, owner, weight := p.weight, length := p.steps.size
    level := before.bind (·.level), side := before.bind (·.side)
    done := (p.steps.toList.take dot).map fun x => (x.label, x.field)
    rest := p.steps.toList.drop dot }

/-- The row of slots of a production, one for each of its `steps`. -/
def Production.slots (p : Production) : List Slot :=
  p.steps.toList.map fun x => (x.label, x.field)

namespace ItemTable

/-- The tokens that each symbol of `v` may begin with: the least sets closed under the productions. -/
def firstSets (v : Vocabulary) : Array TokenSet := Id.run do
  let mut sets := (Array.range (v.tokenCount + v.nonterminals.size)).map fun s =>
    if s < v.tokenCount then TokenSet.singleton s else ∅
  for _ in [0:v.nonterminals.size] do
    let mut changed := false
    for i in [0:v.nonterminals.size] do
      for p in (v.nonterminals.getD i default).productions do
        if let some x := p.steps[0]? then
          let here := sets.getD (v.tokenCount + i) ∅
          let all := here.union (sets.getD x.symbol ∅)
          if all != here then
            sets := sets.set! (v.tokenCount + i) all
            changed := true
    unless changed do break
  return sets

/-- What may follow each variable when variable `i` is expected: nothing known, or a set of tokens
together with whether what follows `i` may follow too. -/
def reach (v : Vocabulary) (first : Array TokenSet) (i : Nat) :
    Array (Option (TokenSet × Bool)) := Id.run do
  let mut found : Array (Option (TokenSet × Bool)) := Array.replicate v.nonterminals.size none
  found := found.set! i (some (∅, true))
  for _ in [0:v.nonterminals.size] do
    let mut changed := false
    for n in [0:v.nonterminals.size] do
      if let some (follow, inherits) := found.getD n none then
        for p in (v.nonterminals.getD n default).productions do
          if let some x := p.steps[0]? then
            unless x.symbol < v.tokenCount do
              let m := x.symbol - v.tokenCount
              let (more, passes) := match p.steps[1]? with
                | some y => (first.getD y.symbol ∅, false)
                | none => (follow, inherits)
              let (old, known) := match found.getD m none with
                | some e => (e, true)
                | none => ((∅, false), false)
              let new := (old.1.union more, old.2 || passes)
              if !known || new != old then
                found := found.set! m (some new)
                changed := true
    unless changed do break
  return found

/-- Numbers the items of a vocabulary. -/
def ofVocabulary (v : Vocabulary) : ItemTable := Id.run do
  let first := firstSets v
  -- every place, and the key of each
  let mut keys : Std.HashMap ItemKey (Production × Nat) := ∅
  let mut shapes : Array (List Slot) := #[[]]
  let mut shapeOf : Std.HashMap (List Slot) Nat := ∅
  for i in [0:v.nonterminals.size] do
    for p in (v.nonterminals.getD i default).productions do
      for dot in [0:p.steps.size + 1] do
        let key := ItemKey.ofPlace i p dot
        unless keys.contains key do keys := keys.insert key (p, dot)
      let row := p.slots
      unless shapeOf.contains row do
        if row.all fun s => s.1.isNone && s.2.isNone then
          shapeOf := shapeOf.insert row 0
        else
          shapeOf := shapeOf.insert row shapes.size
          shapes := shapes.push row
  let ordered := (keys.toArray.map fun (k, _) => k).qsort fun a b =>
    (a.compare b).then (compare (hash a.done) (hash b.done)) |>.then
      (compare (hash a.rest) (hash b.rest)) |>.isLT
  let mut numbers : Std.HashMap ItemKey Nat := ∅
  for i in [0:ordered.size] do
    numbers := numbers.insert (ordered.getD i (ItemKey.ofPlace 0 default 0)) i
  let numbering := numbers
  let items := ordered.map fun key =>
    let (p, dot) := keys.getD key default
    let next := (p.steps[dot]?).map fun x =>
      (x.symbol, numbering.getD (ItemKey.ofPlace key.owner p (dot + 1)) 0)
    { dot, owner := key.owner, weight := p.weight, level := key.level, side := key.side
      next
      after := (p.steps[dot + 1]?).map fun x => first.getD x.symbol ∅
      shape := shapeOf.getD p.slots 0 : Item }
  let openings := (Array.range v.nonterminals.size).map fun i => Id.run do
    let found := reach v first i
    let mut out : Array Opening := #[]
    for n in [0:v.nonterminals.size] do
      if let some (follow, inherits) := found.getD n none then
        for p in (v.nonterminals.getD n default).productions do
          out := out.push ⟨numbering.getD (ItemKey.ofPlace n p 0) 0, follow, inherits⟩
    return out
  let goal := v.nonterminals.size - 1
  let start := match (v.nonterminals.getD goal default).productions[0]? with
    | some p => numbering.getD (ItemKey.ofPlace goal p 0) 0
    | none => 0
  return { vocabulary := v, items, start, first, openings, shapes }

/-- The item with the number `i`. -/
def item (t : ItemTable) (i : Nat) : Item := t.items.getD i default

/-- A set of items, each with the tokens that may follow it, in the order of their numbers. -/
abbrev Kernel := Array (Nat × TokenSet)

/-- Completes `kernel` with everything that may begin where its items stand. The answer lists all items by number; one
that is not in the set has no tokens. -/
def closure (t : ItemTable) (kernel : Kernel) : Array TokenSet := Id.run do
  let mut sets : Array TokenSet := Array.replicate t.items.size ∅
  for (i, follow) in kernel do
    sets := sets.modify i (·.union follow)
    let x := t.item i
    if let some (symbol, _) := x.next then
      unless symbol < t.vocabulary.tokenCount do
        let later := x.after.getD follow
        for o in t.openings.getD (symbol - t.vocabulary.tokenCount) #[] do
          sets := sets.modify o.item fun s =>
            let s := s.union o.follow
            if o.inherits then s.union later else s
  return sets

end ItemTable

end PayloadAtlas.Grammar
