import PayloadAtlas.Grammar.Item

/-!
# The automaton of a grammar

`Automaton.canonical` builds the states that a reader of the grammar can be in: sets of items with the
tokens that may follow each. In every state each token has its actions. Where both reading on and
closing a match are possible, the levels and sides of the rules decide; where they do not, both
actions stay, and the reader follows both.

State `0` is the state of a reader that has lost its way, in which every token is skipped. State `1`
is where reading starts.
-/

namespace PayloadAtlas.Grammar

/-- What a reader does on a token. -/
inductive Action where
  /-- Takes the token and goes to a state; `again` marks the continuation of a repetition, which is
  left to the variable of the repetition. -/
  | shift (state : Nat) (again : Bool)
  /-- Takes the token as something that may stand anywhere. -/
  | shiftExtra
  /-- Replaces the last `count` matches by one of a variable. -/
  | reduce (target count : Nat) (weight : Int) (shape : Nat)
  /-- The input is read. -/
  | accept
  /-- Skips the token. -/
  | recover
  deriving DecidableEq, Inhabited

/-- A state: its actions by token, the states it goes to by variable (`0` for none), and the number
of the set of items it has, the tokens left aside. -/
structure State where
  actions : Array (List Action)
  gotos : Array Nat
  core : Nat
  deriving Inhabited

/-- The states of a grammar and what its reader needs to know besides. -/
structure Automaton where
  vocabulary : Vocabulary
  states : Array State
  /-- The terminals that the lexicon looks for in each state. -/
  lexemes : Array TokenSet
  /-- The rows of slots that reductions refer to. -/
  shapes : Array (Array Slot)
  deriving Inhabited

namespace Automaton

/-! ## Deciding between actions -/

/-- What is known about the matches that could be closed on one token: their level, and their side where there is one.
-/
structure Closing where
  level : Option Int := none
  left : Bool := false
  right : Bool := false
  neither : Bool := false
  deriving Inhabited

/-- Compares levels, none being the level `0`. -/
def compareLevels (a b : Option Int) : Ordering := compare (a.getD 0) (b.getD 0)

/-- The actions of one state while they are being collected. -/
structure Cell where
  actions : List Action := []
  closing : Closing := {}
  contested : Bool := false
  deriving Inhabited

/-- Adds the closing of a match by `action`: one of a lower level gives way, one of a higher level displaces. -/
def Cell.close (c : Cell) (x : Item) (action : Action) : Cell :=
  let keep (base : Closing) (actions : List Action) (contested : Bool) : Cell :=
    { actions, contested
      closing := { level := x.level
                   left := base.left || x.side == some .left
                   right := base.right || x.side == some .right
                   neither := base.neither || x.side == none } }
  match c.actions with
  | [] => keep c.closing [action] c.contested
  | _ => match compareLevels x.level c.closing.level with
    | .gt => keep {} [action] false
    | .eq => keep c.closing (c.actions ++ [action]) true
    | .lt => c

/-- Adds the step to the state with number `state`. -/
def Cell.step (c : Cell) (state : Nat) : Cell :=
  { c with actions := c.actions ++ [.shift state false], contested := c.contested || !c.actions.isEmpty }

/-- Decides a contested cell. `open` are the items that the token would carry on, `closed` the
variables that it would close. -/
def Cell.settle (c : Cell) (auxiliary : Nat → Bool) (opened : List Item) (closed : List Nat) :
    List Action :=
  match c.actions.getLast? with
  | some (.shift state _) =>
    let involved := opened.map (·.owner) ++ closed
    let same := match involved with
      | [] => false
      | v :: vs => auxiliary v && vs.all (· == v)
    if same then c.actions.dropLast ++ [.shift state true]
    else
      let orders := opened.map fun x => compareLevels x.level c.closing.level
      match orders.contains .gt, orders.contains .lt with
      | true, false => [.shift state false]
      | false, true => c.actions.dropLast
      | true, true => c.actions
      | false, false =>
        match c.closing.left, c.closing.neither, c.closing.right with
        | true, false, false => c.actions.dropLast
        | false, false, true => [.shift state false]
        | _, _, _ => c.actions
  | _ => c.actions

/-! ## The canonical states -/

/-- The states found so far. -/
structure Discovery where
  kernels : Array ItemTable.Kernel
  cores : Array Nat
  known : Std.HashMap ItemTable.Kernel Nat
  coreNumbers : Std.HashMap (Array Nat) Nat

/-- Joins the entries of one item and puts the items in order. -/
def normalize (entries : Array (Nat × TokenSet)) : ItemTable.Kernel :=
  let sorted := entries.qsort fun a b => a.1 < b.1
  sorted.foldl (fun out (i, s) =>
    match out.back? with
    | some (j, t) => if i == j then out.pop.push (i, t.union s) else out.push (i, s)
    | none => out.push (i, s)) #[]

/-- The number of the state with `kernel`, which is added if it is new. -/
def Discovery.visit (d : Discovery) (kernel : ItemTable.Kernel) : Nat × Discovery :=
  match d.known[kernel]? with
  | some n => (n, d)
  | none =>
    let n := d.kernels.size
    let key := kernel.map (·.1)
    let (core, numbers) := match d.coreNumbers[key]? with
      | some c => (c, d.coreNumbers)
      | none => (d.coreNumbers.size, d.coreNumbers.insert key d.coreNumbers.size)
    (n, { kernels := d.kernels.push kernel, cores := d.cores.push core
          known := d.known.insert kernel n, coreNumbers := numbers })

/-- The state that `kernel` stands for, with the states it leads to. -/
def explore (t : ItemTable) (d : Discovery) (kernel : ItemTable.Kernel) (core : Nat) :
    State × Discovery := Id.run do
  let v := t.vocabulary
  let goal := v.nonterminals.size - 1
  let sets := t.closure kernel
  let mut d := d
  let mut cells : Array Cell := Array.replicate v.tokenCount {}
  let mut steps : Array ItemTable.Kernel :=
    Array.replicate (v.tokenCount + v.nonterminals.size) #[]
  let mut members : Array (Item × TokenSet) := #[]
  for i in [0:sets.size] do
    let follow := sets.getD i ∅
    unless follow.isEmpty do
      let x := t.item i
      members := members.push (x, follow)
      match x.next with
      | some (symbol, next) => steps := steps.modify symbol (·.push (next, follow))
      | none =>
        let action := if x.owner == goal then .accept
          else .reduce x.owner x.dot x.weight x.shape
        for token in follow.below v.tokenCount do
          cells := cells.modify token (·.close x action)
  -- tokens of the layout scanner come before those of the lexicon
  let tokens := List.range' (1 + v.terminals.size) v.layout.size
    ++ List.range (1 + v.terminals.size)
  for token in tokens do
    let entries := steps.getD token #[]
    unless entries.isEmpty do
      let (n, d') := d.visit (normalize entries)
      d := d'
      cells := cells.modify token (·.step n)
  let mut gotos : Array Nat := Array.replicate v.nonterminals.size 0
  for i in [0:v.nonterminals.size] do
    let entries := steps.getD (v.tokenCount + i) #[]
    unless entries.isEmpty do
      let (n, d') := d.visit (normalize entries)
      d := d'
      gotos := gotos.set! i n
  let auxiliary (i : Nat) : Bool := (v.nonterminals.getD i default).kind == .auxiliary
  let mut actions : Array (List Action) := Array.replicate v.tokenCount []
  for token in [0:v.tokenCount] do
    let c := cells.getD token {}
    if c.contested then
      let opened := members.toList.filterMap fun (x, _) =>
        match x.next with
        | some (symbol, _) =>
          if x.dot != 0 && (t.first.getD symbol ∅).contains token then some x else none
        | none => none
      let closed := members.toList.filterMap fun (x, follow) =>
        if x.next.isNone && follow.contains token then some x.owner else none
      actions := actions.set! token (c.settle auxiliary opened closed)
    else
      unless c.actions.isEmpty do
        actions := actions.set! token c.actions
  for token in v.extras do
    if (actions.getD token []).isEmpty then
      actions := actions.set! token [.shiftExtra]
  return (⟨actions, gotos, core⟩, d)

/-- The state of a reader that has lost its way: it skips every token but those of `excluded`. -/
def lostState (v : Vocabulary) (excluded : List Nat) (core : Nat) : State where
  actions := (Array.range v.tokenCount).map fun token =>
    if v.extras.contains token then [.shiftExtra]
    else if excluded.contains token then [] else [.recover]
  gotos := Array.replicate v.nonterminals.size 0
  core := core

/-- A bound on the number of states that are explored. -/
def stateLimit : Nat := 100000

/-- All states that can be reached, the `lostState` first and the start state second. -/
def canonical (t : ItemTable) (excluded : List Nat) : Array State := Id.run do
  let v := t.vocabulary
  let mut d : Discovery := ⟨#[#[]], #[0], ∅, ∅⟩
  d := (d.visit #[(t.start, TokenSet.singleton 0)]).2
  let mut states : Array State := #[default]
  for i in [1:stateLimit] do
    if d.kernels.size ≤ i then break
    let (s, d') := explore t d (d.kernels.getD i #[]) (d.cores.getD i 0)
    d := d'
    states := states.push s
  return states.set! 0 (lostState v excluded d.coreNumbers.size)

end Automaton

end PayloadAtlas.Grammar
