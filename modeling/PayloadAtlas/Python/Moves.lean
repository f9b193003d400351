import PayloadAtlas.Python.Token

/-!
# Moves of a reader

A reader has a stack of branches, and the best reading of the whole source that a branch has come to.
Besides taking a token, a branch can close a match (`reduce`), try every match that could be closed
whatever comes next (`closeAll`), or come to the end of the source (`accept`).
-/

namespace PayloadAtlas.Python

open PayloadAtlas.Grammar PayloadAtlas.Text

/-- The number of branches that outlive a round, `6`. -/
def maxBranches : Nat := 6

/-- How many more there may be within a round. -/
def branchOverflow : Nat := 4

/-- A reader at work. -/
structure Reader where
  stack : Stack
  /-- The best reading of the whole source so far. -/
  finished : Option Piece := none
  /-- How many readings of the whole source there were. -/
  accepted : Nat := 0
  deriving Inhabited

namespace Stack

/-! ## Taking a token -/

/-- Puts `token` on the branch `v`. -/
def shift (k : Stack) (l : Language) (v state : Nat) (token : Piece) (extra : Bool) : Stack :=
  let k := k.push l v (some (token.setExtra extra)) state
  match token.facts.layout with
  | some y => k.modify v fun b => { b with layout := some y }
  | none => k

/-! ## Closing a match -/

/-- Slices by the branch that goes on from their end. -/
def groups (xs : Array Slice) : List (Nat × List (List Piece)) :=
  xs.foldr (fun x out =>
    match out with
    | (v, ps) :: rest => if v == x.branch then (v, x.pieces :: ps) :: rest else (x.branch, [x.pieces]) :: out
    | [] => [(x.branch, [x.pieces])]) []

/-- A match with the extras that follow it, which are kept apart from the `Piece`. -/
abbrev Match := Piece × List Piece

/-- The better of several matches, by `secondIsBetter`. -/
def best : List Match → Option Match
  | [] => none
  | m :: ms => some (ms.foldl (fun a b => if Piece.secondIsBetter a.1 b.1 then b else a) m)

/-- Merges a branch into the first earlier one that it can be merged into, `except` aside. -/
def mergeIntoEarlier? (k : Stack) (l : Language) (s : Source) (v : Nat) (except : Nat) :
    Option Stack :=
  (List.range v).findSome? fun j => if j == except then none else k.merge? l s j v

/-- Closes a match of the last `count` pieces of a branch. The answer names the first branch that
goes on from there, if it is a new one. -/
def reduce (k : Stack) (l : Language) (s : Source) (v target count : Nat) (weight : Int)
    (shape : Nat) : Option Nat × Stack := Id.run do
  let symbol := l.automaton.vocabulary.tokenCount + target
  let before := k.branches.size
  let (found, popped) := k.popCount v count
  let mut k := popped
  let mut removed := 0
  let halted := ((List.range k.branches.size).filter k.isHalted).length
  for (v', runs) in groups found do
    let u := v' - removed
    if maxBranches + branchOverflow + halted < u then
      k := k.remove u
      removed := removed + 1
    else
      let place := (k.top u).place
      let readings := runs.map fun pieces =>
        let (inner, extras) := Piece.splitExtras pieces
        (Piece.join l s (.symbol symbol) shape place inner, extras)
      match best readings with
      | none => pure ()
      | some (m, extras) =>
        let next := l.automaton.next (k.top u).state symbol
        let m := Piece.mk { m.facts with weight := m.facts.weight + weight } m.children
        k := extras.foldl (fun k x => k.push l u (some x) next) (k.push l u (some m) next)
        match k.mergeIntoEarlier? l s u v with
        | some merged =>
          k := merged
          removed := removed + 1
        | none => pure ()
  return (if before < k.branches.size then some before else none, k)

/-! ## Closing whatever can be closed -/

/-- What a state can do on one token, or on any. -/
structure Options where
  /-- Whether a token can be taken. -/
  canShift : Bool := false
  /-- The matches that can be closed: their variables, lengths, weights and shapes. -/
  closings : Array (Nat × Nat × Int × Nat) := #[]
  deriving Inhabited

/-- Takes one action into account; of the closings of one variable and length the first counts. -/
def Options.add (o : Options) : Action → Options
  | .shift _ again => if again then o else { o with canShift := true }
  | .recover => { o with canShift := true }
  | .reduce target count weight shape =>
    if count == 0 || o.closings.any (fun c => c.1 == target && c.2.1 == count) then o
    else { o with closings := o.closings.push (target, count, weight, shape) }
  | _ => o

/-- What a state can do on `token`, or on any token for the symbol of the end. -/
def options (l : Language) (state token : Nat) : Options :=
  let tokens := if token == 0 then l.tokens else [token]
  tokens.foldl (fun o t => (l.automaton.actions state t).foldl Options.add o) {}

/-- How many rounds of closing there may be. -/
def closingLimit : Nat := 1000

/-- Closes matches on the branch `v`, and on the branches that come of it, until none can be closed. For a token other
than the end, branches that can neither take it nor close anything are removed. The answer says whether a branch could
take the token. -/
def closeAll (k : Stack) (l : Language) (s : Source) (v token : Nat) : Bool × Stack := Id.run do
  let start := k.branches.size
  let mut k := k
  let mut can := false
  let mut u := v
  for i in [0:closingLimit] do
    let size := k.branches.size
    if size ≤ u then break
    let here := u
    let current := k
    match (List.range' start (here - start)).findSome? fun j => current.merge? l s j here with
    | some merged => k := merged
    | none =>
      let o := options l (k.top u).state token
      let mut last : Option Nat := none
      for (target, count, weight, shape) in o.closings do
        let (r, k') := k.reduce l s u target count weight shape
        k := k'
        last := r
      match o.canShift, last with
      | true, _ =>
        can := true
        u := if u == v then size else u + 1
      | false, some r =>
        if i < maxBranches then k := k.renumber r u
        else
          if token != 0 then k := k.remove u
          u := if u == v then size else u + 1
      | false, none =>
        if token != 0 then k := k.remove u
        u := if u == v then size else u + 1
  return (can, k)

end Stack

/-! ## Coming to the end -/

/-- The whole of the pieces of a branch: those around the last piece that is no extra become parts of
that piece. -/
def wholeOf? (l : Language) (s : Source) (pieces : List Piece) : Option Piece :=
  let extras := (pieces.reverse.takeWhile (·.facts.extra)).reverse
  match (pieces.take (pieces.length - extras.length)).reverse with
  | [] => none
  | root :: before =>
    some (Piece.join l s root.facts.kind root.facts.shape 0
      (before.reverse ++ root.children ++ extras))

/-- Ends a branch in the start state, where the last of `pieces` ends. Nothing leads back from there: what the branch
has read is known by then. -/
def Stack.finish (k : Stack) (v : Nat) (pieces : List Piece) : Stack :=
  let f := k.top v
  let place := (pieces.getLast?.map (·.facts.stop)).getD f.place
  { frames := k.frames.push { f with links := #[], state := 1, place }
    branches := k.branches.modify v fun b => { b with frame := k.frames.size, status := .halted } }

/-- Takes the reading `whole` of the whole source into account. -/
def Reader.finishWith (r : Reader) (whole : Piece) : Reader :=
  let finished := match r.finished with
    | some old => if Piece.secondIsBetter old whole then whole else old
    | none => whole
  { r with finished := some finished, accepted := r.accepted + 1 }

/-- Ends a branch at the end of the source, of which the `last` pieces are given. -/
def Reader.accept (r : Reader) (l : Language) (s : Source) (v : Nat) (last : List Piece) : Reader :=
  let wholes := (r.stack.popAll v).toList.filterMap fun pieces => wholeOf? l s (pieces ++ last)
  let r := wholes.foldl finishWith r
  { r with stack := r.stack.finish v last }

end PayloadAtlas.Python
