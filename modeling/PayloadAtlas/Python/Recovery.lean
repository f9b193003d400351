import PayloadAtlas.Python.Moves

/-!
# Finding the way again

A branch on which the next token fits nowhere loses its way. It first closes whatever can be closed
and tries whether one missing token would help. Then it goes on in the state of a reader that has lost
its way, where it either returns to a state that it has gone through, in which the token fits, with all
that came since as an error, or skips the token.

Both cost something. A branch gives up where another one is better for sure.
-/

namespace PayloadAtlas.Python

open PayloadAtlas.Grammar PayloadAtlas.Text

/-! ## Comparing branches -/

/-- What tells how well a branch does. -/
structure Standing where
  cost : Nat
  /-- How many nodes have been read since the branch last lost its way. -/
  count : Nat
  weight : Int
  /-- Whether the branch has lost its way. -/
  lost : Bool

/-- How two branches compare. -/
inductive Verdict where
  | takeLeft
  | preferLeft
  | even
  | preferRight
  | takeRight
  deriving DecidableEq

/-- A difference in cost, times what has been read since, beyond which there is no doubt: `18` skipped nodes. -/
def certainty : Nat := 18 * skippedNodeCost

/-- Compares the branches `a` and `b` by how well they do. -/
def Standing.compare (a b : Standing) : Verdict :=
  if !a.lost && b.lost then if a.cost < b.cost then .takeLeft else .preferLeft
  else if a.lost && !b.lost then if b.cost < a.cost then .takeRight else .preferRight
  else if a.cost < b.cost then
    if certainty < (b.cost - a.cost) * (1 + a.count) then .takeLeft else .preferLeft
  else if b.cost < a.cost then
    if certainty < (a.cost - b.cost) * (1 + b.count) then .takeRight else .preferRight
  else if b.weight < a.weight then .preferLeft
  else if a.weight < b.weight then .preferRight
  else .even

namespace Stack

/-- How well a branch does. -/
def standing (k : Stack) (v : Nat) : Standing :=
  let paused := k.isPaused v
  { cost := k.errorCost v + if paused then skippedNodeCost else 0
    count := k.countSinceFault v
    weight := (k.top v).weight
    lost := paused || (k.top v).state == 0 }

/-- Forgets on all branches that they had read more than they have now, by `settleCount`. -/
def settleCounts (k : Stack) : Stack :=
  (List.range k.branches.size).foldl (fun k v => k.settleCount v) k

end Stack

namespace Reader

/-- Whether something else is better than the branch `v` would be at `cost`. -/
def betterExists (r : Reader) (v : Nat) (lost : Bool) (cost : Nat) : Bool :=
  let k := r.stack
  let own : Standing := ⟨cost, k.countSinceFault v, (k.top v).weight, lost⟩
  (match r.finished with
    | some p => p.cost ≤ cost
    | none => false) ||
  (List.range k.branches.size).any fun i =>
    i != v && k.isActive i && (k.top v).place ≤ (k.top i).place &&
      match own.compare (k.standing i) with
      | .takeRight => true
      | .preferRight => k.canMerge i v
      | _ => false

/-! ## Returning to a state -/

/-- Returns a branch to a state that it has gone through `depth` pieces ago. -/
def returnTo (k : Stack) (l : Language) (s : Source) (v depth goal : Nat) : Bool × Stack := Id.run do
  let (found, popped) := k.popCount v depth
  let mut k := popped
  let mut last : Option Nat := none
  for x in found do
    unless last == some x.branch do
      if (k.top x.branch).state != goal then k := k.halt x.branch
      else
        let (errors, rest) := k.popError x.branch
        k := rest
        let earlier := (errors.head?.map Piece.children).getD []
        let (inner, extras) := Piece.splitExtras (earlier ++ x.pieces)
        unless inner.isEmpty do
          let place := (k.top x.branch).place
          let fault := (Piece.join l s .error 0 place inner).setExtra true
          k := k.push l x.branch (some fault) goal
        k := extras.foldl (fun k y => k.push l x.branch (some y) goal) k
        last := some x.branch
  return (last.isSome, k)

/-- Returns the branch `v` to the nearest state in which `token` fits, unless that costs too much. -/
def tryReturn (r : Reader) (l : Language) (s : Source) (v : Nat) (token : Piece) :
    Bool × Stack := Id.run do
  let .symbol symbol := token.facts.kind | return (false, r.stack)
  let k := r.stack
  let size := k.branches.size
  let place := (k.top v).place
  let since := k.countSinceFault v
  let cost := k.errorCost v
  let mut current := k
  for w in (k.branch v).waypoints.getD #[] do
    let mergeable := (List.range size).any fun j =>
      (current.top j).state == w.state && (current.top j).place == place
    unless w.state == 0 || w.place == place || mergeable do
      let cost := cost + w.depth * skippedNodeCost
        + (s.byteAt place - s.byteAt w.place) * skippedByteCost
        + (s.rowAt place - s.rowAt w.place) * skippedLineCost
      if { r with stack := current }.betterExists v false cost then break
      unless (l.automaton.actions w.state symbol).isEmpty do
        let depth := if 0 < since then w.depth + 1 else w.depth
        let (done, k') := returnTo current l s v depth w.state
        current := k'
        if done then return (true, current)
  return (false, current)

/-! ## Skipping a token -/

/-- Skips `token`: it joins the run of skipped pieces on top of the branch `v`. -/
def skipToken (k : Stack) (l : Language) (s : Source) (v : Nat) (token : Piece) : Stack :=
  let extra : Bool := match token.facts.kind with
    | .symbol n => (l.automaton.actions 1 n).getLast? == some .shiftExtra
    | _ => false
  let token := if extra then token.setExtra true else token
  let place := (k.top v).place
  let single := Piece.join l s .skipped 0 place [token]
  let (run, k) :=
    if 0 < k.countSinceFault v then
      let (found, k) := k.popCount v 1
      match found[0]? with
      | none => (single, k)
      | some x =>
        let k := { k with branches := k.branches.extract 0 (x.branch + 1) }
        (Piece.join l s .skipped 0 place (x.pieces ++ [single]), k.renumber x.branch v)
    else (single, k)
  let k := k.push l v (some run) 0
  match token.facts.layout with
  | some y => k.modify v fun b => { b with layout := some y }
  | none => k

/-- Keeps the first branches, as many as `first`, and of the others those with `isActive`. -/
def dropIdle (k : Stack) (first : Nat) : Stack :=
  let rest := (List.range' first (k.branches.size - first)).filter k.isActive
  { k with branches := k.branches.extract 0 first ++ (rest.map k.branch).toArray }

/-- Goes on with the branch `v` that has lost its way, at `token`. -/
def recover (r : Reader) (l : Language) (s : Source) (v : Nat) (token : Piece) : Reader :=
  let k := r.stack.settleCounts
  let size := k.branches.size
  let (done, k) := { r with stack := k }.tryReturn l s v token
  let k := dropIdle k size
  if done && (maxBranches < k.branches.size || token.facts.changesLayout) then
    { r with stack := k.halt v }
  else if token.facts.kind == .symbol 0 then
    let fault := Piece.join l s .error 0 (k.top v).place []
    { r with stack := k }.accept l s v [fault, token]
  else
    let cost := k.errorCost v + skippedNodeCost + token.totalBytes s * skippedByteCost
      + token.totalRows s * skippedLineCost
    if { r with stack := k }.betterExists v false cost then { r with stack := k.halt v }
    else { r with stack := skipToken k l s v token }

/-! ## Losing the way -/

/-- Tries on the branch `v` whether a missing token would let `next` fit. -/
def tryMissing (k : Stack) (l : Language) (s : Source) (v : Nat) (next : Piece) : Bool × Stack := Id.run do
  let .symbol symbol := next.facts.kind | return (false, k)
  let mut k := k
  for token in l.tokens do
    let state := (k.top v).state
    let after := l.automaton.next state token
    unless after == 0 || after == state do
      match l.automaton.actions after symbol with
      | .reduce .. :: _ =>
        let (u, k') := k.duplicate v
        let place := (k'.top u).place
        let absent : Piece := .mk
          { kind := .symbol token, origin := place, start := place, stop := place, missing := true } []
        let (can, k'') := (k'.push l u (some absent) after).closeAll l s u symbol
        k := k''
        if can then return (true, k)
      | _ => pure ()
  return (false, k)

/-- Takes the branch `v` off its way because `token` fits nowhere. -/
def loseWay (r : Reader) (l : Language) (s : Source) (v : Nat) (token : Piece) : Reader := Id.run do
  let before := r.stack.branches.size
  let mut k := (r.stack.closeAll l s v 0).2
  let after := k.branches.size
  let mut helped := false
  for u in v :: List.range' before (after - before) do
    unless helped do
      let (can, k') := tryMissing k l s u token
      k := k'
      helped := can
    k := k.push l u none 0
  for _ in [before:after] do
    k := (k.merge? l s v before).getD k
  return { r with stack := k.recordWaypoints v }.recover l s v token

end Reader

end PayloadAtlas.Python
