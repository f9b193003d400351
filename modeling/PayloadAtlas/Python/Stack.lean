import PayloadAtlas.Python.Piece

/-!
# Stacks with branches

Where the grammar leaves open what a token belongs to, a reader follows every possibility. The
possibilities share what they have in common: a `Stack` is a graph of frames, each in a state and at
a place of the source, with links to the frames before it; a link carries the piece that was read
between the two. A branch is a possibility that is being followed, and names the frame on its top.

Popping a number of pieces follows every path through the links, so one branch may yield several.
Branches that have come to the same state at the same place, at the same cost, are merged.
-/

namespace PayloadAtlas.Python

open PayloadAtlas.Text

/-- The way from a frame to one before it. A link without a piece is a point where the reader lost its
way. -/
structure Link where
  frame : Nat
  piece : Option Piece
  deriving Inhabited

/-- A state at a place of the source, with what was spent to get there. -/
structure Frame where
  links : Array Link
  state : Nat
  place : Nat
  cost : Nat := 0
  weight : Int := 0
  /-- How many nodes have been read. -/
  count : Nat := 0
  deriving Inhabited

/-- What a branch is doing. -/
inductive Status where
  | active
  /-- The next token fits nowhere in the branch's state. -/
  | paused (token : Piece)
  | halted
  deriving Inhabited

/-- A state that a branch has gone through: where, and how many pieces ago. -/
structure Waypoint where
  place : Nat
  depth : Nat
  state : Nat
  deriving Inhabited

/-- A possibility that is being followed. -/
structure Branch where
  frame : Nat
  /-- How many nodes had been read when the branch last lost its way. -/
  countAtFault : Nat := 0
  /-- The layout after the last token of the layout scanner. -/
  layout : Option Layout := none
  status : Status := .active
  /-- The states that the branch could return to. -/
  waypoints : Option (Array Waypoint) := none

/-- A number that names no branch stands for one that has ended. -/
instance : Inhabited Branch := ⟨{ frame := 0, status := .halted }⟩

/-- Frames and the branches that end in them. -/
structure Stack where
  frames : Array Frame
  branches : Array Branch
  deriving Inhabited

/-- The largest number of links that a frame has. -/
def maxLinks : Nat := 8

/-- The largest number of paths that are followed at once. -/
def maxPaths : Nat := 64

/-- How many pieces back a branch looks for states to return to. -/
def maxWaypointDepth : Nat := 16

namespace Stack

/-- A stack of one branch in the start state, which has the number `1`. -/
def initial : Stack := ⟨#[⟨#[], 1, 0, 0, 0, 0⟩], #[{ frame := 0 }]⟩

/-- The branch with the number `v`. -/
def branch (k : Stack) (v : Nat) : Branch := k.branches.getD v default

/-- The frame with the number `n`. -/
def frame (k : Stack) (n : Nat) : Frame := k.frames.getD n default

/-- The frame on top of the branch `v`. -/
def top (k : Stack) (v : Nat) : Frame := k.frame (k.branch v).frame

/-- Whether a branch is active. -/
def isActive (k : Stack) (v : Nat) : Bool :=
  match (k.branch v).status with
  | .active => true
  | _ => false

/-- Whether a branch is paused. -/
def isPaused (k : Stack) (v : Nat) : Bool :=
  match (k.branch v).status with
  | .paused _ => true
  | _ => false

/-- Whether a branch is halted. -/
def isHalted (k : Stack) (v : Nat) : Bool :=
  match (k.branch v).status with
  | .halted => true
  | _ => false

/-- Changes the branch `v` by `f`. -/
def modify (k : Stack) (v : Nat) (f : Branch → Branch) : Stack :=
  { k with branches := k.branches.modify v f }

/-- Ends the branch `v`, which is then `halted`. -/
def halt (k : Stack) (v : Nat) : Stack := k.modify v fun b => { b with status := .halted }

/-- Removes the branch `v`; the later ones move up. -/
def remove (k : Stack) (v : Nat) : Stack :=
  { k with branches := k.branches.extract 0 v ++ k.branches.extract (v + 1) k.branches.size }

/-- Puts the branch `source` in the place of the earlier one `target`, from which it takes the waypoints if it has
none. -/
def renumber (k : Stack) (source target : Nat) : Stack :=
  if source = target then k
  else
    let b := k.branch source
    let b := { b with waypoints := b.waypoints.or (k.branch target).waypoints }
    { k with branches := k.branches.set! target b }.remove source

/-- Adds a branch that goes on like the branch `v`. -/
def duplicate (k : Stack) (v : Nat) : Nat × Stack :=
  (k.branches.size, { k with branches := k.branches.push { k.branch v with waypoints := none } })

/-- Puts `piece` on the branch `v`, or with `none` the mark that it lost its way. -/
def push (k : Stack) (l : Language) (v : Nat) (piece : Option Piece) (state : Nat) : Stack :=
  let b := k.branch v
  let f := k.frame b.frame
  let link : Link := ⟨b.frame, piece⟩
  let new : Frame := match piece with
    | some p =>
      { links := #[link], state, place := p.facts.stop, cost := f.cost + p.cost
        weight := f.weight + p.facts.weight, count := f.count + p.count l }
    | none => { f with links := #[link], state }
  let n := k.frames.size
  { frames := k.frames.push new
    branches := k.branches.modify v fun b =>
      { b with frame := n, countAtFault := if piece.isNone then new.count else b.countAtFault } }

/-! ## Merging -/

/-- Whether two links carry pieces that are as good as one another. -/
def linksEquivalent (s : Source) (a b : Option Piece) : Bool :=
  match a, b with
  | none, none => true
  | some p, some q => Piece.equivalent s p q
  | _, _ => false

/-- Adds a link to a frame. A link that is as good as one that is there is merged with it, and so are
the frames that both lead to; the fuel bounds how far down that goes. -/
def addLink (l : Language) (s : Source) : Nat → Array Frame → Nat → Link → Array Frame
  | 0, frames, _, _ => frames
  | fuel + 1, frames, n, link => Id.run do
    if link.frame == n then return frames
    let here := frames.getD n default
    let there := frames.getD link.frame default
    let weight := there.weight + ((link.piece.map (·.facts.weight)).getD 0)
    for i in [0:here.links.size] do
      let old := here.links.getD i default
      if linksEquivalent s old.piece link.piece then
        if old.frame == link.frame then
          match old.piece, link.piece with
          | some p, some q =>
            if p.facts.weight < q.facts.weight then
              return frames.set! n { here with
                links := here.links.set! i { old with piece := link.piece }, weight }
            else return frames
          | _, _ => return frames
        let other := frames.getD old.frame default
        if other.state == there.state && other.place == there.place && other.cost == there.cost then
          let merged := there.links.foldl (fun fs x => addLink l s fuel fs old.frame x) frames
          return merged.modify n fun f => { f with weight := max f.weight weight }
    if here.links.size ≥ maxLinks then return frames
    let count := there.count + ((link.piece.map (·.count l)).getD 0)
    return frames.set! n { here with
      links := here.links.push link, count := max here.count count, weight := max here.weight weight }

/-- Whether the branches `a` and `b` have come to the same state at the same place and cost. -/
def canMerge (k : Stack) (a b : Nat) : Bool :=
  let f := k.top a
  let g := k.top b
  k.isActive a && k.isActive b && f.state == g.state && f.place == g.place && f.cost == g.cost
    && (k.branch a).layout == (k.branch b).layout

/-- Merges the branch `b` into `a`, if `canMerge` allows it. -/
def merge? (k : Stack) (l : Language) (s : Source) (a b : Nat) : Option Stack :=
  if k.canMerge a b then
    let n := (k.branch a).frame
    let frames := (k.top b).links.foldl (fun fs x => addLink l s (fs.size + 1) fs n x) k.frames
    let k := { k with frames }
    let k := if (k.top a).state == 0 then
        k.modify a fun x => { x with countAtFault := (k.top a).count } else k
    some (k.remove b)
  else none

/-! ## Popping -/

/-- A path back from the top of a branch. -/
structure Path where
  frame : Nat
  /-- The pieces on the path, the earliest first. -/
  pieces : List Piece
  /-- How many of them count: extras do not. -/
  depth : Nat
  deriving Inhabited

/-- What to do with a path. -/
inductive Verdict where
  | follow
  | drop
  /-- Keep the path as it is and follow it no further. -/
  | keep
  /-- Keep the path as it is, and follow it further too. -/
  | keepAndFollow
  deriving DecidableEq

/-- The path one link further back, over `x`. -/
def Path.extend (p : Path) (x : Link) : Path :=
  match x.piece with
  | some q => ⟨x.frame, q :: p.pieces, if q.facts.extra then p.depth else p.depth + 1⟩
  | none => ⟨x.frame, p.pieces, p.depth + 1⟩

/-- One step of all paths: the kept ones, and the ones to follow. Of the links of a frame the first
takes the path's own place; the paths through the others come at the end. -/
def stepPaths (k : Stack) (verdict : Path → Verdict) (paths : Array Path) :
    Array Path × Array Path := Id.run do
  let mut kept : Array Path := #[]
  let mut own : Array Path := #[]
  let mut more : Array Path := #[]
  for i in [0:paths.size] do
    let p := paths.getD i default
    let links := (k.frame p.frame).links
    let w := verdict p
    if w == .keep || w == .keepAndFollow then kept := kept.push p
    unless w == .keep || w == .drop || links.isEmpty do
      for j in [1:links.size] do
        if own.size + (paths.size - i) + more.size < maxPaths then
          more := more.push (p.extend (links.getD j default))
      own := own.push (p.extend (links.getD 0 default))
  return (kept, own ++ more)

/-- Follows the paths back from the branch `v`, and collects those that `verdict` keeps, in order. -/
def paths (k : Stack) (v : Nat) (verdict : Path → Verdict) : Array Path := Id.run do
  let mut out : Array Path := #[]
  let mut current : Array Path := #[⟨(k.branch v).frame, [], 0⟩]
  for _ in [0:k.frames.size + 1] do
    if current.isEmpty then break
    let (kept, next) := k.stepPaths verdict current
    out := out ++ kept
    current := next
  return out

/-- The pieces popped along a path, and the branch that goes on from its end. -/
structure Slice where
  pieces : List Piece
  branch : Nat
  deriving Inhabited

/-- Makes a branch for the end of each path of `found`, one for all paths that end in the same frame. -/
def slices (k : Stack) (v : Nat) (found : Array Path) : Array Slice × Stack := Id.run do
  let mut k := k
  let mut out : Array Slice := #[]
  for p in found do
    let same := (List.range out.size).reverse.find? fun i =>
      (k.branch (out.getD i default).branch).frame == p.frame
    match same with
    | some i =>
      let x : Slice := ⟨p.pieces, (out.getD i default).branch⟩
      out := out.extract 0 (i + 1) ++ #[x] ++ out.extract (i + 1) out.size
    | none =>
      let b := k.branch v
      let fresh : Branch := { frame := p.frame, countAtFault := b.countAtFault, layout := b.layout }
      out := out.push ⟨p.pieces, k.branches.size⟩
      k := { k with branches := k.branches.push fresh }
  return (out, k)

/-- Pops `count` pieces from the branch `v`, extras not counted. -/
def popCount (k : Stack) (v count : Nat) : Array Slice × Stack :=
  k.slices v (k.paths v fun p => if p.depth == count then .keep else .follow)

/-- Everything on the branch `v`, along each path back to the beginning. -/
def popAll (k : Stack) (v : Nat) : Array (List Piece) :=
  (k.paths v fun p => if (k.frame p.frame).links.isEmpty then .keepAndFollow else .follow).map (·.pieces)

/-- Pops the error on top of the branch `v`, if there is one. -/
def popError (k : Stack) (v : Nat) : List Piece × Stack :=
  let isError (x : Link) : Bool := (x.piece.map fun p => p.facts.kind == .error).getD false
  if (k.top v).links.any isError then
    let found := k.paths v fun p =>
      match p.pieces with
      | [] => .follow
      | q :: _ => if q.facts.kind == .error then .keep else .drop
    match found[0]? with
    | none => ([], k)
    | some p =>
      let (out, k) := k.slices v #[p]
      match out[0]? with
      | some x => (x.pieces, k.renumber x.branch v)
      | none => ([], k)
  else ([], k)

/-- Notes the states that the branch `v` could return to, within `maxWaypointDepth`. -/
def recordWaypoints (k : Stack) (v : Nat) : Stack := Id.run do
  let mut seen : Array Waypoint := #[]
  let mut current : Array Path := #[⟨(k.branch v).frame, [], 0⟩]
  for _ in [0:k.frames.size + 1] do
    if current.isEmpty then break
    for p in current do
      let f := k.frame p.frame
      unless maxWaypointDepth < p.depth do
        unless seen.any fun w => w.depth == p.depth && w.state == f.state do
          seen := seen.push ⟨f.place, p.depth, f.state⟩
    current := (k.stepPaths (fun p => if maxWaypointDepth < p.depth then .drop else .follow) current).2
  let all := seen
  return k.modify v fun b => { b with waypoints := some all }

/-! ## What a branch has come to -/

/-- What the errors on the branch `v` have cost. -/
def errorCost (k : Stack) (v : Nat) : Nat :=
  let f := k.top v
  let lost := f.state == 0 && (match f.links[0]? with
    | some x => x.piece.isNone
    | none => true)
  f.cost + if k.isPaused v || lost then recoveryCost else 0

/-- How many nodes the branch `v` has read since it last lost its way. -/
def countSinceFault (k : Stack) (v : Nat) : Nat := (k.top v).count - (k.branch v).countAtFault

/-- Forgets that the branch `v` had read more than it has now. -/
def settleCount (k : Stack) (v : Nat) : Stack :=
  let count := (k.top v).count
  if count < (k.branch v).countAtFault then k.modify v fun b => { b with countAtFault := count }
  else k

/-- Whether the branch `v` has read anything since it last lost its way. -/
def hasAdvanced (k : Stack) (s : Source) (v : Nat) : Bool :=
  let b := k.branch v
  let rec go : Nat → Nat → Bool
    | 0, _ => false
    | fuel + 1, n =>
      let f := k.frame n
      match f.links[0]? with
      | none => false
      | some x =>
        match x.piece with
        | none => false
        | some p =>
          if 0 < p.totalBytes s then true
          else if b.countAtFault < f.count && p.cost == 0 then go fuel x.frame
          else false
  (k.frame b.frame).cost == 0 || go (k.frames.size + 1) b.frame

end Stack

end PayloadAtlas.Python
