import PayloadAtlas.Python.Recovery

/-!
# Reading a source

The branches of a reader take turns. In each round every branch advances until it has read further
than the ones before it; then those that do worse are dropped, the ones that have come to the same point
are merged, and if no other is left a branch that has lost its way tries to find it again. The reading
that costs least is the one that counts.

`read?` gives the tree of a source, with the faults in it.
-/

namespace PayloadAtlas.Python

open PayloadAtlas.Grammar PayloadAtlas.Text

namespace Reader

/-! ## Advancing a branch -/

/-- What a branch does on a token: the first taking of it ends the turn; matches are closed for each
closing action before that. -/
def act (l : Language) (s : Source) (v : Nat) (token : Piece) :
    List Action → Reader → Option Nat → Option Nat × Option Reader × Reader
  | [], r, last => (last, none, r)
  | a :: rest, r, last =>
    match a with
    | .shift _ true => act l s v token rest r last
    | .shift state false => (last, some { r with stack := r.stack.shift l v state token false }, r)
    | .shiftExtra =>
      (last, some { r with stack := r.stack.shift l v (r.stack.top v).state token true }, r)
    | .reduce target count weight shape =>
      let (new, k) := r.stack.reduce l s v target count weight shape
      act l s v token rest { r with stack := k } (new.or last)
    | .accept => (last, some (r.accept l s v [token]), r)
    | .recover => (last, some (r.recover l s v token), r)

/-- Advances the branch `v` by `token`. -/
def advanceBy (l : Language) (s : Source) (v : Nat) : Nat → Piece → Reader → Reader
  | 0, _, r => { r with stack := r.stack.halt v }
  | fuel + 1, token, r =>
    let state := (r.stack.top v).state
    let actions := match token.facts.kind with
      | .symbol n => l.automaton.actions state n
      | _ => []
    match act l s v token actions r none with
    | (_, some r, _) => r
    | (some new, none, r) =>
      advanceBy l s v fuel token { r with stack := r.stack.renumber new v }
    | (none, none, r) =>
      let word := l.automaton.vocabulary.word
      if token.facts.keyword && token.facts.kind != .symbol word
          && !(l.automaton.actions state word).isEmpty then
        advanceBy l s v fuel (.mk { token.facts with kind := .symbol word } []) r
      else if state == 0 then r.recover l s v token
      else
        let count := (r.stack.top v).count
        { r with stack := r.stack.modify v fun b =>
            { b with status := .paused token, countAtFault := count } }

/-- Advances the branch `v` by its next token. -/
def advance (r : Reader) (l : Language) (s : Source) (v : Nat) : Reader :=
  advanceBy l s v (1000 * (s.size + 10)) (r.stack.nextToken l s v) r

/-- Advances a branch until it has read further than to `last`, or has to stop. -/
def advanceBeyond (l : Language) (s : Source) (v : Nat) : Nat → Nat → Reader → Nat × Reader
  | 0, last, r => (last, r)
  | fuel + 1, last, r =>
    if r.stack.isActive v then
      let r := r.advance l s v
      let place := (r.stack.top v).place
      if last < place || (0 < v && place == last) then (place, r)
      else advanceBeyond l s v fuel last r
    else (last, r)

/-! ## Dropping branches -/

/-- Compares branch `i` with the ones before it. The answer is the number of the branch that comes after
it then. -/
def contend (k : Stack) (l : Language) (s : Source) (i : Nat) : Nat × Stack := Id.run do
  let own := k.standing i
  let mut k := k
  let mut i := i
  let mut j := 0
  for _ in [0:k.branches.size] do
    if i ≤ j then break
    match (k.standing j).compare own with
    | .takeLeft => return (i, k.remove i)
    | .preferLeft | .even =>
      match k.merge? l s j i with
      | some merged => return (i, merged)
      | none => j := j + 1
    | .preferRight =>
      match k.merge? l s j i with
      | some merged => return (i, merged)
      | none =>
        let a := k.branch j
        let b := k.branch i
        k := { k with branches := (k.branches.set! i a).set! j b }
        j := j + 1
    | .takeRight =>
      k := k.remove j
      i := i - 1
  return (i + 1, k)

/-- Drops and merges branches. The answer is the least `cost` of a branch that has its way, if there is one. -/
def sift (k : Stack) (l : Language) (s : Source) : Option Nat × Stack := Id.run do
  let mut k := k.settleCounts
  let mut least : Option Nat := none
  let mut i := 0
  for _ in [0:k.branches.size] do
    if k.branches.size ≤ i then break
    if k.isHalted i then k := k.remove i
    else
      let own := k.standing i
      unless own.lost do least := some (min (least.getD own.cost) own.cost)
      let (next, sifted) := contend k l s i
      k := sifted
      i := next
  return (least, { k with branches := k.branches.extract 0 maxBranches })

/-- Sends a paused branch off its way if no branch before it is left; all other paused ones are dropped. Then `least`
is the least cost. -/
def resume (r : Reader) (l : Language) (s : Source) (least : Option Nat) :
    Option Nat × Reader := Id.run do
  let mut r := r
  let mut least := least
  let mut i := 0
  let mut resumed := false
  let mut n := r.stack.branches.size
  for _ in [0:r.stack.branches.size] do
    if n ≤ i then break
    match (r.stack.branch i).status with
    | .paused token =>
      if !resumed && r.accepted < maxBranches then
        least := some (r.stack.errorCost i)
        let k := r.stack.modify i fun b => { b with status := .active }
        r := { r with stack := k }.loseWay l s i token
        resumed := true
        i := i + 1
      else
        r := { r with stack := r.stack.remove i }
        n := n - 1
    | _ =>
      resumed := true
      i := i + 1
  return (least, r)

/-! ## Rounds -/

/-- Lets each branch advance in turn. -/
def advanceAll (l : Language) (s : Source) : Nat → Nat → Nat → Reader → Nat × Reader
  | 0, _, last, r => (last, r)
  | fuel + 1, v, last, r =>
    if v < r.stack.branches.size then
      let (last, r) := advanceBeyond l s v (1000 * (s.size + 10)) last r
      advanceAll l s fuel (v + 1) last r
    else (last, r)

/-- Reads on in rounds until the finished reading costs less than any branch, or no branch is left. -/
def rounds (l : Language) (s : Source) : Nat → Nat → Reader → Reader
  | 0, _, r => r
  | fuel + 1, last, r =>
    let (last, r) := advanceAll l s 1000 0 last r
    let size := r.stack.branches.size
    let (least, k) := sift r.stack l s
    let (least, r) := resume { r with stack := k } l s least
    let settled := match r.finished, least with
      | some p, some c => p.cost < c
      | some _, none => true
      | none, _ => false
    if settled || size == 0 then r else rounds l s fuel last r

end Reader

/-- What reading a source comes to. -/
structure Reading where
  tree : Tree
  /-- What the faults of the source cost; nothing, if it has none. -/
  cost : Nat

/-- The piece that a whole source is read as, by `rounds`. -/
def whole? (l : Language) (s : Source) : Option Piece :=
  (Reader.rounds l s (1000 * (s.size + 10)) 0 { stack := .initial }).finished

/-- Reads a source: the tree of the piece of `whole?`, and its cost. -/
def read? (l : Language) (s : Source) : Option Reading :=
  (whole? l s).map fun p => ⟨p.toTree l, p.cost⟩

end PayloadAtlas.Python
