import PayloadAtlas.Python.Language
import PayloadAtlas.Tree

/-!
# Pieces

While a source is being read its parts are pieces: tokens, matches of variables, and runs of tokens
that had to be skipped. A piece knows where it lies, what errors in it cost, and the weight that the
grammar gives to it, so that of two readings of the same text the better one can be kept.

`Piece.toTree` turns the piece of a whole source into its tree: hidden pieces lend their children to
the piece around them, and labels and fields are put on.
-/

namespace PayloadAtlas.Python

open PayloadAtlas.Grammar PayloadAtlas.Text

/-- What a piece is. -/
inductive PieceKind where
  /-- A match of a symbol. -/
  | symbol (n : Nat)
  /-- Something that could not be read. -/
  | error
  /-- A run of skipped tokens that may still grow. -/
  | skipped
  deriving DecidableEq, Inhabited

/-- The place of a kind in the order in which readings are preferred; a `symbol` has its number. -/
def PieceKind.rank : PieceKind → Nat
  | .symbol n => n
  | .skipped => 65534
  | .error => 65535

/-- Whether a piece of this kind could not be read. -/
def PieceKind.isFault : PieceKind → Bool
  | .symbol _ => false
  | _ => true

/-- What is known about a piece besides its children. -/
structure Facts where
  kind : PieceKind
  /-- Where the blanks before the piece begin. -/
  origin : Nat
  start : Nat
  stop : Nat
  /-- The row of slots for the children. -/
  shape : Nat := 0
  extra : Bool := false
  missing : Bool := false
  /-- What the errors inside cost. -/
  cost : Nat := 0
  weight : Int := 0
  /-- How many nodes of the tree lie below. -/
  below : Nat := 0
  /-- How many of them are children. -/
  offspring : Nat := 0
  /-- The layout after the last token of the layout scanner. -/
  layout : Option Layout := none
  /-- Whether a token of the layout scanner changed the layout. -/
  changesLayout : Bool := false
  /-- Whether the piece is a word that reads like a keyword. -/
  keyword : Bool := false
  deriving Inhabited

/-- A piece of the source. -/
inductive Piece where
  | mk (facts : Facts) (children : List Piece)
  deriving Inhabited

/-! ## What errors cost -/

/-- An error by itself. -/
def recoveryCost : Nat := 500

/-- A token that is missing. -/
def missingCost : Nat := 110

/-- A node that is skipped. -/
def skippedNodeCost : Nat := 100

/-- A byte that is skipped. -/
def skippedByteCost : Nat := 1

/-- A line that is skipped. -/
def skippedLineCost : Nat := 30

namespace Piece

/-- What is known about the piece itself. -/
def facts : Piece → Facts
  | .mk f _ => f

/-- The parts of the piece. -/
def children : Piece → List Piece
  | .mk _ cs => cs

/-- What the errors in the piece cost, its own absence, as `missingCost`, included. -/
def cost (p : Piece) : Nat :=
  if p.facts.missing then missingCost + recoveryCost else p.facts.cost

/-- Whether the piece is a node of the tree. -/
def isShown (l : Language) (p : Piece) : Bool :=
  match p.facts.kind with
  | .symbol n => l.shown.getD n false
  | .error => true
  | .skipped => false

/-- The slots of the parts, by `shapes` of the automaton; what could not be read has none. -/
def slots (l : Language) (p : Piece) : Array Slot :=
  if p.facts.kind.isFault then #[] else l.automaton.shapes.getD p.facts.shape #[]

/-- The number of bytes from the blanks before the piece, its `origin`, to its end. -/
def totalBytes (s : Source) (p : Piece) : Nat := s.byteAt p.facts.stop - s.byteAt p.facts.origin

/-- The number of lines from the blanks before the piece, its `origin`, to its end. -/
def totalRows (s : Source) (p : Piece) : Nat := s.rowAt p.facts.stop - s.rowAt p.facts.origin

/-- The number of nodes, and of ends of `skipped` runs, that the piece adds to what has been read. -/
def count (l : Language) (p : Piece) : Nat :=
  p.facts.below + (if p.isShown l then 1 else 0) + (if p.facts.kind == .skipped then 1 else 0)

/-- The piece as something that may stand anywhere, if `extra`, or not. -/
def setExtra (p : Piece) (extra : Bool) : Piece := .mk { p.facts with extra } p.children

/-- Takes one more part into account. `i` counts the parts that fill slots. -/
def absorb (l : Language) (slots : Array Slot) (fault : Bool) :
    Facts × Nat → Piece → Facts × Nat
  | (f, i), c =>
    let grand := !c.children.isEmpty
    let own := if c.facts.kind == .skipped then 0 else c.cost
    let penalty :=
      if fault && !c.facts.extra && !(c.facts.kind == .error && !grand) then
        if c.isShown l then skippedNodeCost
        else if grand then skippedNodeCost * c.facts.offspring else 0
      else 0
    let labelled := !c.facts.extra && (slots.getD i (none, none)).1.isSome
    let node := labelled || c.isShown l
    ({ f with
        stop := c.facts.stop
        cost := f.cost + own + penalty
        weight := f.weight + c.facts.weight
        below := f.below + c.facts.below + (if node then 1 else 0)
        offspring := f.offspring + (if node then 1 else c.facts.offspring)
        layout := c.facts.layout.or f.layout
        changesLayout := f.changesLayout || c.facts.changesLayout },
      if c.facts.extra then i else i + 1)

/-- A piece made of parts; one without parts lies at `place`. -/
def join (l : Language) (s : Source) (kind : PieceKind) (shape : Nat) (place : Nat)
    (children : List Piece) : Piece :=
  let origin := (children.head?.map (·.facts.origin)).getD place
  let start := (children.head?.map (·.facts.start)).getD place
  let slots := l.automaton.shapes.getD shape #[]
  let empty : Facts := { kind, origin, start, stop := start, shape }
  let (f, _) := children.foldl (absorb l slots kind.isFault) (empty, 0)
  let extent :=
    if kind.isFault then
      recoveryCost + skippedByteCost * (s.byteAt f.stop - s.byteAt f.start)
        + skippedLineCost * (s.rowAt f.stop - s.rowAt f.start)
    else 0
  .mk { f with cost := f.cost + extent } children

mutual

/-- Orders pieces by their kinds, then by their number of parts, then by their parts. -/
def compare : Piece → Piece → Ordering
  | .mk f cs, .mk g ds =>
    (Ord.compare f.kind.rank g.kind.rank).then
      ((Ord.compare cs.length ds.length).then (compareAll cs ds))

/-- Orders lists of pieces by the first difference. -/
def compareAll : List Piece → List Piece → Ordering
  | c :: cs, d :: ds => (compare c d).then (compareAll cs ds)
  | _, _ => .eq

end

/-- Whether the second of two readings `a` and `b` of the same text is to be kept. -/
def secondIsBetter (a b : Piece) : Bool :=
  if b.cost < a.cost then true
  else if a.cost < b.cost then false
  else if a.facts.weight < b.facts.weight then true
  else if b.facts.weight < a.facts.weight then false
  else if 0 < a.cost then true
  else compare a b == .gt

/-- Whether the pieces `a` and `b` between the same places are as good as one another. -/
def equivalent (s : Source) (a b : Piece) : Bool :=
  a.facts.kind == b.facts.kind &&
    ((0 < a.cost && 0 < b.cost) ||
      (s.byteAt a.facts.start - s.byteAt a.facts.origin
          == s.byteAt b.facts.start - s.byteAt b.facts.origin
        && s.byteAt a.facts.stop - s.byteAt a.facts.start
          == s.byteAt b.facts.stop - s.byteAt b.facts.start
        && a.children.length == b.children.length && a.facts.extra == b.facts.extra
        && a.facts.layout == b.facts.layout))

/-- Parts without the extras at their end, and those extras. -/
def splitExtras (children : List Piece) : List Piece × List Piece :=
  let extras := (children.reverse.takeWhile (·.facts.extra)).reverse
  (children.take (children.length - extras.length), extras)

/-! ## Trees -/

/-- The tag of a piece under `label`. -/
def tag (l : Language) (p : Piece) (label : Option Label) (field : Option String) : Tag :=
  let f := p.facts
  let (kind, named) := match f.kind, label with
    | .symbol _, some x => (x.text, x.named)
    | .symbol n, none =>
      let v := l.automaton.vocabulary
      let named := match v.terminal? n with
        | some t => t.named
        | none => true
      (v.nameOf n, named)
    | _, _ => ("ERROR", true)
  { kind, named, field, span := ⟨f.start, f.stop⟩, extra := f.extra
    fault := if f.kind == .error then .error else if f.missing then .missing else .none }

/-- The tree with `field`, unless it has one already. -/
def withField (field : Option String) : Tree → Tree
  | .node t cs => .node { t with field := t.field.or field } cs

mutual

/-- The nodes of a piece that has `label` and `field`: one node, or the nodes of its parts. -/
def trees (l : Language) (label : Option Label) (field : Option String) : Piece → List Tree
  | .mk f cs =>
    let p : Piece := .mk f cs
    let below := treesOfAll l (p.slots l) 0 cs
    if label.isSome || p.isShown l then [.node (p.tag l label field) below]
    else below.map (withField field)

/-- The nodes of parts; `i` counts the parts that fill slots. -/
def treesOfAll (l : Language) (slots : Array Slot) (i : Nat) : List Piece → List Tree
  | [] => []
  | c :: cs =>
    if c.facts.extra then trees l none none c ++ treesOfAll l slots i cs
    else
      let slot := slots.getD i (none, none)
      trees l slot.1 slot.2 c ++ treesOfAll l slots (i + 1) cs

end

/-- The tree of the piece of a whole source, which is a node in any case. -/
def toTree (l : Language) (p : Piece) : Tree :=
  .node (p.tag l none none) (treesOfAll l (p.slots l) 0 p.children)

end Piece

end PayloadAtlas.Python
