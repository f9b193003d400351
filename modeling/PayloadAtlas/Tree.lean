/-!
# Concrete syntax trees

A `Tree` is what reading a text yields: every node names the construct that it is, says which field of
its parent it fills, and covers a span of the text. Comments and continued lines are nodes as well,
marked as extra, and may stand between the children of any node. Where the text could not be read the
tree has error nodes, which hold what was skipped, and missing nodes, which stand for a token that
was not there.

`Tree.firstFault` finds the first such node without looking into parts that have none.
-/

namespace PayloadAtlas

/-- A part of a text, in characters from its beginning; the end is not included. -/
structure Span where
  start : Nat
  stop : Nat
  deriving DecidableEq, Repr, Inhabited

/-- What is wrong with a node by itself. -/
inductive Fault where
  | none
  /-- The node stands for a token that the text does not have. -/
  | missing
  /-- The node holds what could not be read. -/
  | error
  deriving DecidableEq, Repr, Inhabited

/-- What a node is, apart from its children. -/
structure Tag where
  /-- The construct: the name of a rule, or the text of a token. -/
  kind : String
  /-- Whether the construct has a name of its own. -/
  named : Bool
  /-- The field of the parent that the node fills. -/
  field : Option String
  span : Span
  /-- Whether the node may stand anywhere, as comments do. -/
  extra : Bool := false
  fault : Fault := .none
  deriving DecidableEq, Repr, Inhabited

/-- A concrete syntax tree. -/
inductive Tree where
  | node (tag : Tag) (children : List Tree)
  deriving Inhabited, Repr

namespace Tree

/-- What the root is. -/
def tag : Tree → Tag
  | .node t _ => t

/-- The children of the root. -/
def children : Tree → List Tree
  | .node _ cs => cs

/-- The construct that the root is. -/
def kind (t : Tree) : String := t.tag.kind

/-- The part of the text that the tree covers. -/
def span (t : Tree) : Span := t.tag.span

/-- Whether the root itself is an error or a missing token. -/
def isFault (t : Tree) : Bool := t.tag.fault != .none

/-- Whether the root is a comment or the like. -/
def isExtra (t : Tree) : Bool := t.tag.extra

/-- The children that have a name of their own. -/
def namedChildren (t : Tree) : List Tree := t.children.filter (·.tag.named)

/-- The first child that fills a field. -/
def child? (t : Tree) (field : String) : Option Tree :=
  t.children.find? (·.tag.field == some field)

mutual

/-- Whether the tree has an error node or a missing node anywhere. -/
def hasFault : Tree → Bool
  | .node t cs => t.fault != .none || anyFault cs

/-- Whether one of the trees has a fault. -/
def anyFault : List Tree → Bool
  | [] => false
  | c :: cs => c.hasFault || anyFault cs

end

mutual

/-- The first error node or missing node in the order of the text, looked for only in children that
have one. -/
def firstFault : Tree → Option Tree
  | .node t cs => if t.fault != .none then some (.node t cs) else firstFaultIn cs

/-- The first error node or missing node of the first tree that has one. -/
def firstFaultIn : List Tree → Option Tree
  | [] => none
  | c :: cs => if c.hasFault then (c.firstFault).or (firstFaultIn cs) else firstFaultIn cs

end

mutual

/-- All nodes, each before its children. -/
def nodes : Tree → List Tree
  | .node t cs => .node t cs :: nodesIn cs

/-- All nodes of the trees in order. -/
def nodesIn : List Tree → List Tree
  | [] => []
  | c :: cs => c.nodes ++ nodesIn cs

end

end Tree

end PayloadAtlas
