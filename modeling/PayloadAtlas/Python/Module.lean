import PayloadAtlas.Python.Definition
import PayloadAtlas.Python.Reader

/-!
# Modules

A source as what it defines. A source with a fault anywhere is rejected as a whole, with the position
of the first fault in the order of the text.
-/

namespace PayloadAtlas.Python

open PayloadAtlas.Text

/-- Why a source has no module. -/
inductive SyntaxError where
  /-- The grammar could not be loaded. -/
  | noGrammar
  /-- The reader came to no tree. -/
  | noTree
  /-- The first fault is at a line and a column, both counted from one. -/
  | fault (line column : Nat)
  deriving DecidableEq, Repr, Inhabited

/-- The text of an error. -/
def SyntaxError.message : SyntaxError → String
  | .noGrammar => "failed to set Python language"
  | .noTree => "failed to parse source code"
  | .fault line column => s!"syntax error at line {line}, column {column}"

/-- What a source defines, in the order of the text. -/
structure Module where
  classes : List ClassDefinition
  /-- The functions with a decorator that calls an attribute. -/
  functions : List FunctionDefinition
  deriving DecidableEq, Repr, Inhabited

namespace Module

/-- The module of a tree. -/
def ofTree (s : Source) (t : Tree) : Module :=
  let found := definitions [] t
  { classes := found.filterMap (ClassDefinition.ofDefinition? s)
    functions := found.filterMap (FunctionDefinition.ofDefinition? s) }

/-- The position of the `firstFault` of a tree, or the very beginning. -/
def faultPosition (s : Source) (t : Tree) : SyntaxError :=
  match t.firstFault with
  | some f => .fault (s.lineOf f.span.start) (s.columnOf f.span.start)
  | none => .fault 1 1

/-- The module that a text is. -/
def ofString (text : String) : Except SyntaxError Module :=
  let s := Source.ofString text
  match read? language s with
  | none => .error .noTree
  | some r => if r.cost = 0 then .ok (ofTree s r.tree) else .error (faultPosition s r.tree)

end Module

end PayloadAtlas.Python
