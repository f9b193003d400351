import PayloadAtlas.Model
import PayloadAtlas.Python.Literal

/-!
# Definitions

What the classes and functions of a module say, read off its syntax tree. `definitions` finds them,
however deep they are, in the order of the text, each with the decorators written on it.

Of a class the bases, the names of its decorators and the fields assigned in its body count. Of a
function the parameters count that can be given by position or by name, and the decorators that call
an attribute, as `@router.post("/notes")` does: those may declare a route.
-/

namespace PayloadAtlas.Python

open PayloadAtlas.Text

/-- A class as written. -/
structure ClassDefinition where
  name : String
  /-- The positional bases, as written. -/
  bases : List String
  /-- The last names of the decorators. -/
  decorators : List String
  fields : List Field
  /-- The line of the keyword, counted from one. -/
  line : Nat
  deriving DecidableEq, Repr, Inhabited

/-- A decorator that calls an attribute, as in `@app.get("/a")`. -/
structure RouteDecorator where
  /-- The attribute that is called. -/
  callee : String
  /-- The path that is given as a literal. -/
  path : Option String
  deriving DecidableEq, Repr, Inhabited

/-- A parameter as written. -/
structure Parameter where
  name : String
  /-- The annotation; empty if there is none. -/
  declaredType : String
  deriving DecidableEq, Repr, Inhabited

/-- A function with a decorator that calls an attribute. -/
structure FunctionDefinition where
  name : String
  isAsync : Bool
  parameters : List Parameter
  /-- The decorators that call an attribute, top to bottom. -/
  decorators : List RouteDecorator
  /-- The line of the keyword, counted from one. -/
  line : Nat
  deriving DecidableEq, Repr, Inhabited

/-! ## Finding definitions -/

/-- A definition with the decorators written on it. -/
structure Definition where
  tree : Tree
  decorators : List Tree

mutual

/-- The definitions in a tree; `written` are the decorators that stand beside it. -/
def definitions (written : List Tree) : Tree → List Definition
  | .node t cs =>
    let own : List Definition :=
      if t.kind = "class_definition" ∨ t.kind = "function_definition" then
        [⟨.node t cs, written⟩]
      else []
    let below := if t.kind = "decorated_definition" then
        cs.filter fun c => c.tag.named && c.kind == "decorator"
      else []
    own ++ definitionsIn below cs

/-- The definitions in a list of trees. -/
def definitionsIn (written : List Tree) : List Tree → List Definition
  | [] => []
  | c :: cs => definitions written c ++ definitionsIn written cs

end

/-- The text that the tree `t` covers. -/
def textOf (s : Source) (t : Tree) : String := s.slice t.span.start t.span.stop

/-- The line of a tree. -/
def lineOf (s : Source) (t : Tree) : Nat := s.lineOf t.span.start

/-- The tree, if it is of the kind `kind`. -/
def ofKind? (kind : String) (t : Tree) : Option Tree := if t.kind = kind then some t else none

/-! ## Classes -/

namespace ClassDefinition

/-- The last name of a decorator, called or not: `dataclass` in `@dataclasses.dataclass()`. -/
def decoratorName? (s : Source) (decorator : Tree) : Option String := do
  let first ← decorator.namedChildren.head?
  let target ← if first.kind = "call" then first.child? "function" else some first
  match target.kind with
  | "identifier" => some (textOf s target)
  | "attribute" => (target.child? "attribute").map (textOf s)
  | _ => none

/-- The bases of a class. -/
def basesOf (s : Source) (superclasses : Tree) : List String :=
  (superclasses.namedChildren.filter fun t =>
    t.kind ∉ ["keyword_argument", "comment", "list_splat", "dictionary_splat"]).map (textOf s)

mutual

/-- The targets of an assignment and of those nested in its value, and the last value: `a`, `b` and `c` in
`a = b = c`. -/
def chain : Tree → List Tree × Option Tree
  | .node t cs =>
    let left := ((Tree.node t cs).child? "left").toList
    match chainIn cs with
    | some (targets, value) => (left ++ targets, value)
    | none => (left, (Tree.node t cs).child? "right")

/-- The same for the first of some trees that is the value, if that is an assignment. -/
def chainIn : List Tree → Option (List Tree × Option Tree)
  | [] => none
  | c :: cs =>
    if c.tag.field = some "right" then
      if c.kind = "assignment" then some (chain c) else none
    else chainIn cs

end

/-- The fields that a statement assigns: one with an annotation, or each name of a `chain`. -/
def fieldsOf (s : Source) (statement : Tree) : List Field :=
  if statement.kind ≠ "expression_statement" then []
  else
    match statement.namedChildren.head?.bind (ofKind? "assignment") with
    | none => []
    | some assignment =>
      match assignment.child? "type" with
      | some declaredType =>
        match (assignment.child? "left").bind (ofKind? "identifier") with
        | none => []
        | some name =>
          let value := ((assignment.child? "right").map (textOf s)).getD ""
          [⟨textOf s name, textOf s declaredType, value⟩]
      | none =>
        let (targets, value) := chain assignment
        let value := (value.map (textOf s)).getD ""
        (targets.filter (·.kind = "identifier")).map fun t => ⟨textOf s t, "", value⟩

/-- The class that a definition is. -/
def ofDefinition? (s : Source) (d : Definition) : Option ClassDefinition := do
  guard (d.tree.kind = "class_definition")
  let name ← d.tree.child? "name"
  return {
    name := textOf s name
    bases := ((d.tree.child? "superclasses").map (basesOf s)).getD []
    decorators := d.decorators.filterMap (decoratorName? s)
    fields := ((d.tree.child? "body").map fun b => b.namedChildren.flatMap (fieldsOf s)).getD []
    line := lineOf s d.tree }

end ClassDefinition

/-! ## Functions -/

namespace RouteDecorator

/-- What an argument of a decorator says about the path: `path=` or `route=` names it, or a text stands by itself. -/
inductive PathArgument where
  /-- A keyword that names the path, with its text. -/
  | named (text : String)
  /-- A positional argument, with its text. -/
  | positional (text : Option String)
  /-- Anything else. -/
  | other

/-- What an argument says about the path. -/
def pathArgument (s : Source) (argument : Tree) : PathArgument :=
  match argument.kind with
  | "comment" | "dictionary_splat" => .other
  | "keyword_argument" =>
    let key := (argument.child? "name").map (textOf s)
    if key = some "path" ∨ key = some "route" then
      match (argument.child? "value").bind (Literal.ofTree? s) with
      | some text => .named text
      | none => .other
    else .other
  | _ => .positional (Literal.ofTree? s argument)

/-- The path that arguments give; `isFirst` says that no positional argument came before, and `path` is
what was given so far. -/
def pathOf : Bool → Option String → List PathArgument → Option String
  | _, path, [] => path
  | isFirst, path, a :: rest =>
    match a with
    | .named text => pathOf isFirst (some text) rest
    | .positional text => pathOf false (if isFirst then text.or path else path) rest
    | .other => pathOf isFirst path rest

/-- The call of an attribute that a decorator is. -/
def ofTree? (s : Source) (decorator : Tree) : Option RouteDecorator := do
  let call ← decorator.namedChildren.head?.bind (ofKind? "call")
  let function ← (call.child? "function").bind (ofKind? "attribute")
  let callee ← function.child? "attribute"
  let arguments := (((call.child? "arguments").bind (ofKind? "argument_list")).map
    Tree.namedChildren).getD []
  return ⟨textOf s callee, pathOf true none (arguments.map (pathArgument s))⟩

/-- The route that a decorator declares, its method in capitals: its attribute is one of the methods,
whatever the case of their ASCII letters, and its path is not empty. -/
def route? (methods : List String) (d : RouteDecorator) : Option (String × String) := do
  guard (methods.any fun m => m.map Char.toLower = d.callee.map Char.toLower)
  let path ← d.path
  guard (path ≠ "")
  return (d.callee.map Char.toUpper, path)

end RouteDecorator

namespace Parameter

/-- A parameter by the trees of its name and its annotation. -/
def ofTrees? (s : Source) (name declaredType : Option Tree) : Option Parameter := do
  let name ← name.bind (ofKind? "identifier")
  return ⟨textOf s name, (declaredType.map (textOf s)).getD ""⟩

/-- The parameters that can be given by position or by name, after those in `found`. -/
def collect (s : Source) (found : List Parameter) : List Tree → List Parameter
  | [] => found
  | p :: rest =>
    match p.kind with
    | "identifier" => collect s (found ++ (ofTrees? s (some p) none).toList) rest
    | "typed_parameter" =>
      match p.namedChildren.head?.bind (ofKind? "identifier") with
      | none => found
      | some name => collect s (found ++ (ofTrees? s (some name) (p.child? "type")).toList) rest
    | "default_parameter" | "typed_default_parameter" =>
      collect s (found ++ (ofTrees? s (p.child? "name") (p.child? "type")).toList) rest
    | "positional_separator" => collect s [] rest
    | "list_splat_pattern" | "dictionary_splat_pattern" | "keyword_separator" => found
    | _ => collect s found rest

end Parameter

namespace FunctionDefinition

/-- The function that a definition is, if it has a decorator that calls an attribute. -/
def ofDefinition? (s : Source) (d : Definition) : Option FunctionDefinition := do
  guard (d.tree.kind = "function_definition")
  let decorators := d.decorators.filterMap (RouteDecorator.ofTree? s)
  guard (decorators ≠ [])
  let name ← d.tree.child? "name"
  return {
    name := textOf s name
    isAsync := (d.tree.children.head?.map (·.kind)) = some "async"
    parameters :=
      ((d.tree.child? "parameters").map fun p => Parameter.collect s [] p.namedChildren).getD []
    decorators
    line := lineOf s d.tree }

/-- The routes that a function declares, one for each decorator with a `route?`. -/
def routes (methods : List String) (f : FunctionDefinition) : List (String × String) :=
  f.decorators.filterMap (·.route? methods)

end FunctionDefinition

/-! ## Classification -/

/-- Which classes are models validated by a schema library. -/
structure ModelRules where
  /-- Their bases, as written. -/
  schemaBases : List String
  /-- The last names of their decorators. -/
  dataclassMarkers : List String
  deriving DecidableEq, Repr, Inhabited

/-- The kind of model that a class is: a base or a decorator makes it one of a schema library, fields
make it a plain one. -/
def ClassDefinition.kind? (rules : ModelRules) (c : ClassDefinition) : Option ModelKind :=
  if c.bases.any (· ∈ rules.schemaBases) || c.decorators.any (· ∈ rules.dataclassMarkers) then
    some .schema
  else if c.fields.isEmpty then none
  else some .plain

end PayloadAtlas.Python
