import PayloadAtlas.Model.Registry
import PayloadAtlas.Python.Module
import PayloadAtlas.Shape.Example

/-!
# Shapes of handlers

From analysed source files to the models that they define and the shapes of the routes that they declare.
Every decorator that declares a route makes a shape, in the order of files, functions and decorators.
-/

namespace PayloadAtlas

open Json (Value)
open Python (ModelRules FunctionDefinition)

/-- A source file that has been read. -/
structure SourceFile where
  /-- The path from the root of the scan. -/
  path : String
  /-- The dotted name of the module. -/
  module : String
  contents : Python.Module
  deriving Inhabited

namespace SourceFile

/-- The models of a file by `rules`, in order. -/
def models (rules : ModelRules) (f : SourceFile) : List Model :=
  f.contents.classes.filterMap fun c =>
    (c.kind? rules).map fun kind => ⟨c.name, f.module, c.fields, kind⟩

end SourceFile

/-- The registry of the models of some files. -/
def Registry.ofFiles (rules : ModelRules) (files : List SourceFile) : Registry :=
  Registry.ofList (files.flatMap (SourceFile.models rules))

namespace Shape

/-- The names `self` and `cls`, by which a method refers to the object or the class that it belongs to. -/
def receivers : List String := ["self", "cls"]

/-- The greatest score. -/
def maxScore : Nat := 10

/-- The score of a shape with so many `parameters`: one more, up to `maxScore`. -/
def scoreOf (parameters : Nat) : Nat := min maxScore (parameters + 1)

/-- What shapes are made with. -/
structure Context where
  registry : Registry
  strategy : ExampleStrategy
  /-- The names of the attributes that declare routes. -/
  methods : List String
  /-- The routes that are listed as registered. -/
  registered : List RegisteredRoute := []

/-- Whether a route is listed as `registered`; the case of the methods in the list does not count. -/
def Context.lists (c : Context) (method path : String) : Bool :=
  c.registered.any fun r => Text.uppercase r.method = method && r.path = path

/-- A parameter with the model that its annotation means in the `module`. -/
def Context.parameter (c : Context) (module : String) (p : Python.Parameter) : HandlerParameter :=
  match c.registry.resolve module p.declaredType with
  | none => { name := p.name, declaredType := p.declaredType }
  | some m =>
    { name := p.name, declaredType := p.declaredType, model := some m.name
      modelFields := some m.fields, example? := some (c.strategy.object m.fields) }

/-- The examples of parameters, each under the parameter's name by `membersOf`; empty ones are left out. -/
def examples (ps : List HandlerParameter) : Members :=
  Value.membersOf (ps.filterMap fun p =>
    match p.example? with
    | some (m :: ms) => some (p.name, .object (m :: ms))
    | _ => none)

/-- The shape of a `route` that the function `f` declares. -/
def Context.shape (c : Context) (file : SourceFile) (f : FunctionDefinition)
    (route : String × String) : Shape :=
  let parameters := (f.parameters.filter (·.name ∉ receivers)).map (c.parameter file.module)
  let found := examples parameters
  { path := route.2, method := route.1, function := f.name, module := file.module
    sourcePath := file.path, parameters, registered := c.lists route.1 route.2
    score := scoreOf parameters.length
    example? := if found.isEmpty then none else some found }

/-- The shapes of `files`: of each function, and of each of its routes. -/
def Context.shapes (c : Context) (files : List SourceFile) : List Shape :=
  files.flatMap fun file => file.contents.functions.flatMap fun f =>
    (f.routes c.methods).map (c.shape file f)

end Shape

end PayloadAtlas
