import PayloadAtlas.Json.Value
import PayloadAtlas.Model
import PayloadAtlas.Text.Order

/-!
# Payload shapes

The shape of a route: its method and path, the function that handles it, and the parameters that the
function takes, as far as their annotations name models. A shape is told from others by method, path and
function (`Shape.identity`); what it says about its parameters is its `Shape.signature`.
-/

namespace PayloadAtlas

/-- The members of a JSON object. -/
abbrev Members := List (String × Json.Value)

/-- A parameter of a handler. -/
structure HandlerParameter where
  name : String := ""
  /-- The annotation as written; empty if there is none. -/
  declaredType : String := ""
  /-- The name of the model that the annotation means. -/
  model : Option String := none
  modelFields : Option (List Field) := none
  /-- An example of the model. -/
  example? : Option Members := none
  deriving Inhabited

/-- The shape of a route. -/
structure Shape where
  path : String := ""
  /-- The method, in capitals. -/
  method : String := ""
  /-- The name of the handler. -/
  function : String := ""
  module : String := ""
  /-- The path of the source file. -/
  sourcePath : String := ""
  parameters : List HandlerParameter := []
  /-- Whether the route is listed as registered. -/
  registered : Bool := false
  /-- How much the shape says, from one to ten. -/
  score : Nat := 0
  /-- Examples of the parameters that have models. -/
  example? : Option Members := none
  deriving Inhabited

/-- A route that is listed as registered. -/
structure RegisteredRoute where
  file : String := ""
  method : String := ""
  path : String := ""
  deriving DecidableEq, Repr, Inhabited

namespace HandlerParameter

/-- What a signature says about the parameter itself: its name and its `declaredType`, or else its `model`. -/
def token (p : HandlerParameter) : String :=
  let kind :=
    if p.declaredType ≠ "" then p.declaredType
    else
      match p.model with
      | some m => if m = "" then "any" else m
      | none => "any"
  p.name ++ ":" ++ kind

/-- What a signature says about the fields of the parameter's model, each as `parameter.field:type`. -/
def fieldTokens (p : HandlerParameter) : List String :=
  (p.modelFields.getD []).map fun f => p.name ++ "." ++ f.name ++ ":" ++ f.typeText

end HandlerParameter

namespace Shape

/-- The text that tells a shape from others, as in `GET /a::handler`. -/
def identity (s : Shape) : String := s.method ++ " " ++ s.path ++ "::" ++ s.function

/-- The name of the route, as in `GET /a`. -/
def routeLabel (s : Shape) : String := s.method ++ " " ++ s.path

/-- The name of the route with its handler, as in `GET /a → handler`. -/
def handlerLabel (s : Shape) : String := s.method ++ " " ++ s.path ++ " → " ++ s.function

/-- What the shape says about its parameters, a `sortedSet` without order and repetition. -/
def signature (s : Shape) : List String :=
  Text.sortedSet (s.parameters.map HandlerParameter.token
    ++ s.parameters.flatMap HandlerParameter.fieldTokens)

end Shape

end PayloadAtlas
