import PayloadAtlas.Shape

/-!
# Drift

How the shapes of one scan differ from those of the one before. Shapes are matched by identity; of several
with one identity the last counts. A shape that came or went is named by its route, and by its handler
too where the route has several; one that says something else about its parameters is named by both.
-/

namespace PayloadAtlas

/-- The differences between two lists of shapes. -/
structure Drift where
  added : List String := []
  removed : List String := []
  changed : List String := []
  deriving DecidableEq, Repr, Inhabited

namespace Drift

/-- Whether nothing differs. -/
def isEmpty (d : Drift) : Bool := d.added.isEmpty && d.removed.isEmpty && d.changed.isEmpty

/-- The lists with their titles. -/
def sections (d : Drift) : List (String × List String) :=
  [("Added", d.added), ("Removed", d.removed), ("Changed", d.changed)]

/-- The shape of an `identity`: the last one. -/
def lookup (shapes : List Shape) (identity : String) : Option Shape :=
  shapes.reverse.find? (·.identity = identity)

/-- The shapes that count: the last one of each `identity`. -/
def latest : List Shape → List Shape
  | [] => []
  | s :: rest => if rest.any (·.identity = s.identity) then latest rest else s :: latest rest

/-- Whether the route of `s` has several handlers among `shapes`. -/
def isShared (shapes : List Shape) (s : Shape) : Bool :=
  shapes.any fun t => t.routeLabel = s.routeLabel && t.function ≠ s.function

/-- The name of a shape that came or went: its `handlerLabel` if the route is shared, and else its `routeLabel`. -/
def label (shapes : List Shape) (s : Shape) : String :=
  if isShared shapes s then s.handlerLabel else s.routeLabel

/-- The names of the shapes on the side `here` whose identity is not on the side `there`. -/
def only (all here there : List Shape) : List String :=
  Text.sorted ((here.filter fun s => (lookup there s.identity).isNone).map (label all))

/-- Whether a shape has another `signature` than the earlier one of its identity. -/
def hasChanged (previous : List Shape) (s : Shape) : Bool :=
  match lookup previous s.identity with
  | some old => old.signature ≠ s.signature
  | none => false

/-- How `current` differs from `previous`. -/
def between (previous current : List Shape) : Drift :=
  let before := latest previous
  let now := latest current
  let all := before ++ now
  { added := only all now before
    removed := only all before now
    changed := Text.sorted ((now.filter (hasChanged before)).map Shape.handlerLabel) }

end Drift

end PayloadAtlas
