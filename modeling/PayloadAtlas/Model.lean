/-!
# Models

A model is a class of the scanned sources that says what data looks like: its name, the module that it
is in, and its fields as they are written. It is either validated by a schema library or holds data
plainly.
-/

namespace PayloadAtlas

/-- How a class came to be a model. -/
inductive ModelKind where
  /-- It has the base or the decorator of a schema library. -/
  | schema
  /-- It has fields, and that is all. -/
  | plain
  deriving DecidableEq, Repr, Inhabited

/-- The name of a kind. -/
def ModelKind.label : ModelKind → String
  | .schema => "schema"
  | .plain => "plain"

/-- A field of a class, as written: `name: type = default`. -/
structure Field where
  name : String := ""
  /-- The annotation; empty if there is none. -/
  typeText : String := ""
  /-- The value; empty if there is none. -/
  defaultText : String := ""
  deriving DecidableEq, Repr, Inhabited

/-- A class that says what data looks like. -/
structure Model where
  name : String
  /-- The dotted path of the module. -/
  module : String
  /-- The fields in the order of their declarations. -/
  fields : List Field
  kind : ModelKind
  deriving DecidableEq, Repr, Inhabited

end PayloadAtlas
