/-!
# Texts within texts

Whether a text begins with another one, or has it in it.
-/

namespace PayloadAtlas.Text

/-- Whether a text begins with another one. -/
def beginsWith : List Char → List Char → Bool
  | _, [] => true
  | [], _ :: _ => false
  | c :: cs, d :: ds => c == d && beginsWith cs ds

/-- Whether a text has another one in it. -/
def hasPart (needle : List Char) : List Char → Bool
  | [] => needle.isEmpty
  | c :: cs => beginsWith (c :: cs) needle || hasPart needle cs

end PayloadAtlas.Text
