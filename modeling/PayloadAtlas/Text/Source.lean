/-!
# Texts with lines

A `Source` is a text that is read by the character and reported on by line and column. Columns count
the bytes of the text's UTF-8 form.
-/

namespace PayloadAtlas.Text

/-- The number of bytes of the first characters: entry `i` is the offset of character `i`. -/
def offsets (step : Char → Nat) (chars : Array Char) : Array Nat :=
  (chars.foldl (fun (out, n) c => let m := n + step c; (out.push m, m)) (#[0], 0)).1

/-- A text with the byte offset and the line of each character. -/
structure Source where
  chars : Array Char
  /-- The byte offset of each character, and of the end. -/
  bytes : Array Nat
  /-- The number of line ends before each character, and before the end. -/
  rows : Array Nat
  deriving Inhabited

namespace Source

/-- A text as a source. -/
def ofString (s : String) : Source :=
  let chars := s.toList.toArray
  { chars, bytes := offsets Char.utf8Size chars
    rows := offsets (fun c => if c == '\n' then 1 else 0) chars }

/-- The number of characters. -/
def size (s : Source) : Nat := s.chars.size

/-- The character at a place, or a NUL at the end. -/
def at? (s : Source) (i : Nat) : Char := s.chars.getD i '\x00'

/-- The byte offset of a place. -/
def byteAt (s : Source) (i : Nat) : Nat := s.bytes.getD i 0

/-- The number of line ends before a place. -/
def rowAt (s : Source) (i : Nat) : Nat := s.rows.getD i 0

/-- The text between two places. -/
def slice (s : Source) (start stop : Nat) : String :=
  String.ofList (s.chars.extract start stop).toList

/-- The place after the last line end before a place. -/
def lineStart (s : Source) : Nat → Nat
  | 0 => 0
  | i + 1 => if s.at? i == '\n' then i + 1 else lineStart s i

/-- The line of a place, counted from one. -/
def lineOf (s : Source) (i : Nat) : Nat := s.rowAt i + 1

/-- The column of a place in bytes, counted from one. -/
def columnOf (s : Source) (i : Nat) : Nat := s.byteAt i - s.byteAt (s.lineStart i) + 1

end Source

end PayloadAtlas.Text
