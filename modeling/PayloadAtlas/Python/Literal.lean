import PayloadAtlas.Text.Source
import PayloadAtlas.Tree

/-!
# String literals

The text that a string literal stands for. Raw strings stand for what is between their quotes; in
others a backslash may begin an escape (`Literal.escape?`), and is an ordinary character where it does
not. Byte strings and format strings stand for no text, and neither does a concatenation that has one.
-/

namespace PayloadAtlas.Python.Literal

open PayloadAtlas.Text

/-- What the characters after a backslash stand for. -/
structure Escape where
  /-- The character; a line end stands for none. -/
  value : Option Char
  /-- How many characters take part. -/
  width : Nat
  deriving DecidableEq, Repr

/-- The value of a hexadecimal digit. -/
def hexValue? (c : Char) : Option Nat :=
  if '0' ≤ c ∧ c ≤ '9' then some (c.toNat - '0'.toNat)
  else if 'a' ≤ c ∧ c ≤ 'f' then some (c.toNat - 'a'.toNat + 10)
  else if 'A' ≤ c ∧ c ≤ 'F' then some (c.toNat - 'A'.toNat + 10)
  else none

/-- The value of an octal digit. -/
def octalValue? (c : Char) : Option Nat :=
  if '0' ≤ c ∧ c ≤ '7' then some (c.toNat - '0'.toNat) else none

/-- The number that `width` hexadecimal digits write. -/
def hexNumber? (width : Nat) (cs : List Char) : Option Nat :=
  if cs.length < width then none
  else (cs.take width).foldlM (fun n c => (hexValue? c).map (16 * n + ·)) 0

/-- The character of a number, unless it is out of range or a surrogate. -/
def scalar? (n : Nat) : Option Char := if n.isValidChar then some (Char.ofNat n) else none

/-- The octal digits at the beginning, three at most, as a number with their count. -/
def octalNumber (cs : List Char) : Nat × Nat :=
  let digits := ((cs.take 3).map octalValue?).takeWhile Option.isSome |>.filterMap id
  (digits.foldl (fun n d => 8 * n + d) 0, digits.length)

/-- A character given by its number in hexadecimal digits, as many as `width`. -/
def hexEscape? (width : Nat) (cs : List Char) : Option Escape :=
  ((hexNumber? width cs).bind scalar?).map fun c => ⟨some c, width + 1⟩

/-- The escape that the characters after a backslash make, if they make one, as `n` and `x41` do. -/
def escape? : List Char → Option Escape
  | [] => none
  | c :: rest =>
    match c with
    | '\\' | '\'' | '"' => some ⟨some c, 1⟩
    | 'n' => some ⟨some '\n', 1⟩
    | 't' => some ⟨some '\t', 1⟩
    | 'r' => some ⟨some '\r', 1⟩
    | 'a' => some ⟨some '\x07', 1⟩
    | 'b' => some ⟨some '\x08', 1⟩
    | 'f' => some ⟨some '\x0c', 1⟩
    | 'v' => some ⟨some '\x0b', 1⟩
    | '\n' => some ⟨none, 1⟩
    | 'x' => hexEscape? 2 rest
    | 'u' => hexEscape? 4 rest
    | 'U' => hexEscape? 8 rest
    | _ =>
      let (n, width) := octalNumber (c :: rest)
      if width = 0 then none else some ⟨scalar? n, width⟩

/-- Decodes the escapes in a text, each by `escape?`; a backslash that begins none stays. -/
def unescape : List Char → List Char
  | [] => []
  | c :: rest =>
    if c = '\\' then
      match escape? rest with
      | some e => e.value.toList ++ unescape (rest.drop e.width)
      | none => c :: unescape rest
    else c :: unescape rest
termination_by cs => cs.length
decreasing_by all_goals simp only [List.length_cons, List.length_drop]; omega

/-- The letters before the quotes of a string, in lower case, such as `rb`. -/
def letters (opener : List Char) : List Char :=
  (opener.reverse.dropWhile fun c => c = '"' ∨ c = '\'').reverse.map Char.toLower

/-- The text of a single string `t`, unless it has other parts than text or is one of bytes. -/
def single? (s : Source) (t : Tree) : Option String := do
  guard (t.kind = "string")
  let opening ← t.children.head?
  guard (opening.kind = "string_start")
  let closing ← t.children.getLast?
  guard (closing.kind = "string_end")
  let flags := letters (s.slice opening.span.start opening.span.stop).toList
  guard ('f' ∉ flags ∧ 'b' ∉ flags)
  let body := s.slice opening.span.stop closing.span.start
  return if 'r' ∈ flags then body else String.ofList (unescape body.toList)

/-- The text that the tree `t` stands for, if it is a literal of plain strings. -/
def ofTree? (s : Source) (t : Tree) : Option String :=
  match t.kind with
  | "string" => single? s t
  | "concatenated_string" => (t.namedChildren.mapM (single? s)).map String.join
  | _ => none

end PayloadAtlas.Python.Literal
