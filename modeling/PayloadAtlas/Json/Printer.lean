import PayloadAtlas.Json.Value

/-!
# Writing JSON

A value is written compactly, or over several lines with an indentation of two blanks. Texts escape
quotes, backslashes and control characters, and nothing else.
-/

namespace PayloadAtlas.Json

/-- A hexadecimal digit, from `0` to `f`. -/
def hexDigit (n : Nat) : Char := if n < 10 then Char.ofNat (48 + n) else Char.ofNat (87 + n)

/-- A character inside a text, as in `\n` for a line end. -/
def escapeChar (c : Char) : List Char :=
  match c with
  | '"' => ['\\', '"']
  | '\\' => ['\\', '\\']
  | '\x08' => ['\\', 'b']
  | '\x0c' => ['\\', 'f']
  | '\n' => ['\\', 'n']
  | '\r' => ['\\', 'r']
  | '\t' => ['\\', 't']
  | c =>
    if c.toNat < 32 then ['\\', 'u', '0', '0', hexDigit (c.toNat / 16), hexDigit (c.toNat % 16)]
    else [c]

/-- A text with its quotes, each character by `escapeChar`. -/
def quote (s : String) : String := "\"" ++ String.ofList (s.toList.flatMap escapeChar) ++ "\""

namespace Value

mutual

/-- A value on one line. -/
def compact : Value → String
  | .null => "null"
  | .bool b => if b then "true" else "false"
  | .number n => n.toText
  | .string s => quote s
  | .array xs => "[" ++ ",".intercalate (compactItems xs) ++ "]"
  | .object ms => "\x7b" ++ ",".intercalate (compactMembers ms) ++ "\x7d"

/-- The items of an array. -/
def compactItems : List Value → List String
  | [] => []
  | x :: xs => compact x :: compactItems xs

/-- The members of an object. -/
def compactMembers : List (String × Value) → List String
  | [] => []
  | (k, v) :: rest => (quote k ++ ":" ++ compact v) :: compactMembers rest

end

/-- The beginning of a line at a `depth`, with two blanks for each. -/
def newLine (depth : Nat) : String := "\n" ++ String.ofList (List.replicate (2 * depth) ' ')

/-- Parts between brackets, each on a line of its own at `depth`. -/
def block (opening closing : String) (depth : Nat) (parts : List String) : String :=
  if parts.isEmpty then opening ++ closing
  else
    opening ++ newLine (depth + 1) ++ ("," ++ newLine (depth + 1)).intercalate parts
      ++ newLine depth ++ closing

mutual

/-- A value over several lines, at a depth. -/
def prettyAt (depth : Nat) : Value → String
  | .array xs => block "[" "]" depth (prettyItems (depth + 1) xs)
  | .object ms => block "\x7b" "\x7d" depth (prettyMembers (depth + 1) ms)
  | v => compact v

/-- The items of an array. -/
def prettyItems (depth : Nat) : List Value → List String
  | [] => []
  | x :: xs => prettyAt depth x :: prettyItems depth xs

/-- The members of an object. -/
def prettyMembers (depth : Nat) : List (String × Value) → List String
  | [] => []
  | (k, v) :: rest => (quote k ++ ": " ++ prettyAt depth v) :: prettyMembers depth rest

end

/-- A value over several lines, from depth `0`. -/
def pretty (v : Value) : String := prettyAt 0 v

end Value

end PayloadAtlas.Json
