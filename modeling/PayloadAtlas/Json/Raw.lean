import PayloadAtlas.Json.Value

/-!
# Reading JSON

`Document.read` reads any text as far as it is JSON. What comes of it keeps all that the text says,
repeated keys and pairs of surrogates among it, and where the text goes wrong, says so in place. Whoever
makes something of it meets the flaws in the order of the text: `Raw.toValue` makes a value,
`Raw.flaw?` only looks for flaws.
-/

namespace PayloadAtlas.Json

/-- What is wrong at a place. -/
inductive Flaw where
  /-- The text ends too early. -/
  | ended
  /-- The text is no JSON there. -/
  | malformed
  /-- The value is not of the kind that is asked for. -/
  | mismatched
  deriving DecidableEq, Repr, Inhabited

/-- The text of a flaw. -/
def Flaw.message : Flaw → String
  | .ended => "the text ends too early"
  | .malformed => "the text is malformed"
  | .mismatched => "a value is not of the kind that is asked for"

/-- A part of a text in quotes. -/
inductive Part where
  | char (c : Char)
  /-- A unit of UTF-16, given by its number. -/
  | unit (n : Nat)
  deriving DecidableEq, Repr, Inhabited

/-- A text in quotes, up to its end or up to a flaw. -/
structure Quoted where
  parts : List Part
  flaw : Option Flaw := none
  deriving DecidableEq, Repr, Inhabited

/-- What a text says, as far as it is JSON. -/
inductive Raw where
  | null
  | bool (b : Bool)
  /-- A number; none if it is too large. -/
  | number (n : Option Number)
  | string (s : Quoted)
  /-- The items, and the flaw that comes in place of the closing bracket. -/
  | array (items : List Raw) (flaw : Option Flaw)
  | object (entries : List (Quoted × Raw)) (flaw : Option Flaw)
  /-- No value: the flaw for one who wants the value, and for one who does not. -/
  | broken (flaw skipped : Flaw)
  deriving Inhabited

/-- Whether a character may stand between the parts of a value. -/
def isBlank (c : Char) : Bool := c == ' ' || c == '\n' || c == '\t' || c == '\r'

/-- The text without the blanks at its beginning, by `isBlank`. -/
def skipBlanks (cs : List Char) : List Char := cs.dropWhile isBlank

/-! ## Texts in quotes -/

/-- The value of a hexadecimal digit. -/
def hexValue? (c : Char) : Option Nat :=
  if c.isDigit then some (c.toNat - 48)
  else if 'a' ≤ c ∧ c ≤ 'f' then some (c.toNat - 87)
  else if 'A' ≤ c ∧ c ≤ 'F' then some (c.toNat - 55)
  else none

/-- The number that four hexadecimal digits write, as after `\u`, and the text after them. -/
def readUnit (cs : List Char) : Except Flaw (Nat × List Char) :=
  match cs with
  | a :: b :: c :: d :: rest =>
    match hexValue? a, hexValue? b, hexValue? c, hexValue? d with
    | some a, some b, some c, some d => .ok (4096 * a + 256 * b + 16 * c + d, rest)
    | _, _, _, _ => .error .malformed
  | _ => .error (if cs.foldl (fun n c => n + c.utf8Size) 0 < 4 then .ended else .malformed)

/-- The character that a letter after a backslash stands for, as `n` does for a line end. -/
def escaped? : Char → Option Char
  | '"' => some '"'
  | '\\' => some '\\'
  | '/' => some '/'
  | 'b' => some '\x08'
  | 'f' => some '\x0c'
  | 'n' => some '\n'
  | 'r' => some '\r'
  | 't' => some '\t'
  | _ => none

/-- Reads a text up to its closing quote; `done` holds the parts so far, the last one first. The rest of
the text is given if there is no flaw. -/
def readQuoted (done : List Part) : Nat → List Char → Quoted × Option (List Char)
  | 0, _ => (⟨done.reverse, some .malformed⟩, none)
  | _ + 1, [] => (⟨done.reverse, some .ended⟩, none)
  | fuel + 1, c :: rest =>
    if c = '"' then (⟨done.reverse, none⟩, some rest)
    else if c = '\\' then
      match rest with
      | [] => (⟨done.reverse, some .ended⟩, none)
      | e :: rest =>
        if e = 'u' then
          match readUnit rest with
          | .ok (n, rest) => readQuoted (.unit n :: done) fuel rest
          | .error f => (⟨done.reverse, some f⟩, none)
        else
          match escaped? e with
          | some d => readQuoted (.char d :: done) fuel rest
          | none => (⟨done.reverse, some .malformed⟩, none)
    else if c.toNat < 32 then (⟨done.reverse, some .malformed⟩, none)
    else readQuoted (.char c :: done) fuel rest

/-- Whether a unit is the first of a pair, from `0xD800` on. -/
def isLeading (n : Nat) : Bool := 0xD800 ≤ n && n < 0xDC00

/-- Whether a unit is the second of a pair, from `0xDC00` on. -/
def isTrailing (n : Nat) : Bool := 0xDC00 ≤ n && n < 0xE000

/-- The characters of parts, with the pairs of units put together; `done` holds the characters so far,
the last one first. -/
def joinParts (flaw : Option Flaw) (done : List Char) : List Part → Except Flaw (List Char)
  | [] =>
    match flaw with
    | none => .ok done.reverse
    | some f => .error f
  | .char c :: rest => joinParts flaw (c :: done) rest
  | .unit n :: rest =>
    if isTrailing n then .error .malformed
    else if isLeading n then
      match rest with
      | .unit m :: rest =>
        if isTrailing m then
          joinParts flaw (Char.ofNat (0x10000 + 1024 * (n - 0xD800) + (m - 0xDC00)) :: done) rest
        else .error .malformed
      | [] => .error (if flaw = some .ended then .ended else .malformed)
      | .char _ :: _ => .error .malformed
    else joinParts flaw (Char.ofNat n :: done) rest

/-- The text between the quotes. -/
def Quoted.toText (q : Quoted) : Except Flaw String :=
  (joinParts q.flaw [] q.parts).map String.ofList

/-! ## Numbers -/

/-- The digits at the beginning of `cs`, and the rest. -/
def readDigits (cs : List Char) : List Char × List Char := cs.span Char.isDigit

/-- What is wrong where a digit should be; one who does not want the number does not ask why. -/
def noDigit (cs : List Char) : Raw × Option (List Char) :=
  (.broken (if cs.isEmpty then .ended else .malformed) .malformed, none)

/-- Reads the exponent of the number `n`, if it has one. -/
def readExponent (n : NumberLiteral) (cs : List Char) : Raw × Option (List Char) :=
  match cs with
  | [] => (.number (Number.ofLiteral? n), some [])
  | e :: rest =>
    if e = 'e' ∨ e = 'E' then
      let (down, rest) := match rest with
        | '+' :: r => (false, r)
        | '-' :: r => (true, r)
        | r => (false, r)
      match readDigits rest with
      | ([], rest) => noDigit rest
      | (digits, rest) => (.number (Number.ofLiteral? { n with exponent := some (down, digits) }), some rest)
    else (.number (Number.ofLiteral? n), some (e :: rest))

/-- Reads a number after its sign. -/
def readNumber (negative : Bool) (cs : List Char) : Raw × Option (List Char) :=
  match readDigits cs with
  | ([], rest) => noDigit rest
  | (whole, rest) =>
    if whole.head? = some '0' ∧ 1 < whole.length then (.broken .malformed .malformed, none)
    else
      match rest with
      | '.' :: rest =>
        match readDigits rest with
        | ([], rest) => noDigit rest
        | (fraction, rest) => readExponent { negative, whole, fraction := some fraction } rest
      | rest => readExponent { negative, whole } rest

/-! ## Values -/

/-- Reads a fixed `word`, such as `null`, which is then the value `s`. -/
def readWord (word : List Char) (s : Raw) : List Char → Raw × Option (List Char)
  | [] => if word.isEmpty then (s, some []) else (.broken .ended .ended, none)
  | c :: cs =>
    match word with
    | [] => (s, some (c :: cs))
    | w :: word => if c = w then readWord word s cs else (.broken .malformed .malformed, none)

mutual

/-- Reads a value. The rest of the text is given if there is no flaw. -/
def readValue : Nat → List Char → Raw × Option (List Char)
  | 0, _ => (.broken .malformed .malformed, none)
  | fuel + 1, cs =>
    match skipBlanks cs with
    | [] => (.broken .ended .ended, none)
    | c :: rest =>
      match c with
      | 'n' => readWord "ull".toList .null rest
      | 't' => readWord "rue".toList (.bool true) rest
      | 'f' => readWord "alse".toList (.bool false) rest
      | '"' =>
        let (q, rest) := readQuoted [] (rest.length + 1) rest
        (.string q, rest)
      | '[' => readItems fuel [] rest
      | '\x7b' => readEntries fuel [] rest
      | '-' => readNumber true rest
      | c => if c.isDigit then readNumber false (c :: rest) else (.broken .malformed .malformed, none)

/-- Reads the items of an array; `done` holds those so far, the last one first. -/
def readItems : Nat → List Raw → List Char → Raw × Option (List Char)
  | 0, done, _ => (.array done.reverse (some .malformed), none)
  | fuel + 1, done, cs =>
    match skipBlanks cs with
    | [] => (.array done.reverse (some .ended), none)
    | ']' :: rest => (.array done.reverse none, some rest)
    | c :: rest =>
      if done.isEmpty then readItem fuel done (c :: rest)
      else if c = ',' then
        match skipBlanks rest with
        | [] => (.array (.broken .ended .ended :: done).reverse none, none)
        | ']' :: _ => (.array (.broken .malformed .malformed :: done).reverse none, none)
        | rest => readItem fuel done rest
      else (.array done.reverse (some .malformed), none)

/-- Reads one item of an array, and the items after it. -/
def readItem : Nat → List Raw → List Char → Raw × Option (List Char)
  | 0, done, _ => (.array done.reverse (some .malformed), none)
  | fuel + 1, done, cs =>
    match readValue fuel cs with
    | (x, some rest) => readItems fuel (x :: done) rest
    | (x, none) => (.array (x :: done).reverse none, none)

/-- Reads the entries of an object; `done` holds those so far, the last one first. -/
def readEntries : Nat → List (Quoted × Raw) → List Char → Raw × Option (List Char)
  | 0, done, _ => (.object done.reverse (some .malformed), none)
  | fuel + 1, done, cs =>
    match skipBlanks cs with
    | [] => (.object done.reverse (some .ended), none)
    | '\x7d' :: rest => (.object done.reverse none, some rest)
    | '"' :: rest =>
      if done.isEmpty then readEntry fuel done rest
      else (.object done.reverse (some .malformed), none)
    | ',' :: rest =>
      if done.isEmpty then (.object done.reverse (some .malformed), none)
      else
        match skipBlanks rest with
        | [] => (.object done.reverse (some .ended), none)
        | '"' :: rest => readEntry fuel done rest
        | _ => (.object done.reverse (some .malformed), none)
    | _ => (.object done.reverse (some .malformed), none)

/-- Reads one entry of an object after the quote of its key, and the entries after it. -/
def readEntry : Nat → List (Quoted × Raw) → List Char → Raw × Option (List Char)
  | 0, done, _ => (.object done.reverse (some .malformed), none)
  | fuel + 1, done, cs =>
    match readQuoted [] (cs.length + 1) cs with
    | (key, none) => (.object ((key, .broken .malformed .malformed) :: done).reverse none, none)
    | (key, some rest) =>
      match skipBlanks rest with
      | [] => (.object ((key, .broken .ended .ended) :: done).reverse none, none)
      | ':' :: rest =>
        match readValue fuel rest with
        | (x, some rest) => readEntries fuel ((key, x) :: done) rest
        | (x, none) => (.object ((key, x) :: done).reverse none, none)
      | _ => (.object ((key, .broken .malformed .malformed) :: done).reverse none, none)

end

/-- A text as JSON, and whether something else follows it. -/
structure Document where
  root : Raw
  trailing : Bool
  deriving Inhabited

/-- Reads a text. -/
def Document.read (text : String) : Document :=
  let cs := text.toList
  match readValue (2 * cs.length + 2) cs with
  | (s, some rest) => ⟨s, !(skipBlanks rest).isEmpty⟩
  | (s, none) => ⟨s, false⟩

namespace Raw

mutual

/-- The first flaw, for one who does not want the value. -/
def flaw? : Raw → Option Flaw
  | .string q => q.flaw
  | .array xs flaw => (flawIn xs).or flaw
  | .object es flaw => (flawAmong es).or flaw
  | .broken _ skipped => some skipped
  | _ => none

/-- The first flaw of a list. -/
def flawIn : List Raw → Option Flaw
  | [] => none
  | x :: xs => (flaw? x).or (flawIn xs)

/-- The first flaw of some entries. -/
def flawAmong : List (Quoted × Raw) → Option Flaw
  | [] => none
  | (k, x) :: rest => (k.flaw.or (flaw? x)).or (flawAmong rest)

end

/-- The flaw in place of a closing bracket, if there is one, and else `a`. -/
def closed (flaw : Option Flaw) {α : Type} (a : α) : Except Flaw α :=
  match flaw with
  | none => .ok a
  | some f => .error f

mutual

/-- The value; `depth` is how deep arrays and objects may nest. -/
def toValue (depth : Nat) : Raw → Except Flaw Value
  | .null => .ok .null
  | .bool b => .ok (.bool b)
  | .number (some n) => .ok (.number n)
  | .number none => .error .malformed
  | .string q => q.toText.map .string
  | .array xs flaw =>
    match depth with
    | 0 => .error .malformed
    | d + 1 => do closed flaw (.array (← toValues d xs))
  | .object es flaw =>
    match depth with
    | 0 => .error .malformed
    | d + 1 => do closed flaw (.object (Value.membersOf (← toMembers d es)))
  | .broken flaw _ => .error flaw

/-- The values of a list. -/
def toValues (depth : Nat) : List Raw → Except Flaw (List Value)
  | [] => .ok []
  | x :: xs => do return (← toValue depth x) :: (← toValues depth xs)

/-- The members of entries, repeated keys included. -/
def toMembers (depth : Nat) : List (Quoted × Raw) → Except Flaw (List (String × Value))
  | [] => .ok []
  | (k, x) :: rest => do
    let key ← k.toText
    let v ← toValue depth x
    return (key, v) :: (← toMembers depth rest)

end

/-- A text as it is read. -/
def quoted (s : String) : Quoted := ⟨s.toList.map .char, none⟩

mutual

/-- A value as it is read. -/
def ofValue : Value → Raw
  | .null => .null
  | .bool b => .bool b
  | .number n => .number (some n)
  | .string s => .string (quoted s)
  | .array xs => .array (ofValues xs) none
  | .object ms => .object (ofMembers ms) none

/-- Values as they are read. -/
def ofValues : List Value → List Raw
  | [] => []
  | x :: xs => ofValue x :: ofValues xs

/-- Members as they are read. -/
def ofMembers : List (String × Value) → List (Quoted × Raw)
  | [] => []
  | (k, v) :: rest => (quoted k, ofValue v) :: ofMembers rest

end

end Raw

end PayloadAtlas.Json
