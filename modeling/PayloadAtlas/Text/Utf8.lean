/-!
# Bytes as text

`lossy` reads any bytes as text. Where they are no UTF-8, each longest start of a character that is not
gone on with, and else each single byte, becomes the replacement character.
-/

namespace PayloadAtlas.Text

/-- The bytes of a text. -/
def bytesOf (s : String) : List UInt8 := s.toUTF8.data.toList

/-- The text that some bytes are. -/
def ofBytes? (bytes : List UInt8) : Option String := String.fromUTF8? ⟨bytes.toArray⟩

namespace Lossy

/-- What stands for bytes that are no text. -/
def replacement : Char := '\ufffd'

/-- Whether a byte lies between two others. -/
def within (low high b : UInt8) : Bool := low ≤ b && b ≤ high

/-- The bounds of the byte after a first byte, and the number of bytes after that one. -/
def form? (b : UInt8) : Option (UInt8 × UInt8 × Nat) :=
  if within 0xC2 0xDF b then some (0x80, 0xBF, 0)
  else if b = 0xE0 then some (0xA0, 0xBF, 1)
  else if b = 0xED then some (0x80, 0x9F, 1)
  else if within 0xE1 0xEF b then some (0x80, 0xBF, 1)
  else if b = 0xF0 then some (0x90, 0xBF, 2)
  else if within 0xF1 0xF3 b then some (0x80, 0xBF, 2)
  else if b = 0xF4 then some (0x80, 0x8F, 2)
  else none

/-- The part of a first byte that belongs to the character. -/
def leadValue (b : UInt8) : Nat :=
  if b < 0xE0 then b.toNat - 0xC0 else if b < 0xF0 then b.toNat - 0xE0 else b.toNat - 0xF0

/-- Where the reading of a character stands. -/
inductive State where
  | start
  /-- The value so far, the bounds of the next byte, and how many bytes follow it. -/
  | inside (value : Nat) (low high : UInt8) (more : Nat)

/-- Begins a character. -/
def begin (b : UInt8) : State × List Char :=
  if b < 0x80 then (.start, [Char.ofNat b.toNat])
  else
    match form? b with
    | some (low, high, more) => (.inside (leadValue b) low high more, [])
    | none => (.start, [replacement])

/-- Reads a byte. -/
def step (b : UInt8) : State → State × List Char
  | .start => begin b
  | .inside value low high more =>
    if within low high b then
      let value := value * 64 + (b.toNat - 0x80)
      match more with
      | 0 => (.start, [Char.ofNat value])
      | n + 1 => (.inside value 0x80 0xBF n, [])
    else ((begin b).1, replacement :: (begin b).2)

/-- Reads all bytes; `rev` are the characters so far, the last one first. -/
def readAll : List UInt8 → State → List Char → List Char
  | [], .start, rev => rev
  | [], .inside .., rev => replacement :: rev
  | b :: bs, s, rev => readAll bs (step b s).1 ((step b s).2.reverse ++ rev)

end Lossy

/-- Bytes as text, whatever they are. -/
def lossy (bytes : List UInt8) : String :=
  match ofBytes? bytes with
  | some s => s
  | none => String.ofList (Lossy.readAll bytes .start []).reverse

end PayloadAtlas.Text
