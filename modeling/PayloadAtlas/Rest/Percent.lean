import PayloadAtlas.Text.Utf8

/-!
# Percent encoding

A text written with a percent sign and two hexadecimal digits for each byte of UTF-8 that may not stand for
itself. Which bytes may depends on the place: in a path, in a query, or in a field of a form.
-/

namespace PayloadAtlas.Percent

/-- A digit of base sixteen. -/
def hexDigit (n : Nat) : Char := Char.ofNat (if n < 10 then 48 + n else 55 + n)

/-- A byte that may not stand for itself: `%` and two digits. -/
def escape (b : UInt8) : List Char := ['%', hexDigit (b.toNat / 16), hexDigit (b.toNat % 16)]

/-- Whether a byte is a printable character of ASCII, or a space. -/
def isPlain (b : UInt8) : Bool := 0x20 ≤ b && b < 0x7F

/-- Whether a byte is one of the characters `cs`. -/
def isOneOf (cs : List Char) (b : UInt8) : Bool := Char.ofNat b.toNat ∈ cs

/-- Whether a byte stands for itself in a path. -/
def inPath (b : UInt8) : Bool :=
  isPlain b && !isOneOf [' ', '"', '#', '<', '>', '?', '^', '\x60', '\x7b', '\x7d'] b

/-- Whether a byte stands for itself in a query. -/
def inQuery (b : UInt8) : Bool := isPlain b && !isOneOf [' ', '"', '#', '<', '>', '\''] b

/-- Whether a byte stands for itself in a field of a form. -/
def inForm (b : UInt8) : Bool :=
  let c := Char.ofNat b.toNat
  isPlain b && (c.isAlphanum || isOneOf ['*', '-', '.', '_'] b)

/-- The bytes of a text, those that may not stand for themselves by `keeps` escaped. -/
def encode (keeps : UInt8 → Bool) (cs : List Char) : List Char :=
  (Text.bytesOf (String.ofList cs)).flatMap fun b =>
    if keeps b then [Char.ofNat b.toNat] else escape b

/-- A field of a form: a space is written as `+`. -/
def formField (s : String) : List Char :=
  (Text.bytesOf s).flatMap fun b =>
    if b = 0x20 then ['+'] else if inForm b then [Char.ofNat b.toNat] else escape b

/-- Fields of a form with their values, as in `a=1&b=2`. -/
def form (fields : List (String × String)) : List Char :=
  ['&'].intercalate (fields.map fun (k, v) => formField k ++ '=' :: formField v)

end PayloadAtlas.Percent
