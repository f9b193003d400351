import PayloadAtlas.Rest.Client

/-!
# Requests and replies on the wire

A request as the bytes that are sent over a connection used for it alone, and a reply read from all the bytes
that came back until the connection was closed.
-/

namespace PayloadAtlas

/-- The end of a line. -/
def lineEnd : String := "\r\n"

/-- A request as it is sent. -/
def Request.toWire (r : Request) : ByteArray :=
  let body := (r.body.getD "").toUTF8
  let headers := ("host", r.url.host ++ ":" ++ toString r.url.port) :: r.headers
    ++ (if r.body.isSome then [("content-length", toString body.size)] else [])
  let head := r.method.name ++ " " ++ r.url.target ++ " HTTP/1.0" ++ lineEnd
    ++ String.join (headers.map fun (k, v) => k ++ ": " ++ v ++ lineEnd) ++ lineEnd
  head.toUTF8 ++ body

namespace Reply

/-- What follows the first empty line. -/
def afterHead : List UInt8 → List UInt8
  | 13 :: 10 :: 13 :: 10 :: rest => rest
  | _ :: rest => afterHead rest
  | [] => []

/-- The number that the second word of a line is, as in `HTTP/1.1 200 OK`. -/
def statusOf? (line : List Char) : Option Nat :=
  let digits := ((line.dropWhile (· != ' ')).drop 1).takeWhile Char.isDigit
  if digits.length = 3 then
    some (digits.foldl (fun n c => n * 10 + (c.toNat - 48)) 0)
  else none

/-- The reply that some bytes are. -/
def ofWire? (bytes : List UInt8) : Option Reply :=
  let line := (bytes.takeWhile (· != 13)).map fun b => Char.ofNat b.toNat
  (statusOf? line).map fun status => ⟨status, afterHead bytes⟩

end Reply

end PayloadAtlas
