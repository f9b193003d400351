import PayloadAtlas.Json.Decode
import PayloadAtlas.Json.Printer
import PayloadAtlas.Rest.Url
import PayloadAtlas.Store.Session
import PayloadAtlas.Text.Space

/-!
# A store behind an address

A store that is asked by requests: each call becomes a request, and what comes back becomes the answer. How
a request is sent is not part of it.
-/

namespace PayloadAtlas

open Json (Value Decoder)

/-- A client of a store. -/
structure RestClient where
  /-- The address that all others begin with; it ends with no slash. -/
  baseUrl : String
  key : String
  deriving DecidableEq, Repr, Inhabited

/-- The methods of requests. -/
inductive Method where
  | get
  | post
  deriving DecidableEq, Repr, Inhabited

/-- The name of a method. -/
def Method.name : Method → String
  | .get => "GET"
  | .post => "POST"

/-- What is sent to a store. -/
structure Request where
  method : Method
  url : Url
  headers : List (String × String)
  body : Option String
  deriving Inhabited

/-- What comes back. -/
structure Reply where
  status : Nat
  body : List UInt8
  deriving Inhabited

namespace RestClient

/-! ## Clients -/

/-- A text without the `/` at its end. -/
def trimSlashes (s : String) : String :=
  String.ofList (s.toList.reverse.dropWhile (· == '/')).reverse

/-- A client for the address `url` and a `key`, neither of which may be empty. -/
def ofAddress (url key : String) : Except StoreError RestClient :=
  let baseUrl := trimSlashes url
  if baseUrl = "" then .error (.config "store URL is empty")
  else if key = "" then .error (.config "store key is empty")
  else .ok ⟨baseUrl, key⟩

/-- A text without the blanks around it, if anything is left. -/
def given? (s : Option String) : Option String :=
  (s.map Text.trim).bind fun t => if t = "" then none else some t

/-- A client for an address and a key; `none`, if one of them is missing or blank. -/
def ofCredentials (url key : Option String) : Except StoreError (Option RestClient) :=
  match given? url, given? key with
  | some u, some k => (ofAddress u k).map some
  | _, _ => .ok none

/-! ## Requests -/

/-- The address of a table, below `/rest/v1/`. -/
def tableAddress (c : RestClient) (t : Table) : String := c.baseUrl ++ "/rest/v1/" ++ t.name

/-- The address of a procedure, below `/rest/v1/rpc/`. -/
def procedureAddress (c : RestClient) (name : String) : String :=
  c.baseUrl ++ "/rest/v1/rpc/" ++ name

/-- Whether a text can be the value of a header: it has no control characters but the tab. -/
def isHeaderValue (s : String) : Bool :=
  (Text.bytesOf s).all fun b => b = 9 || (0x20 ≤ b && b != 0x7F)

/-- The header `name` for the schema of a table. -/
def profile (name : String) (t : Table) : List (String × String) :=
  match t.schema with
  | some schema => [(name, schema)]
  | none => []

/-- The headers of every request: `apikey` and `authorization`. -/
def credentials (c : RestClient) : List (String × String) :=
  [("apikey", c.key), ("authorization", "Bearer " ++ c.key)]

/-- The header of a request with a body. -/
def bodyType : String × String := ("content-type", "application/json")

/-- A request to an address; `none`, if it is no address or a header cannot be sent. -/
def request? (c : RestClient) (method : Method) (address : String)
    (fields headers : List (String × String)) (body : Option String) : Option Request := do
  let url ← Url.ofString? address
  let headers := c.credentials ++ headers
  if headers.all fun h => isHeaderValue h.2 then
    some { method, url := if fields.isEmpty then url else url.addFields fields, headers, body }
  else none

/-- The request of a call. -/
def requestOf? (c : RestClient) : Call → Option Request
  | .rpc name =>
    c.request? .post (c.procedureAddress name) [] [bodyType] (some (Value.object []).compact)
  | .select t columns limit =>
    c.request? .get (c.tableAddress t) [("select", columns), ("limit", toString limit)]
      (profile "accept-profile" t) none
  | .upsert t row onConflict =>
    c.request? .post (c.tableAddress t) [("on_conflict", onConflict)]
      (("prefer", "resolution=merge-duplicates,return=representation") :: bodyType ::
        profile "content-profile" t) (some row.compact)
  | .insert t row =>
    c.request? .post (c.tableAddress t) []
      (("prefer", "return=minimal") :: bodyType :: profile "content-profile" t) (some row.compact)

/-! ## Answers -/

/-- Whether a reply with this status has no body. -/
def isBodiless (status : Nat) : Bool := status = 101 || status = 204 || status = 304

/-- Whether a status, one of `1xx`, only announces another reply. -/
def isInterim (status : Nat) : Bool := 100 ≤ status && status < 200 && status != 101

/-- The data of a body: a value, if it is one, and `null` if it is blank. -/
def dataOf (body : List UInt8) : Value :=
  let text := Text.lossy body
  if Text.trim text = "" then .null
  else
    match Decoder.ofText Decoder.value text with
    | .ok v => v
    | .error _ => .string text

/-- The answer that a reply is. -/
def answerOf (r : Reply) : Answer :=
  if isInterim r.status then .error (.transport "no reply came")
  else .ok ⟨r.status, if isBodiless r.status then .null else dataOf r.body⟩

/-- How requests are sent: what comes back, if anything does, and the state after it. -/
abbrev Sender (σ : Type) := Request → σ → Option Reply × σ

/-- Answers a call by the reply to its `requestOf?`, which `send` gets. -/
def answer {σ : Type} (c : RestClient) (send : Sender σ) (call : Call) (s : σ) : Answer × σ :=
  match c.requestOf? call with
  | none => (.error (.transport "the request cannot be sent"), s)
  | some r =>
    match send r s with
    | (none, s) => (.error (.transport "no reply came"), s)
    | (some reply, s) => (answerOf reply, s)

end RestClient

end PayloadAtlas
