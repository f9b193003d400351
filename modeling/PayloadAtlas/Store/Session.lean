import PayloadAtlas.Json.Value
import PayloadAtlas.Store.Table

/-!
# Talking to a store

A `Session` is a conversation with a store: it asks one thing after the other, each in view of the answers
before, and comes to a result. What answers is not part of it; `Session.run` lets a store answer whose
answers may depend on its state, and `Session.calls` notes what was asked.
-/

namespace PayloadAtlas

open Json (Value)

/-- What can be asked of a store. -/
inductive Call where
  /-- Calls a procedure. -/
  | rpc (name : String)
  /-- Reads columns of some rows of a table. -/
  | select (table : Table) (columns : String) (limit : Nat)
  /-- Puts a row in the place of the one with the same value in a column. -/
  | upsert (table : Table) (row : Value) (onConflict : String)
  /-- Adds a row. -/
  | insert (table : Table) (row : Value)
  deriving Inhabited

/-- What a store says. -/
structure Response where
  status : Nat
  data : Value
  deriving Inhabited

namespace Response

/-- Whether the `status` is one of success: below 400. -/
def isSuccess (r : Response) : Bool := r.status < 400

/-- The rows that were answered: the items of an array, and no others. -/
def rows (r : Response) : List Value :=
  match r.data with
  | .array xs => xs
  | _ => []

end Response

/-- Why a store does not answer. -/
inductive StoreError where
  /-- The request or the response got lost; the cause lies outside. -/
  | transport (cause : String)
  | config (message : String)
  | unavailable (message : String)
  deriving DecidableEq, Repr, Inhabited

/-- The text of an error. -/
def StoreError.message : StoreError → String
  | .transport cause => "store request failed: " ++ cause
  | .config message => "invalid store configuration: " ++ message
  | .unavailable message => "store unavailable: " ++ message

/-- What comes of a call. -/
abbrev Answer := Except StoreError Response

/-- The response of a call that succeeded, by `isSuccess`. -/
def Answer.success? : Answer → Option Response
  | .ok r => if r.isSuccess then some r else none
  | .error _ => none

/-- Whether a call succeeded, so that there is a `success?`. -/
def Answer.succeeded (a : Answer) : Bool := a.success?.isSome

/-- A conversation with a store. -/
inductive Session (α : Type) where
  | done (result : α)
  | ask (call : Call) (next : Answer → Session α)
  /-- Looks at the clock. -/
  | clock (next : String → Session α)

namespace Session

variable {α β σ : Type}

/-- One conversation after another, which goes on with what `k` makes of the first one's result. -/
def andThen : Session α → (α → Session β) → Session β
  | .done a, k => k a
  | .ask c next, k => .ask c fun a => (next a).andThen k
  | .clock next, k => .clock fun t => (next t).andThen k

instance : Monad Session where
  pure := .done
  bind := andThen

/-- A single call, which the conversation ends with. -/
def call (c : Call) : Session Answer := .ask c .done

/-- The time. -/
def now : Session String := .clock .done

/-- What a store and a clock do, in a state of type `σ`. -/
structure World (σ : Type) where
  answer : Call → σ → Answer × σ
  time : σ → String

/-- Lets the world `w` answer. -/
def run (w : World σ) : Session α → σ → α × σ
  | .done a, s => (a, s)
  | .ask c next, s => run w (next (w.answer c s).1) (w.answer c s).2
  | .clock next, s => run w (next (w.time s)) s

/-- What is asked of the world `w`, in order. -/
def calls (w : World σ) : Session α → σ → List Call
  | .done _, _ => []
  | .ask c next, s => c :: calls w (next (w.answer c s).1) (w.answer c s).2
  | .clock next, s => calls w (next (w.time s)) s

end Session

end PayloadAtlas
