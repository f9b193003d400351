import Mathlib.Data.List.Basic
import Mathlib.Logic.Function.Basic
import PayloadAtlas.Proofs.Store.Conversation

/-!
# Conversations at the same time

Several conversations go on with one store at the same time. The store answers one call after the other, and
it is open whose call comes next: a *schedule* says whose turn it is, and what the clock shows at that turn.
`Talks.follow` lets conversations go on by a schedule. As a part of a schedule is a schedule, what holds after
every schedule holds at every point.

`Asks` says of all calls that a conversation may come to, whatever is answered, what they are like. What every
such call keeps, any number of conversations keep together (`Talks.follow_induction`).
-/

namespace PayloadAtlas.Session

variable {ι α β σ : Type}

/-! ## What a conversation may ask -/

/-- Whatever a conversation is answered, all that it asks has `P`. -/
def Asks (P : Call → Prop) : Session α → Prop
  | .done _ => True
  | .ask c next => P c ∧ ∀ a, Asks P (next a)
  | .clock next => ∀ time, Asks P (next time)

namespace Asks

variable {P : Call → Prop}

theorem pure (a : α) : Asks P (Pure.pure a : Session α) := trivial

theorem call {c : Call} (h : P c) : Asks P (Session.call c) := ⟨h, fun _ => trivial⟩

theorem now : Asks P Session.now := fun _ => trivial

/-- A conversation in two parts asks what its parts ask. -/
theorem bind {x : Session α} {k : α → Session β} (hx : Asks P x) (hk : ∀ a, Asks P (k a)) :
    Asks P (x >>= k) := by
  show Asks P (x.andThen k)
  induction x with
  | done a => exact hk a
  | ask c next ih => exact ⟨hx.1, fun a => ih a (hx.2 a)⟩
  | clock next ih => exact fun time => ih time (hx time)

end Asks

/-! ## Several conversations -/

/-- Several conversations with one store: how each of them goes on, the state of the store, and what was asked
and answered so far. -/
structure Talks (ι α σ : Type) where
  parties : ι → Session α
  state : σ
  log : List Exchange := []

namespace Talks

variable [DecidableEq ι] (answer : Call → σ → Answer × σ)

/-- A conversation goes on by one call, or by one look at the clock; one that is over does not. -/
def turn (t : Talks ι α σ) (i : ι) (time : String) : Talks ι α σ :=
  match t.parties i with
  | .done _ => t
  | .ask c next =>
    { parties := Function.update t.parties i (next (answer c t.state).1)
      state := (answer c t.state).2
      log := t.log ++ [(c, (answer c t.state).1)] }
  | .clock next => { t with parties := Function.update t.parties i (next time) }

/-- The conversations take their turns by the `schedule`. -/
def follow (schedule : List (ι × String)) (t : Talks ι α σ) : Talks ι α σ :=
  schedule.foldl (fun t (i, time) => t.turn answer i time) t

variable {answer} {P : Call → Prop} {t : Talks ι α σ}

/-- The other conversations stay as they were. -/
theorem asks_update {parties : ι → Session α} {i : ι} {x : Session α} (h : ∀ j, Asks P (parties j))
    (hx : Asks P x) (j : ι) : Asks P (Function.update parties i x j) := by
  rw [Function.update_apply]
  split
  · exact hx
  · exact h j

/-- A turn leaves to each conversation the rest of what it may ask. -/
theorem asks_turn (h : ∀ j, Asks P (t.parties j)) (i : ι) (time : String) (j : ι) :
    Asks P ((t.turn answer i time).parties j) := by
  -- only the conversation whose turn it is has changed, and goes on as its own `Asks` says
  have hi := h i
  rw [turn]
  cases hparty : t.parties i with
  | done a => exact h j
  | ask c next =>
    rw [hparty] at hi
    exact asks_update h (hi.2 _) j
  | clock next =>
    rw [hparty] at hi
    exact asks_update h (hi time) j

/-- A turn does nothing to the store, or one call that has `P`. -/
theorem turn_cases (answer : Call → σ → Answer × σ) (h : ∀ j, Asks P (t.parties j)) (i : ι) (time : String) :
    ((t.turn answer i time).state = t.state ∧ (t.turn answer i time).log = t.log) ∨
      ∃ c, P c ∧ (t.turn answer i time).state = (answer c t.state).2 ∧
        (t.turn answer i time).log = t.log ++ [(c, (answer c t.state).1)] := by
  have hi := h i
  rw [turn]
  cases hparty : t.parties i with
  | done a => exact .inl ⟨rfl, rfl⟩
  | ask c next =>
    rw [hparty] at hi
    exact .inr ⟨c, hi.1, rfl, rfl⟩
  | clock next => exact .inl ⟨rfl, rfl⟩

/-- What each call with `P` keeps, the conversations keep by any schedule. -/
theorem follow_induction {I : List Exchange → σ → Prop} (hasks : ∀ i, Asks P (t.parties i))
    (hstart : I t.log t.state)
    (hcall : ∀ log s c, P c → I log s → I (log ++ [(c, (answer c s).1)]) (answer c s).2)
    (schedule : List (ι × String)) : I (t.follow answer schedule).log (t.follow answer schedule).state := by
  induction schedule generalizing t with
  | nil => exact hstart
  | cons turn rest ih =>
    obtain ⟨i, time⟩ := turn
    refine ih (asks_turn hasks i time) ?_
    rcases turn_cases answer hasks i time with ⟨hstate, hlog⟩ | ⟨c, hc, hstate, hlog⟩
    · rw [hstate, hlog]
      exact hstart
    · rw [hstate, hlog]
      exact hcall _ _ c hc hstart

end Talks

end PayloadAtlas.Session
