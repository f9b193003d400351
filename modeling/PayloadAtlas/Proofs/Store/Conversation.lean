import Mathlib.Data.List.Basic
import PayloadAtlas.Store.Session

/-!
# How conversations go

`Session.exchanges` notes what is asked of a world together with what is answered. Both it and `Session.run`
go through a conversation in the same way, so that one law for each way of building a conversation says all
that is needed: a part after another starts in the state that the first one left (`run_bind`,
`exchanges_bind`).

`Parallel` compares two conversations, each with a world of its own. They start in related states, and may
ask different things as far as a *view* of their calls does not show it. Such comparisons are put together as
the conversations are (`Parallel.bind`).
-/

namespace PayloadAtlas.Session

/-- A call and what was answered. -/
abbrev Exchange := Call × Answer

variable {α β γ δ σ τ : Type}

/-- What is asked of a world and what it answers, in order. -/
def exchanges (w : World σ) : Session α → σ → List Exchange
  | .done _, _ => []
  | .ask c next, s => (c, (w.answer c s).1) :: exchanges w (next (w.answer c s).1) (w.answer c s).2
  | .clock next, s => exchanges w (next (w.time s)) s

theorem map_fst_exchanges (w : World σ) (x : Session α) (s : σ) :
    (exchanges w x s).map Prod.fst = calls w x s := by
  induction x generalizing s with
  | done a => rfl
  | ask c next ih => simp only [exchanges, calls, List.map_cons, ih]
  | clock next ih => simp only [exchanges, calls, ih]

/-! ## One part after another -/

section Laws

variable (w : World σ) (s : σ)

@[simp] theorem run_pure (a : α) : (pure a : Session α).run w s = (a, s) := rfl

@[simp] theorem exchanges_pure (a : α) : exchanges w (pure a : Session α) s = [] := rfl

@[simp] theorem run_call (c : Call) : (call c).run w s = w.answer c s := rfl

@[simp] theorem exchanges_call (c : Call) : exchanges w (call c) s = [(c, (w.answer c s).1)] := rfl

@[simp] theorem run_now : now.run w s = (w.time s, s) := rfl

@[simp] theorem exchanges_now : exchanges w now s = [] := rfl

/-- A part goes on by `run` from where the part before it left the world. -/
@[simp] theorem run_bind (x : Session α) (k : α → Session β) :
    (x >>= k).run w s = (k (x.run w s).1).run w (x.run w s).2 := by
  show (x.andThen k).run w s = _
  induction x generalizing s with
  | done a => rfl
  | ask c next ih => exact ih _ _
  | clock next ih => exact ih _ _

/-- What is said in two parts is said one after the other, in `exchanges`. -/
@[simp] theorem exchanges_bind (x : Session α) (k : α → Session β) :
    exchanges w (x >>= k) s =
      exchanges w x s ++ exchanges w (k (x.run w s).1) (x.run w s).2 := by
  show exchanges w (x.andThen k) s = _
  induction x generalizing s with
  | done a => rfl
  | ask c next ih => exact congrArg ((c, (w.answer c s).1) :: ·) (ih _ _)
  | clock next ih => exact ih _ _

end Laws

theorem calls_bind (w : World σ) (s : σ) (x : Session α) (k : α → Session β) :
    calls w (x >>= k) s = calls w x s ++ calls w (k (x.run w s).1) (x.run w s).2 := by
  simp only [← map_fst_exchanges, exchanges_bind, List.map_append]

/-! ## Two conversations side by side -/

/-- From states related by `R`, two conversations show the same calls through a view, come to results
related by `Q`, and end in states related by `R'`. -/
def Parallel (w : World σ) (v : World τ) (view : Call → Option Call) (R : σ → τ → Prop)
    (x : Session α) (y : Session β) (Q : α → β → Prop) (R' : σ → τ → Prop) : Prop :=
  ∀ s t, R s t →
    (calls w x s).filterMap view = (calls v y t).filterMap view ∧
      Q (x.run w s).1 (y.run v t).1 ∧ R' (x.run w s).2 (y.run v t).2

namespace Parallel

variable {w : World σ} {v : World τ} {view : Call → Option Call} {R R' R'' : σ → τ → Prop}
  {x : Session α} {y : Session β} {Q : α → β → Prop}

theorem done {a : α} {b : β} (h : Q a b) : Parallel w v view R (pure a) (pure b) Q R :=
  fun _ _ hst => ⟨rfl, h, hst⟩

/-- One part after another goes side by side if both do. -/
theorem bind {k : α → Session γ} {l : β → Session δ} {P : γ → δ → Prop}
    (hxy : Parallel w v view R x y Q R')
    (hkl : ∀ a b, Q a b → Parallel w v view R' (k a) (l b) P R'') :
    Parallel w v view R (x >>= k) (y >>= l) P R'' := by
  intro s t hst
  obtain ⟨hcalls, hq, hst'⟩ := hxy s t hst
  obtain ⟨hcalls', hp, hst''⟩ := hkl _ _ hq _ _ hst'
  refine ⟨?_, ?_, ?_⟩
  · rw [calls_bind, calls_bind, List.filterMap_append, List.filterMap_append, hcalls, hcalls']
  · rw [run_bind, run_bind]
    exact hp
  · rw [run_bind, run_bind]
    exact hst''

theorem clock : Parallel w v view R now now (fun _ _ => True) R :=
  fun _ _ hst => ⟨rfl, trivial, hst⟩

/-- Two calls go side by side if the `view` takes them for the same. -/
theorem ask {c d : Call} {Q : Answer → Answer → Prop} (hview : view c = view d)
    (h : ∀ s t, R s t →
      Q (w.answer c s).1 (v.answer d t).1 ∧ R' (w.answer c s).2 (v.answer d t).2) :
    Parallel w v view R (call c) (call d) Q R' := by
  intro s t hst
  refine ⟨?_, h s t hst⟩
  show [c].filterMap view = [d].filterMap view
  simp only [List.filterMap_cons, List.filterMap_nil, hview]

end Parallel

end PayloadAtlas.Session
