import Mathlib.Data.List.Basic

/-!
# Loops

What holds before a loop, and still holds wherever a run of its body ends, holds after the loop: for a property
that does not depend on what is left to go through (`forIn_list_keeps`, `forIn_array_keeps`, `forIn_range_keeps`),
and for one that does (`forIn_list_leads`, `forIn_range_leads`).
-/

namespace PayloadAtlas.Loop

variable {α β : Type}

/-- A property `q` of what comes after a step, from one of what the step gives. -/
theorem bind_run {x : Id α} {f : α → Id β} {p : α → Prop} {q : β → Prop} (hx : p x.run)
    (hf : ∀ a, p a → q (f a).run) : q (x >>= f).run :=
  hf x.run hx

/-- A property of the first of the things that a loop changes. -/
def First (p : α → Prop) (x : α × β) : Prop := p x.1

/-- Where a run of the body ends: with `going` if the loop goes on, with `stopped` if it stops. -/
def Leads (going stopped : β → Prop) : ForInStep β → Prop
  | .yield b => going b
  | .done b => stopped b

/-- A loop over a list, along what is left of the list: `going` holds of it and of what the loop has made. -/
theorem forIn_list_leads {xs : List α} {init : β} {body : α → β → Id (ForInStep β)} (going : List α → β → Prop)
    {q : β → Prop} (hinit : going xs init)
    (hstep : ∀ x rest b, going (x :: rest) b → Leads (going rest) q (body x b).run)
    (hend : ∀ b, going [] b → q b) : q (forIn xs init body).run := by
  induction xs generalizing init with
  | nil => exact hend init hinit
  | cons x xs ih =>
    have hbody := hstep x xs init hinit
    rw [List.forIn_cons]
    show q (match (body x init).run with | .done b => pure b | .yield b => forIn xs b body : Id β).run
    cases h : (body x init).run with
    | done b => exact (h ▸ hbody : Leads (going xs) q (.done b))
    | yield b => exact ih (h ▸ hbody : Leads (going xs) q (.yield b))

/-- A loop over a list keeps the property `p` that each run of its body keeps. -/
theorem forIn_list_keeps {xs : List α} {init : β} {body : α → β → Id (ForInStep β)} {p : β → Prop}
    (hinit : p init) (hstep : ∀ x ∈ xs, ∀ b, p b → Leads p p (body x b).run) :
    p (forIn xs init body).run := by
  refine forIn_list_leads (fun rest b => rest ⊆ xs ∧ p b) ⟨fun _ h => h, hinit⟩ ?_ fun b h => h.2
  intro x rest b ⟨hsub, hb⟩
  have hbody := hstep x (hsub List.mem_cons_self) b hb
  cases h : (body x b).run with
  | done c => exact (h ▸ hbody : Leads p p (.done c))
  | yield c => exact ⟨fun y hy => hsub (List.mem_cons_of_mem x hy), (h ▸ hbody : Leads p p (.yield c))⟩

/-- A loop over an array keeps the property `p` that each run of its body keeps. -/
theorem forIn_array_keeps {xs : Array α} {init : β} {body : α → β → Id (ForInStep β)} {p : β → Prop}
    (hinit : p init) (hstep : ∀ x ∈ xs, ∀ b, p b → Leads p p (body x b).run) :
    p (forIn xs init body).run := by
  rw [← Array.forIn_toList]
  exact forIn_list_keeps hinit fun x hx => hstep x (Array.mem_toList_iff.mp hx)

/-- A loop over the numbers below `n`, along these numbers. -/
theorem forIn_range_leads {n : Nat} {init : β} {body : Nat → β → Id (ForInStep β)} (p : Nat → β → Prop)
    {q : β → Prop} (hinit : p 0 init) (hstep : ∀ i, i < n → ∀ b, p i b → Leads (p (i + 1)) q (body i b).run)
    (hend : ∀ b, p n b → q b) : q (forIn [0:n] init body).run := by
  rw [Std.Legacy.Range.forIn_eq_forIn_range']
  -- the numbers that are left are known from how many they are
  refine forIn_list_leads (fun rest b => ∃ i, i + rest.length = n ∧ rest = List.range' i rest.length ∧ p i b)
    ⟨0, ?_, ?_, hinit⟩ ?_ ?_
  · simp [Std.Legacy.Range.size]
  · simp [Std.Legacy.Range.size]
  · rintro x rest b ⟨i, hlength, hrest, hb⟩
    rw [List.length_cons] at hlength
    rw [List.length_cons, List.range'_succ, List.cons.injEq] at hrest
    obtain ⟨rfl, hrest⟩ := hrest
    have hbody := hstep x (by omega) b hb
    cases h : (body x b).run with
    | done c => exact (h ▸ hbody : Leads (p (x + 1)) q (.done c))
    | yield c => exact ⟨x + 1, by omega, hrest, (h ▸ hbody : Leads (p (x + 1)) q (.yield c))⟩
  · rintro b ⟨i, hlength, -, hb⟩
    exact hend b (hlength ▸ hb)

/-- A loop over the numbers from `m` to `n` keeps the property `p` that each run of its body keeps. -/
theorem forIn_range_keeps {m n : Nat} {init : β} {body : Nat → β → Id (ForInStep β)} {p : β → Prop}
    (hinit : p init) (hstep : ∀ i, m ≤ i → i < n → ∀ b, p b → Leads p p (body i b).run) :
    p (forIn [m:n] init body).run := by
  rw [Std.Legacy.Range.forIn_eq_forIn_range']
  refine forIn_list_keeps hinit fun i hi => ?_
  simp only [Std.Legacy.Range.size, List.mem_range'_1] at hi
  exact hstep i hi.1 (by omega)

end PayloadAtlas.Loop
