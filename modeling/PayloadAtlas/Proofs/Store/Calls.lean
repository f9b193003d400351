import Mathlib.Data.List.Induction
import PayloadAtlas.Proofs.Store.Conversation
import PayloadAtlas.Proofs.Store.Memory

/-!
# What calls do to a store

What a call can do to a store in memory is said once (`MemoryStore.answer_cases`): nothing, or to write a row to one
table. So a call that does not write, or that is refused, leaves the store alone (`answer_of_refused`). What comes of
many calls follows from what each of them does (`after_induction`): a table changes only if a write to it is taken
(`lookup_after`).
-/

namespace PayloadAtlas

open Json (Value)
open Session (Exchange)

/-! ## What a call is for -/

namespace Call

/-- The table that a call writes to, if it writes. -/
def target? : Call → Option Table
  | .upsert t .. | .insert t _ => some t
  | .rpc _ | .select .. => none

/-- What a call makes of the `rows` of its table, if it is taken. -/
def applyTo : Call → List Value → List Value
  | .upsert _ row column, rows => MemoryStore.place column row rows
  | .insert _ row, rows => rows ++ [row]
  | .rpc _, rows | .select .., rows => rows

end Call

/-- An answer is an error or has a status of `400` or above. -/
def Answer.Refuses (a : Answer) : Prop := (∃ e, a = .error e) ∨ ∃ r, a = .ok r ∧ 400 ≤ r.status

/-- An answer refuses just if it is no success. -/
theorem Answer.refuses_iff {a : Answer} : a.Refuses ↔ a.succeeded = false := by
  cases a with
  | error e => simp [Refuses, succeeded, success?]
  | ok r => simp [Refuses, succeeded, success?, Response.isSuccess]

namespace MemoryStore

variable {m : MemoryStore} {t : Table} {key : String} {call : Call}

/-! ## One call -/

/-- By `answer` a store takes a write, or is left alone. -/
theorem answer_cases (m : MemoryStore) (call : Call) :
    ((m.answer call).2 = m ∧ (call.target?.isSome → (m.answer call).1.succeeded = false)) ∨
      ∃ t, call.target? = some t ∧ (m.answer call).1.succeeded = true ∧
        (m.answer call).2 = m.withTable t.toText (call.applyTo (m.rows t)) := by
  -- the two writes are refused, or find no table, or are taken; nothing else changes a store
  cases call with
  | rpc name => exact .inl ⟨rfl, by simp [Call.target?]⟩
  | select t columns limit => exact .inl ⟨rfl, by simp [Call.target?]⟩
  | upsert t row column =>
    simp only [answer, upsert]
    split
    · exact .inl ⟨rfl, fun _ => rfl⟩
    · cases hrows : m.tables.lookup t.toText with
      | none => exact .inl ⟨rfl, fun _ => rfl⟩
      | some rows => exact .inr ⟨t, rfl, rfl, by simp [Call.applyTo, MemoryStore.rows, hrows]⟩
  | insert t row =>
    simp only [answer, insert]
    split
    · exact .inl ⟨rfl, fun _ => rfl⟩
    · cases hrows : m.tables.lookup t.toText with
      | none => exact .inl ⟨rfl, fun _ => rfl⟩
      | some rows => exact .inr ⟨t, rfl, rfl, by simp [Call.applyTo, MemoryStore.rows, hrows]⟩

/-- By `answer` a call changes no table but the one that it writes to. -/
theorem lookup_answer (hcall : ∀ t, call.target? = some t → t.toText ≠ key) :
    (m.answer call).2.tables.lookup key = m.tables.lookup key := by
  rcases answer_cases m call with ⟨hm, -⟩ | ⟨t, ht, -, hm⟩
  · rw [hm]
  · rw [hm, withTable, Association.lookup_set_of_ne (Ne.symm (hcall t ht))]

theorem answer_of_refused (h : call.target? = none ∨ (m.answer call).1.Refuses) : (m.answer call).2 = m := by
  rcases answer_cases m call with ⟨hm, -⟩ | ⟨t, ht, htaken, -⟩
  · exact hm
  · rcases h with hnone | hrefused
    · cases ht.symm.trans hnone
    · cases htaken.symm.trans (Answer.refuses_iff.mp hrefused)

/-! ## Many calls -/

/-- What a store becomes when it is asked `calls` one after the other. -/
def after (m : MemoryStore) (calls : List Call) : MemoryStore :=
  calls.foldl (fun m call => (m.answer call).2) m

/-- What a store is asked, with its answers, in order. -/
def talk (m : MemoryStore) : List Call → List Exchange
  | [] => []
  | call :: rest => (call, (m.answer call).1) :: (m.answer call).2.talk rest

/-- A write to a table was taken. -/
def Writes (key : String) (e : Exchange) : Prop :=
  e.2.succeeded = true ∧ e.1.target?.map Table.toText = some key

instance (key : String) (e : Exchange) : Decidable (Writes key e) := inferInstanceAs (Decidable (_ ∧ _))

theorem after_concat (m : MemoryStore) (calls : List Call) (call : Call) :
    m.after (calls ++ [call]) = ((m.after calls).answer call).2 := by
  rw [after, List.foldl_concat, ← after]

theorem talk_concat (m : MemoryStore) (calls : List Call) (call : Call) :
    m.talk (calls ++ [call]) = m.talk calls ++ [(call, ((m.after calls).answer call).1)] := by
  induction calls generalizing m with
  | nil => rfl
  | cons first rest ih => exact congrArg (_ :: ·) (ih (m.answer first).2)

theorem after_induction {I : List Exchange → MemoryStore → Prop} {calls : List Call} (hstart : I [] m)
    (hstep : ∀ log m', ∀ call ∈ calls, I log m' → I (log ++ [(call, (m'.answer call).1)]) (m'.answer call).2) :
    I (m.talk calls) (m.after calls) := by
  induction calls using List.reverseRecOn with
  | nil => exact hstart
  | append_singleton calls call ih =>
    rw [talk_concat, after_concat]
    refine hstep _ _ call (List.mem_append_right calls (List.mem_singleton_self call)) (ih ?_)
    exact fun log m' call' hcall' => hstep log m' call' (List.mem_append_left _ hcall')

/-- A table is as it was if no write to it was taken. -/
theorem lookup_after {calls : List Call} (h : ∀ e ∈ m.talk calls, ¬Writes key e) :
    (m.after calls).tables.lookup key = m.tables.lookup key := by
  refine after_induction (I := fun log m' => (∀ e ∈ log, ¬Writes key e) → m'.tables.lookup key = m.tables.lookup key)
    (fun _ => rfl) (fun log m' call _ ih hlog => ?_) h
  rw [List.forall_mem_append, List.forall_mem_singleton] at hlog
  rw [← ih hlog.1]
  rcases answer_cases m' call with ⟨hm, -⟩ | ⟨t, ht, htaken, hm⟩
  · rw [hm]
  · rw [hm, withTable, Association.lookup_set_of_ne]
    exact fun hkey => hlog.2 ⟨htaken, by rw [ht, hkey, Option.map_some]⟩

end MemoryStore

end PayloadAtlas
