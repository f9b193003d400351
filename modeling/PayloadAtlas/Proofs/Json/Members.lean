import Mathlib.Data.List.Induction
import PayloadAtlas.Proofs.Json.Reread

/-!
# Members that are set one after the other

Setting members in order gives each key the place where it was first set (`keys_membersOf`) and the value to
which it was set last (`lookup_membersOf`), and other keys do not matter to it (`filter_membersOf`). All are inductions
from the end, where the last member is set.
-/

namespace PayloadAtlas.Json.Value

variable {ms : List (String × Value)} {k : String}

/-- The last of the members is set last, by `Association.set`. -/
theorem membersOf_concat (ms : List (String × Value)) (m : String × Value) :
    membersOf (ms ++ [m]) = Association.set m.1 m.2 (membersOf ms) :=
  List.foldl_concat ..

/-- Each key is there once in `membersOf`, where it was set first. -/
theorem keys_membersOf (ms : List (String × Value)) :
    (membersOf ms).map Prod.fst = (ms.map Prod.fst).eraseDups := by
  induction ms using List.reverseRecOn with
  | nil => rfl
  | append_singleton ms m ih =>
    rw [membersOf_concat, Association.keys_set, ih, List.map_append, List.eraseDups_append]
    by_cases hm : m.1 ∈ ms.map Prod.fst
    · have hnone : [m.1].removeAll (ms.map Prod.fst) = [] := by simpa [List.removeAll] using hm
      rw [if_pos (List.mem_eraseDups.mpr hm), List.map_singleton, hnone, List.eraseDups_nil, List.append_nil]
    · have hnew : [m.1].removeAll (ms.map Prod.fst) = [m.1] := by simpa [List.removeAll] using hm
      rw [if_neg (fun h => hm (List.mem_eraseDups.mp h)), List.map_singleton, hnew]
      rfl

theorem nodup_membersOf (ms : List (String × Value)) : ((membersOf ms).map Prod.fst).Nodup := by
  apply membersOf_induction (P := fun acc => (acc.map Prod.fst).Nodup) List.nodup_nil
  intro acc hacc m _
  exact Association.nodup_set hacc m.2

theorem mem_keys_membersOf : k ∈ (membersOf ms).map Prod.fst ↔ k ∈ ms.map Prod.fst := by
  rw [keys_membersOf, List.mem_eraseDups]

theorem membersOf_eq_nil_iff : membersOf ms = [] ↔ ms = [] := by
  constructor
  · intro h
    cases ms with
    | nil => rfl
    | cons m ms =>
      have hm : m.1 ∈ (membersOf (m :: ms)).map Prod.fst := mem_keys_membersOf.mpr (by simp)
      rw [h] at hm
      cases hm
  · rintro rfl
    rfl

/-- In `membersOf` a key has the value to which it was set last. -/
theorem lookup_membersOf (ms : List (String × Value)) (k : String) :
    (membersOf ms).lookup k = (ms.findRev? (·.1 = k)).map Prod.snd := by
  induction ms using List.reverseRecOn with
  | nil => rfl
  | append_singleton ms m ih =>
    rw [List.findRev?_eq_find?_reverse] at ih ⊢
    rw [membersOf_concat, List.reverse_concat, List.find?_cons]
    by_cases hm : m.1 = k
    · simp only [hm, decide_true, Option.map_some]
      exact hm ▸ Association.lookup_set_self ..
    · simp only [hm, decide_false]
      rw [← ih]
      exact Association.lookup_set_of_ne (Ne.symm hm) ..

/-- Members that satisfy `p` by their keys are not touched when a key is set that does not. -/
theorem filter_set (p : String → Bool) (k : String) (x : Value) (ms : List (String × Value)) :
    (Association.set k x ms).filter (fun m => p m.1) =
      if p k = true then Association.set k x (ms.filter fun m => p m.1) else ms.filter fun m => p m.1 := by
  induction ms with
  | nil => by_cases hk : p k = true <;> simp [Association.set, hk]
  | cons m ms ih =>
    obtain ⟨j, y⟩ := m
    rw [Association.set]
    by_cases hj : j = k
    · subst hj
      by_cases hk : p j = true <;> simp [Association.set, hk]
    · rw [if_neg hj, List.filter_cons, ih]
      by_cases hp : p j = true <;> by_cases hk : p k = true <;> simp [Association.set, hp, hk, hj]

/-- The members of some keys are those that come of setting these keys alone, by `filter` before or after. -/
theorem filter_membersOf (p : String → Bool) (ms : List (String × Value)) :
    (membersOf ms).filter (fun m => p m.1) = membersOf (ms.filter fun m => p m.1) := by
  induction ms using List.reverseRecOn with
  | nil => rfl
  | append_singleton ms m ih =>
    rw [membersOf_concat, filter_set, ih, List.filter_append, List.filter_cons, List.filter_nil]
    by_cases hm : p m.1 = true
    · rw [if_pos hm, if_pos hm, membersOf_concat]
    · rw [if_neg hm, if_neg hm, List.append_nil]

end PayloadAtlas.Json.Value
