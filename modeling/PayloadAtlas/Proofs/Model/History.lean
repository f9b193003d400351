import Mathlib.Data.Finset.Card
import Mathlib.Data.List.DropRight
import Mathlib.Data.List.Nodup
import PayloadAtlas.Model.Registry

/-!
# What a registry knows of its history

A registry into which models were registered one after the other says of each name, and of each name in a
module, what the last model registered under it says (`getQualified_ofList`, `getLatest_ofList`). Its size is
the number of names in modules (`size_ofList`), and its collisions are, in order, those of the registrations
that found a model of the same name (`collisions_ofList`). Every statement is an induction on the history from
its end, since that is where `register` acts; `ofList_history` puts them together.
-/

namespace PayloadAtlas.Registry

variable {κ : Type} [DecidableEq κ] {key : Model → κ} {k : κ} {m : Model} {ms xs : List Model}

/-! ## Histories -/

/-- The model `m` of `ms` with `key m = k` that was registered last. -/
def lastWith (key : Model → κ) (k : κ) (ms : List Model) : Option Model := ms.findRev? fun m => key m = k

theorem lastWith_concat (key : Model → κ) (k : κ) (ms : List Model) (m : Model) :
    lastWith key k (ms ++ [m]) = if key m = k then some m else lastWith key k ms := by
  rw [lastWith, lastWith, List.findRev?_eq_find?_reverse, List.findRev?_eq_find?_reverse, List.reverse_concat,
    List.find?_cons]
  by_cases h : key m = k <;> simp [h]

/-- It is the last one of those with the key, as the history lists them. -/
theorem lastWith_eq_getLast? (key : Model → κ) (k : κ) (ms : List Model) :
    lastWith key k ms = (ms.filter (key · = k)).getLast? := by
  rw [lastWith, List.findRev?_eq_find?_reverse, List.getLast?_eq_head?_reverse, ← List.filter_reverse,
    List.head?_filter]

theorem of_lastWith_eq_some (h : lastWith key k ms = some m) : m ∈ ms ∧ key m = k := by
  rw [lastWith_eq_getLast?] at h
  obtain ⟨hm, hk⟩ := List.mem_filter.mp (List.mem_of_getLast? h)
  exact ⟨hm, of_decide_eq_true hk⟩

theorem isSome_lastWith_iff : (lastWith key k ms).isSome ↔ k ∈ ms.map key := by
  simp [lastWith, List.findRev?_eq_find?_reverse, List.find?_isSome]

/-- The replacement that the registration at place `i` is: there is one if `ms.take i` has a model of that name. -/
def replacedAt (ms : List Model) (i : Nat) : Option Collision := do
  let m ← ms[i]?
  let old ← lastWith Model.name m.name (ms.take i)
  return ⟨m.name, old.module, m.module⟩

/-- A registration replaces one if and only if its name occurs in `ms.take i`. -/
theorem isSome_replacedAt_iff (ms : List Model) (i : Nat) :
    (replacedAt ms i).isSome ↔ ∃ m ∈ ms[i]?, m.name ∈ (ms.take i).map Model.name := by
  rw [replacedAt]
  cases ms[i]? with
  | none => simp
  | some m =>
    simp only [Option.mem_some_iff, exists_eq_left', ← isSome_lastWith_iff, Option.bind_eq_bind, Option.bind_some]
    cases lastWith Model.name m.name (ms.take i) <;> rfl

theorem replacedAt_concat_of_lt {i : Nat} (h : i < ms.length) (m : Model) :
    replacedAt (ms ++ [m]) i = replacedAt ms i := by
  rw [replacedAt, replacedAt, List.getElem?_append_left h, List.take_append_of_le_length (Nat.le_of_lt h)]

theorem ofList_concat (ms : List Model) (m : Model) : ofList (ms ++ [m]) = (ofList ms).register m :=
  List.foldl_concat ..

/-! ## Looking up -/

theorem find_put (key : Model → κ) (k : κ) (m : Model) (xs : List Model) :
    find key k (put key m xs) = if key m = k then some m else find key k xs := by
  split
  · next h => rw [← h, find_put_self]
  · next h => exact find_put_of_ne key (Ne.symm h) xs

/-- A name in a module means the model that was last registered under `qualifiedKey`. -/
theorem getQualified_ofList (ms : List Model) (module name : String) :
    (ofList ms).getQualified module name = lastWith qualifiedKey (module, name) ms := by
  induction ms using List.reverseRecOn with
  | nil => rfl
  | append_singleton ms m ih =>
    rw [ofList_concat, getQualified, register, find_put, lastWith_concat, ← ih, getQualified]

/-- By `getLatest`, a name alone means the model of that name that was registered last, in whatever module. -/
theorem getLatest_ofList (ms : List Model) (name : String) :
    (ofList ms).getLatest name = lastWith Model.name name ms := by
  induction ms using List.reverseRecOn with
  | nil => rfl
  | append_singleton ms m ih => rw [ofList_concat, getLatest, register, find_put, lastWith_concat, ← ih, getLatest]

/-! ## Size -/

/-- By `put` the keys stay in their places, and a new one comes last. -/
theorem map_put (key : Model → κ) (m : Model) (xs : List Model) :
    (put key m xs).map key = if key m ∈ xs.map key then xs.map key else xs.map key ++ [key m] := by
  induction xs with
  | nil => rfl
  | cons x xs ih =>
    rw [put]
    by_cases h : key x = key m
    · simp [h]
    · have hne : key m ≠ key x := Ne.symm h
      simp only [if_neg h, List.map_cons, ih, List.mem_cons, or_iff_right hne]
      split <;> rfl

theorem nodup_map_put (h : (xs.map key).Nodup) (m : Model) : ((put key m xs).map key).Nodup := by
  rw [map_put]
  split
  · exact h
  · next hm => exact List.Nodup.append h (List.nodup_singleton _) (List.disjoint_singleton.mpr hm)

theorem mem_map_put {k : κ} : k ∈ (put key m xs).map key ↔ k ∈ xs.map key ∨ k = key m := by
  rw [map_put]
  split
  · next hm =>
    refine ⟨.inl, fun h => h.elim id ?_⟩
    rintro rfl
    exact hm
  · rw [List.mem_append, List.mem_singleton]

/-- Each name of a module is there once in `qualified`, and those that were registered are there. -/
theorem keys_ofList (ms : List Model) :
    ((ofList ms).qualified.map qualifiedKey).Nodup ∧
      ∀ k, k ∈ (ofList ms).qualified.map qualifiedKey ↔ k ∈ ms.map qualifiedKey := by
  induction ms using List.reverseRecOn with
  | nil => exact ⟨List.nodup_nil, fun k => Iff.rfl⟩
  | append_singleton ms m ih =>
    obtain ⟨hnodup, hmem⟩ := ih
    rw [ofList_concat, register]
    refine ⟨nodup_map_put hnodup m, fun k => ?_⟩
    rw [mem_map_put, hmem, List.map_append, List.mem_append, List.map_singleton, List.mem_singleton]

/-- The `size` counts the different names in modules, and not the registrations. -/
theorem size_ofList (ms : List Model) : (ofList ms).size = (ms.map qualifiedKey).toFinset.card := by
  obtain ⟨hnodup, hmem⟩ := keys_ofList ms
  have hsame : ((ofList ms).qualified.map qualifiedKey).toFinset = (ms.map qualifiedKey).toFinset := by
    ext k
    rw [List.mem_toFinset, List.mem_toFinset, hmem]
  rw [← hsame, List.toFinset_card_of_nodup hnodup, List.length_map, size]

/-! ## Collisions -/

/-- What the registration at place `i` replaces is what `getLatest` answered before. -/
theorem replacedAt_eq {i : Nat} (h : ms[i]? = some m) :
    replacedAt ms i = ((ofList (ms.take i)).getLatest m.name).map fun old => ⟨m.name, old.module, m.module⟩ := by
  rw [replacedAt, h, getLatest_ofList, Option.bind_eq_bind, Option.bind_some]
  cases lastWith Model.name m.name (ms.take i) <;> rfl

/-- The log `collisions` lists, in the order of the registrations, what each of them replaced. -/
theorem collisions_ofList (ms : List Model) :
    (ofList ms).collisions = (List.range ms.length).filterMap (replacedAt ms) := by
  induction ms using List.reverseRecOn with
  | nil => rfl
  | append_singleton ms m ih =>
    -- the last registration replaces what answered to its name, and leaves alone what others replaced
    have hearlier : (List.range ms.length).filterMap (replacedAt (ms ++ [m])) =
        (List.range ms.length).filterMap (replacedAt ms) :=
      List.filterMap_congr fun i hi => replacedAt_concat_of_lt (List.mem_range.mp hi) m
    have hreplaced : replacedAt (ms ++ [m]) ms.length = (ofList ms).collision? m := by
      rw [replacedAt_eq List.getElem?_concat_length, List.take_left, collision?]
    have hlast : [ms.length].filterMap (replacedAt (ms ++ [m])) = ((ofList ms).collision? m).toList := by
      rw [← hreplaced]
      cases h : replacedAt (ms ++ [m]) ms.length <;> simp [h]
    rw [ofList_concat, register, List.length_append, List.length_singleton, List.range_succ, List.filterMap_append,
      hearlier, hlast, ih]

/-! ## Annotations -/

/-- The text `n` is what `a` says after its last dot, and all of `a` if there is none. -/
def IsAfterLastDot (a n : String) : Prop :=
  '.' ∉ n.toList ∧ (n = a ∨ ∃ before, a.toList = before ++ '.' :: n.toList)

theorem toList_lastComponent (a : String) : (lastComponent a).toList = a.toList.rtakeWhile (· != '.') := by
  rw [lastComponent, String.toList_ofList, List.rtakeWhile]

/-- The component that `lastComponent` cuts off is the text after the last dot. -/
theorem isAfterLastDot_lastComponent (a : String) : IsAfterLastDot a (lastComponent a) := by
  have hsplit := List.rdropWhile_append_rtakeWhile (p := (· != '.')) (l := a.toList)
  rw [← toList_lastComponent] at hsplit
  constructor
  · intro hdot
    rw [toList_lastComponent] at hdot
    have hne := List.mem_rtakeWhile_imp hdot
    simp at hne
  · -- without a dot nothing is cut off, and otherwise what is cut off ends in the dot
    rcases eq_or_ne (a.toList.rdropWhile (· != '.')) [] with hnone | hsome
    · left
      rw [hnone, List.nil_append] at hsplit
      exact String.toList_inj.mp hsplit
    · right
      have hdot := List.rdropWhile_last_not (· != '.') a.toList hsome
      have hlast : (a.toList.rdropWhile (· != '.')).getLast hsome = '.' := by simpa using hdot
      refine ⟨(a.toList.rdropWhile (· != '.')).dropLast, ?_⟩
      rw [← List.dropLast_append_getLast hsome, hlast, List.append_assoc] at hsplit
      exact hsplit.symm

/-- An annotation `a` means the last model of its `lastComponent` in the module, or else the last one of that name. -/
theorem resolve_ofList (ms : List Model) (module a : String) :
    (ofList ms).resolve module a =
      if a = "" then none
      else ((ofList ms).getQualified module (lastComponent a)).or (lastWith Model.name (lastComponent a) ms) := by
  simp only [resolve, getLatest_ofList]

/-- What a registry says after any history: about names in modules, names alone, annotations, the number of
models, and replacements. -/
theorem ofList_history (ms : List Model) :
    (∀ module name, (ofList ms).getQualified module name = lastWith qualifiedKey (module, name) ms) ∧
      (∀ name, (ofList ms).getLatest name = lastWith Model.name name ms) ∧
      (∀ module a, (ofList ms).resolve module a =
        if a = "" then none
        else ((ofList ms).getQualified module (lastComponent a)).or (lastWith Model.name (lastComponent a) ms)) ∧
      (∀ a, IsAfterLastDot a (lastComponent a)) ∧
      (ofList ms).size = (ms.map qualifiedKey).toFinset.card ∧
      (ofList ms).collisions = (List.range ms.length).filterMap (replacedAt ms) ∧
      (∀ i, (replacedAt ms i).isSome ↔ ∃ m ∈ ms[i]?, m.name ∈ (ms.take i).map Model.name) ∧
      ∀ i, ∀ m ∈ ms[i]?, replacedAt ms i =
        ((ofList (ms.take i)).getLatest m.name).map fun old => ⟨m.name, old.module, m.module⟩ :=
  ⟨getQualified_ofList ms, getLatest_ofList ms, resolve_ofList ms, isAfterLastDot_lastComponent, size_ofList ms,
    collisions_ofList ms, isSome_replacedAt_iff ms, fun _ _ h => replacedAt_eq h⟩

end PayloadAtlas.Registry
