import Mathlib.Data.List.Basic
import Mathlib.Data.List.Nodup
import PayloadAtlas.Store.Memory

/-!
# Rows of a store in memory

Writing a row puts it in the place of the first row with the same key, or at the end. Here keys are texts
(`Keyed`). `placeAll` writes many rows, one after another. What it does to the first row of a table and to
the others can be told apart (`placeAll_cons`), from which it follows that rows written over rows with the
same keys leave nothing of those (`placeAll_placeAll`). Rows with different keys can all be found again
(`find?_placeAll`), so that what was written can be read off the table (`eq_of_placeAll_eq`).

The second part says what one call does to a store as a whole, as far as the table is there.
-/

namespace PayloadAtlas.MemoryStore

open Json (Value)

/-! ## Rows with keys -/

/-- The text in a column, if the value there is one. -/
def textAt (column : String) (row : Value) : Option String := (row.get? column).bind Value.string?

/-- All rows have a text in `column`. -/
def Keyed (column : String) (R : List Value) : Prop :=
  ∀ r ∈ R, ∃ k, r.get? column = some (.string k)

/-- Writes the rows `R` one after another. -/
def placeAll (column : String) (R rows : List Value) : List Value :=
  R.foldl (fun acc r => place column r acc) rows

/-- What becomes of the first row of a table when the rows `R` are written. -/
def overwritten (column : String) (R : List Value) (x : Value) : Value :=
  R.foldl (fun x r => if textAt column x = textAt column r then r else x) x

section Rows

variable {column k : String} {r x y : Value} {R S X : List Value}

theorem textAt_of_get? (h : r.get? column = some (.string k)) : textAt column r = some k := by
  rw [textAt, h]
  rfl

theorem Keyed.tail (h : Keyed column (r :: R)) : Keyed column R :=
  fun q hq => h q (List.mem_cons_of_mem r hq)

theorem Keyed.filter (h : Keyed column R) (p : Value → Bool) : Keyed column (R.filter p) :=
  fun q hq => h q (List.mem_of_mem_filter hq)

theorem keyed_map {ι : Type} {name : ι → String} {f : ι → Value}
    (hf : ∀ a, (f a).get? column = some (.string (name a))) (l : List ι) : Keyed column (l.map f) := by
  intro r hr
  obtain ⟨a, -, rfl⟩ := List.mem_map.mp hr
  exact ⟨name a, hf a⟩

theorem map_textAt_map {ι : Type} {name : ι → String} {f : ι → Value}
    (hf : ∀ a, (f a).get? column = some (.string (name a))) (l : List ι) :
    (l.map f).map (textAt column) = l.map fun a => some (name a) := by
  rw [List.map_map]
  exact List.map_congr_left fun a _ => textAt_of_get? (hf a)

/-- A row holds a text just if that is in its column. -/
theorem holds_string : holds column (.string k) x = true ↔ textAt column x = some k := by
  unfold holds textAt
  cases x.get? column with
  | none => simp
  | some v => cases v <;> simp [Value.same, Value.string?]

/-- A row is written by `place` over the first one with its text, or put after all. -/
theorem place_cons (h : r.get? column = some (.string k)) :
    place column r (x :: X) =
      if textAt column x = textAt column r then r :: X else x :: place column r X := by
  simp only [place, conflictValue, h, Option.getD_some, holds_string, textAt_of_get? h]

/-- A row keeps its text when it is written over. -/
theorem textAt_overwritten : textAt column (overwritten column R x) = textAt column x := by
  induction R generalizing x with
  | nil => rfl
  | cons r rest ih =>
    rw [overwritten, List.foldl_cons, ← overwritten, ih]
    split
    · next h => exact h.symm
    · rfl

theorem overwritten_of_notMem (h : textAt column x ∉ R.map (textAt column)) :
    overwritten column R x = x := by
  induction R with
  | nil => rfl
  | cons r rest ih =>
    rw [List.map_cons, List.mem_cons, not_or] at h
    rw [overwritten, List.foldl_cons, ← overwritten, if_neg h.1, ih h.2]

/-- A row that is written over does not matter. -/
theorem overwritten_congr (hxy : textAt column x = textAt column y)
    (h : textAt column x ∈ R.map (textAt column)) :
    overwritten column R x = overwritten column R y := by
  induction R with
  | nil => exact absurd h List.not_mem_nil
  | cons r rest ih =>
    simp only [overwritten, List.foldl_cons]
    by_cases hr : textAt column x = textAt column r
    · rw [if_pos hr, if_pos (hxy ▸ hr)]
    · rw [if_neg hr, if_neg (hxy ▸ hr)]
      exact ih (List.mem_of_ne_of_mem hr h)

/-! ## Many rows -/

/-- The first row is written over by the rows with its key, and the others go on. -/
theorem placeAll_cons (h : Keyed column R) :
    placeAll column R (x :: X) = overwritten column R x ::
      placeAll column (R.filter fun r => textAt column r ≠ textAt column x) X := by
  induction R generalizing x X with
  | nil => rfl
  | cons r rest ih =>
    obtain ⟨k, hk⟩ := h r List.mem_cons_self
    rw [placeAll, List.foldl_cons, ← placeAll, overwritten, List.foldl_cons, ← overwritten,
      place_cons hk]
    by_cases hx : textAt column x = textAt column r
    · rw [if_pos hx, if_pos hx, ih h.tail]
      simp [hx]
    · rw [if_neg hx, if_neg hx, ih h.tail, List.filter_cons_of_pos (by simpa using Ne.symm hx)]
      rfl

theorem map_filter_textAt (z : Option String) :
    (R.filter fun r => textAt column r ≠ z).map (textAt column) =
      (R.map (textAt column)).filter (· ≠ z) := by
  rw [List.filter_map]
  rfl

/-- A row that is written over twice, by rows with the same texts, is as after the second time. -/
theorem overwritten_overwritten (hRS : R.map (textAt column) = S.map (textAt column)) :
    overwritten column S (overwritten column R x) = overwritten column S x := by
  by_cases hx : textAt column x ∈ S.map (textAt column)
  · refine overwritten_congr textAt_overwritten ?_
    rw [textAt_overwritten]
    exact hx
  · have hR : overwritten column R x = x := overwritten_of_notMem (hRS ▸ hx)
    rw [hR]

/-- Rows that are written over rows with the same texts, in the same order, leave nothing of them. -/
theorem placeAll_placeAll_nil (hR : Keyed column R) (hS : Keyed column S)
    (hRS : R.map (textAt column) = S.map (textAt column)) :
    placeAll column S (placeAll column R []) = placeAll column S [] := by
  -- the induction is on the number of rows, as those with the key of the first one are left out
  induction hn : R.length using Nat.strongRecOn generalizing R S with
  | _ n ih =>
    match R, S with
    | [], [] => rfl
    | [], _ :: _ => simp at hRS
    | _ :: _, [] => simp at hRS
    | r :: R, s :: S =>
      obtain ⟨hrs, hRS'⟩ := List.cons.inj hRS
      have hfirst : placeAll column (r :: R) [] = placeAll column R [r] := rfl
      have hfirst' : placeAll column (s :: S) [] = placeAll column S [s] := rfl
      rw [hfirst, hfirst', placeAll_cons hR.tail, placeAll_cons hS, placeAll_cons hS.tail,
        textAt_overwritten]
      congr 1
      · rw [overwritten, List.foldl_cons, ← overwritten, textAt_overwritten, if_pos hrs]
      · rw [List.filter_cons_of_neg (by simpa using hrs.symm), hrs]
        refine ih _ ?_ (hR.tail.filter _) (hS.tail.filter _) ?_ rfl
        · rw [← hn]
          exact Nat.lt_succ_of_le (List.length_filter_le _ _)
        · rw [map_filter_textAt, map_filter_textAt, hRS']

/-- So it is in a table with other rows. -/
theorem placeAll_placeAll (hR : Keyed column R) (hS : Keyed column S)
    (hRS : R.map (textAt column) = S.map (textAt column)) :
    placeAll column S (placeAll column R X) = placeAll column S X := by
  induction X generalizing R S with
  | nil => exact placeAll_placeAll_nil hR hS hRS
  | cons x X ih =>
    rw [placeAll_cons hR, placeAll_cons hS, placeAll_cons hS, textAt_overwritten,
      overwritten_overwritten hRS]
    congr 1
    refine ih (hR.filter _) (hS.filter _) ?_
    rw [map_filter_textAt, map_filter_textAt, hRS]

/-! ## Finding rows again -/

/-- A row that was written is found by its text, and any other row as before. -/
theorem find?_place (h : r.get? column = some (.string k)) (z : Option String) :
    (place column r X).find? (textAt column · = z) =
      if textAt column r = z then some r else X.find? (textAt column · = z) := by
  induction X with
  | nil =>
    rw [place]
    by_cases hz : textAt column r = z
    · simp [hz]
    · simp [hz]
  | cons x X ih =>
    rw [place_cons h]
    -- the first row is written over, or is the one that is looked for, or neither
    by_cases hx : textAt column x = textAt column r
    · rw [if_pos hx]
      by_cases hz : textAt column r = z
      · simp [hz]
      · simp [hx, hz]
    · rw [if_neg hx]
      by_cases hz : textAt column x = z
      · have hr : textAt column r ≠ z := fun hr => hx (hz.trans hr.symm)
        simp [hz, hr]
      · simp [hz, ih]

/-- A row whose text is none of those that were written is found as before. -/
theorem find?_placeAll_of_notMem (h : Keyed column R) {z : Option String}
    (hz : z ∉ R.map (textAt column)) :
    (placeAll column R X).find? (textAt column · = z) = X.find? (textAt column · = z) := by
  induction R generalizing X with
  | nil => rfl
  | cons r rest ih =>
    obtain ⟨k, hk⟩ := h r List.mem_cons_self
    rw [List.map_cons, List.mem_cons, not_or] at hz
    rw [placeAll, List.foldl_cons, ← placeAll, ih h.tail hz.2, find?_place hk, if_neg (Ne.symm hz.1)]

/-- Each row that was written by `placeAll` is found by its text, if their texts are different. -/
theorem find?_placeAll (h : Keyed column R) (hR : (R.map (textAt column)).Nodup) (hr : r ∈ R) :
    (placeAll column R X).find? (textAt column · = textAt column r) = some r := by
  induction R generalizing X with
  | nil => exact absurd hr List.not_mem_nil
  | cons q rest ih =>
    obtain ⟨k, hk⟩ := h q List.mem_cons_self
    obtain ⟨hq, hrest⟩ := List.nodup_cons.mp hR
    rw [placeAll, List.foldl_cons, ← placeAll]
    rcases List.mem_cons.mp hr with rfl | hr
    · rw [find?_placeAll_of_notMem h.tail hq, find?_place hk, if_pos rfl]
    · exact ih h.tail hrest hr

/-- What is written under different keys can be read off the table. -/
theorem eq_of_placeAll_eq {keys : List String} {f g : String → Value} (hkeys : keys.Nodup)
    (hf : ∀ a, (f a).get? column = some (.string a)) (hg : ∀ a, (g a).get? column = some (.string a))
    (h : placeAll column (keys.map f) X = placeAll column (keys.map g) X) :
    ∀ a ∈ keys, f a = g a := by
  have hfound : ∀ (f : String → Value), (∀ a, (f a).get? column = some (.string a)) → ∀ a ∈ keys,
      (placeAll column (keys.map f) X).find? (textAt column · = some a) = some (f a) := by
    intro f hf a ha
    have hnodup : ((keys.map f).map (textAt column)).Nodup := by
      rw [map_textAt_map hf]
      exact hkeys.map fun _ _ => Option.some.inj
    rw [← textAt_of_get? (hf a)]
    exact find?_placeAll (keyed_map hf keys) hnodup (List.mem_map_of_mem ha)
  intro a ha
  exact Option.some.inj ((hfound f hf a ha).symm.trans (h ▸ hfound g hg a ha))

/-- A change of rows that leaves their keys alone can come before or after `place`. -/
theorem map_place {φ : Value → Value} (hφ : ∀ v, (φ v).get? column = v.get? column) :
    (place column r X).map φ = place column (φ r) (X.map φ) := by
  have hvalue : conflictValue (φ r) column = conflictValue r column := by
    rw [conflictValue, hφ, conflictValue]
  induction X with
  | nil => rfl
  | cons x X ih =>
    have hholds : holds column (conflictValue r column) (φ x) =
        holds column (conflictValue r column) x := by
      rw [holds, hφ, holds]
    rw [List.map_cons, place, place, hvalue, hholds]
    split
    · rfl
    · rw [List.map_cons, ih]

/-- So it is for many rows. -/
theorem map_placeAll {φ : Value → Value} (hφ : ∀ v, (φ v).get? column = v.get? column) :
    (placeAll column R X).map φ = placeAll column (R.map φ) (X.map φ) := by
  induction R generalizing X with
  | nil => rfl
  | cons r rest ih =>
    rw [List.map_cons, placeAll, placeAll, List.foldl_cons, List.foldl_cons, ← placeAll, ← placeAll,
      ih, map_place hφ]

end Rows

/-! ## Stores -/

/-- Whether a table is there. -/
def Has (m : MemoryStore) (t : Table) : Prop := (m.tables.lookup t.toText).isSome

/-- Whether rows of a table with the key `k` are not rejected. -/
def Takes (m : MemoryStore) (t : Table) (k : String) : Prop :=
  t.toText ∉ m.rejectedWrites ∧ t.toText ++ ":" ++ k ∉ m.rejectedWrites

instance (m : MemoryStore) (t : Table) (k : String) : Decidable (m.Takes t k) :=
  inferInstanceAs (Decidable (_ ∧ _))

/-- The store with the rows `R` written to a table one after another. -/
def placing (m : MemoryStore) (t : Table) (column : String) (R : List Value) : MemoryStore :=
  m.withTable t.toText (placeAll column R (m.rows t))

/-- A store with a clock, which may show another time at each call. -/
def world (clock : Nat → String) : Session.World (MemoryStore × Nat) where
  answer call x := ((x.1.answer call).1, (x.1.answer call).2, x.2 + 1)
  time x := clock x.2

section Stores

variable {m : MemoryStore} {t u : Table} {key column : String} {R S X : List Value}

theorem lookup_of_has (h : m.Has t) : m.tables.lookup t.toText = some (m.rows t) := by
  rw [rows, Option.getD_of_ne_none (Option.isSome_iff_ne_none.mp h)]

/-- A table has the rows that `withTable` put in it. -/
theorem rows_withTable_self : (m.withTable t.toText X).rows t = X := by
  simp only [rows, withTable, Association.lookup_set_self, Option.getD_some]

theorem rows_withTable_of_ne (h : u.toText ≠ key) : (m.withTable key X).rows u = m.rows u := by
  simp only [rows, withTable, Association.lookup_set_of_ne h]

theorem Has.withTable (h : m.Has u) : (m.withTable key X).Has u := by
  by_cases hu : u.toText = key
  · simp only [Has, MemoryStore.withTable, hu, Association.lookup_set_self, Option.isSome_some]
  · simpa only [Has, MemoryStore.withTable, Association.lookup_set_of_ne hu] using h

theorem rows_placing_self : (m.placing t column R).rows t = placeAll column R (m.rows t) :=
  rows_withTable_self

theorem rows_placing_of_ne (h : u.toText ≠ t.toText) : (m.placing t column R).rows u = m.rows u :=
  rows_withTable_of_ne h

theorem placing_nil (h : m.Has t) : m.placing t column [] = m := by
  simp only [placing, placeAll, List.foldl_nil, withTable, Association.set_eq_self (lookup_of_has h)]

theorem placing_placing :
    (m.placing t column R).placing t column S = m.placing t column (R ++ S) := by
  rw [placing, rows_placing_self, placeAll, placeAll, ← List.foldl_append, ← placeAll]
  simp only [placing, withTable, Association.set_set]

/-- A row with a text in its column is written by `upsert`, or the store says that it is rejected. -/
theorem upsert_eq {k : String} {row : Value} (h : m.Has t)
    (hrow : row.get? column = some (.string k)) :
    m.upsert t row column =
      if m.Takes t k then (.ok ⟨201, .array [row]⟩, m.placing t column [row])
      else (.ok (rejected t), m) := by
  simp only [upsert, conflictValue, hrow, Option.getD_some, Value.string?, lookup_of_has h, Takes,
    ← not_or, ite_not]
  rfl

/-- A row is put by `insert` after all others, unless the table rejects it. -/
theorem insert_snd {row : Value} (h : m.Has t) :
    (m.insert t row).2 =
      if t.toText ∈ m.rejectedWrites then m else m.withTable t.toText (m.rows t ++ [row]) := by
  simp only [insert, lookup_of_has h]
  split <;> rfl

end Stores

end PayloadAtlas.MemoryStore
