import PayloadAtlas.Proofs.Store.Calls
import PayloadAtlas.Proofs.Store.Keys

/-!
# Rows under keys of any kind

A store in memory finds a row again by the value in a column, which may be any value. As equality is an equivalence
on values (`sameKey_symm`, `sameKey_trans`), a table with one row for each value keeps that, whatever is written over
it (`Indexed.place`). Rows with other values stay where they are (`getElem?_place`), and writing a row again, or two
rows in another order, makes no other table (`place_place`, `place_comm`). These facts about rows become facts about
stores, where writes may be rejected and tables may not be there, and about any number of calls
(`indexed_after_and_upsert_comm`).
-/

namespace PayloadAtlas

open Json (Value)
open Session (Exchange)

namespace MemoryStore

/-! ## Rows -/

/-- A row with a value in a column; the keys of its objects differ. -/
structure IsRow (column : String) (r : Value) : Prop where
  keys : r.keysDiffer
  carries : ∃ v, r.get? column = some v

/-- All rows have a value in `column`, and no two the same. -/
structure Indexed (column : String) (rows : List Value) : Prop where
  each : ∀ r ∈ rows, IsRow column r
  distinct : Distinct column rows

section Rows

variable {column : String} {r a b x y z : Value} {X : List Value} {i : Nat}

theorem sameKey_refl (h : IsRow column r) : sameKey column r r = true := by
  obtain ⟨v, hv⟩ := h.carries
  exact sameKey_iff.mpr ⟨v, v, hv, hv, Value.same_refl (Value.keysDiffer_get? h.keys hv)⟩

theorem sameKey_symm (hx : x.keysDiffer) (hy : y.keysDiffer) (h : sameKey column x y = true) :
    sameKey column y x = true := by
  obtain ⟨v, w, hv, hw, hsame⟩ := sameKey_iff.mp h
  exact sameKey_iff.mpr
    ⟨w, v, hw, hv, Value.same_symm (Value.keysDiffer_get? hx hv) (Value.keysDiffer_get? hy hw) hsame⟩

theorem sameKey_comm (hx : x.keysDiffer) (hy : y.keysDiffer) : sameKey column x y = sameKey column y x :=
  Bool.eq_iff_iff.mpr ⟨sameKey_symm hx hy, sameKey_symm hy hx⟩

/-- A row with another value than that of `r` stays where it is. -/
theorem getElem?_place {v : Value} (hr : r.get? column = some v) (hx : X[i]? = some x)
    (hne : sameKey column x r = false) : (place column r X)[i]? = some x := by
  -- along the rows: the one that is written over is not the one at `i`
  induction X generalizing i with
  | nil => cases hx
  | cons y Y ih =>
    rw [place_cons_of_get? hr]
    cases i with
    | zero =>
      obtain rfl := Option.some.inj hx
      rw [if_neg (Bool.eq_false_iff.mp hne)]
      rfl
    | succ i =>
      split
      · exact hx
      · exact ih hx

/-- A row that `place` writes is there. -/
theorem mem_place_self (column : String) (r : Value) (X : List Value) : r ∈ place column r X := by
  induction X with
  | nil => exact List.mem_singleton_self r
  | cons y Y ih =>
    rw [place]
    split
    · exact List.mem_cons_self
    · exact List.mem_cons_of_mem y ih

/-- By `place` values stay different, and every row has one. -/
theorem Indexed.place (h : Indexed column X) (hr : IsRow column r) : Indexed column (place column r X) := by
  obtain ⟨v, hv⟩ := hr.carries
  refine ⟨fun x hx => ?_, h.distinct.place hv⟩
  rcases mem_place_imp hx with rfl | hx
  · exact hr
  · exact h.each x hx

/-- Writing a row again by `place` changes nothing. -/
theorem place_place (hr : IsRow column r) : place column r (place column r X) = place column r X := by
  obtain ⟨v, hv⟩ := hr.carries
  have hself : ∀ Y, place column r (r :: Y) = r :: Y := by
    intro Y
    rw [place_cons_of_get? hv, if_pos (sameKey_refl hr)]
  induction X with
  | nil => exact hself []
  | cons y Y ih =>
    rw [place_cons_of_get? hv]
    split
    · exact hself Y
    · next hkey => rw [place_cons_of_get? hv, if_neg hkey, ih]

/-- Rows with different values can be written by `place` in either order, up to the order in which they come last. -/
theorem place_comm (hX : ∀ x ∈ X, x.keysDiffer) (ha : IsRow column a) (hb : IsRow column b)
    (hab : sameKey column a b = false) :
    (place column a (place column b X)).Perm (place column b (place column a X)) := by
  obtain ⟨v, hv⟩ := ha.carries
  obtain ⟨w, hw⟩ := hb.carries
  have hba : sameKey column b a = false := by rwa [sameKey_comm hb.keys ha.keys]
  -- the first row of the table is written over by one of the two, or by none
  induction X with
  | nil =>
    rw [place, place, place_cons_of_get? hv, place_cons_of_get? hw, if_neg (Bool.eq_false_iff.mp hab),
      if_neg (Bool.eq_false_iff.mp hba)]
    exact List.Perm.swap ..
  | cons y Y ih =>
    rw [List.forall_mem_cons] at hX
    rw [place_cons_of_get? hv, place_cons_of_get? hw]
    by_cases hya : sameKey column y a = true
    · -- `y` is written over by `a`, and so not by `b`
      have hyb : ¬sameKey column y b = true := fun hyb =>
        Bool.eq_false_iff.mp hab (sameKey_trans (sameKey_symm hX.1 ha.keys hya) hyb)
      rw [if_pos hya, if_neg hyb, place_cons_of_get? hv, place_cons_of_get? hw, if_pos hya,
        if_neg (Bool.eq_false_iff.mp hab)]
    · by_cases hyb : sameKey column y b = true
      · rw [if_neg hya, if_pos hyb, place_cons_of_get? hv, place_cons_of_get? hw, if_pos hyb,
          if_neg (Bool.eq_false_iff.mp hba)]
      · rw [if_neg hya, if_neg hyb, place_cons_of_get? hv, place_cons_of_get? hw, if_neg hya, if_neg hyb]
        exact (ih hX.2).cons y

end Rows

/-! ## Tables -/

section Tables

variable {m : MemoryStore} {t : Table} {column key : String} {row a b : Value} {calls : List Call}

/-- A call that writes to the table `key` puts a row with a value in the `column` in the place of another. -/
def UpsertsBy (key column : String) : Call → Prop
  | .upsert t row c => t.toText = key → c = column ∧ IsRow column row
  | .insert t _ => t.toText ≠ key
  | .rpc _ | .select .. => True

/-- Whether a call is for writing a row with the value that `x` has in the `column`. -/
def Overwrites (column : String) (x : Value) : Call → Prop
  | .upsert _ row _ | .insert _ row => sameKey column x row = true
  | .rpc _ | .select .. => False

/-- Rows are still where they were if no row was taken that has the same value in a column. -/
def KeepsPlaces (key column : String) (before : List Value) (log : List Exchange) (after : List Value) : Prop :=
  ∀ (i : Nat) (x : Value), before[i]? = some x → (∀ e ∈ log, Writes key e → ¬Overwrites column x e.1) →
    after[i]? = some x

/-- What one more exchange keeps is kept by all. -/
theorem KeepsPlaces.concat {log : List Exchange} {e : Exchange} {before now after : List Value}
    (h : KeepsPlaces key column before log now)
    (he : ∀ (i : Nat) (x : Value), now[i]? = some x → (Writes key e → ¬Overwrites column x e.1) → after[i]? = some x) :
    KeepsPlaces key column before (log ++ [e]) after := by
  intro i x hx hlog
  rw [List.forall_mem_append, List.forall_mem_singleton] at hlog
  exact he i x (h i x hx hlog.1) hlog.2

/-- One call keeps values different, and rows in their places unless they are written over. -/
theorem indexed_answer {call : Call} (h : Indexed column (m.rows t)) (hcall : UpsertsBy t.toText column call) :
    Indexed column ((m.answer call).2.rows t) ∧ ∀ (i : Nat) (x : Value), (m.rows t)[i]? = some x →
      (Writes t.toText (call, (m.answer call).1) → ¬Overwrites column x call) →
        ((m.answer call).2.rows t)[i]? = some x := by
  rcases answer_cases m call with ⟨hm, -⟩ | ⟨u, hu, htaken, hm⟩
  · rw [hm]
    exact ⟨h, fun i x hx _ => hx⟩
  · rw [hm]
    -- only an upsert into the table itself matters
    by_cases hkey : t.toText = u.toText
    · cases call with
      | rpc | select => cases hu
      | insert v row =>
        obtain rfl := Option.some.inj hu
        exact absurd hkey.symm hcall
      | upsert v row c =>
        obtain rfl := Option.some.inj hu
        obtain ⟨rfl, hrow⟩ := hcall hkey.symm
        have hrows : m.rows v = m.rows t := by rw [rows, rows, hkey]
        have hafter : (m.withTable v.toText (place c row (m.rows v))).rows t = place c row (m.rows t) := by
          rw [← hkey, rows_withTable_self, hrows]
        rw [Call.applyTo, hafter]
        obtain ⟨w, hw⟩ := hrow.carries
        refine ⟨h.place hrow, fun i x hx hother => getElem?_place hw hx (Bool.eq_false_iff.mpr ?_)⟩
        exact hother ⟨htaken, congrArg some hkey.symm⟩
    · rw [rows_withTable_of_ne hkey]
      exact ⟨h, fun i x hx _ => hx⟩

/-- So do many calls, one after the other. -/
theorem indexed_after (h : Indexed column (m.rows t)) (hcalls : ∀ call ∈ calls, UpsertsBy t.toText column call) :
    Indexed column ((m.after calls).rows t) ∧
      KeepsPlaces t.toText column (m.rows t) (m.talk calls) ((m.after calls).rows t) := by
  refine after_induction (I := fun log m' => Indexed column (m'.rows t) ∧
    KeepsPlaces t.toText column (m.rows t) log (m'.rows t)) ⟨h, fun i x hx _ => hx⟩ ?_
  intro log m' call hmem ⟨hindexed, hkept⟩
  obtain ⟨hindexed', hkept'⟩ := indexed_answer hindexed (hcalls call hmem)
  exact ⟨hindexed', hkept.concat hkept'⟩

/-! ## Rows that are written one after another -/

/-- The rows of a table after a row was written, if it is taken. -/
def taking (m : MemoryStore) (t : Table) (column : String) (row : Value) (rows : List Value) : List Value :=
  if m.Takes t ((conflictValue row column).string?.getD "") then place column row rows else rows

theorem upsert_of_not_has (h : ¬m.Has t) (row : Value) (column : String) : (m.upsert t row column).2 = m := by
  have hnone : m.tables.lookup t.toText = none := Option.not_isSome_iff_eq_none.mp h
  simp only [upsert, hnone]
  split <;> rfl

/-- A table that is there has the rows of `taking`. -/
theorem upsert_snd (h : m.Has t) :
    (m.upsert t row column).2 = m.withTable t.toText (m.taking t column row (m.rows t)) := by
  simp only [upsert, lookup_of_has h, taking, Takes, ← not_or, ite_not]
  split
  · rw [withTable, Association.set_eq_self (lookup_of_has h)]
  · rfl

/-- Two rows are written one after the other. -/
theorem after_two (h : m.Has t) : m.after [.upsert t a column, .upsert t b column] =
    m.withTable t.toText (m.taking t column b (m.taking t column a (m.rows t))) := by
  show ((m.upsert t a column).2.upsert t b column).2 = _
  rw [upsert_snd h, upsert_snd h.withTable, rows_withTable_self, withTable, withTable, Association.set_set]
  rfl

theorem taking_taking (ha : IsRow column a) {X : List Value} :
    m.taking t column a (m.taking t column a X) = m.taking t column a X := by
  unfold taking
  split
  · exact place_place ha
  · rfl

/-- Two rows with different values can be taken in either order. -/
theorem taking_comm {X : List Value} (hX : ∀ x ∈ X, x.keysDiffer) (ha : IsRow column a) (hb : IsRow column b)
    (hab : sameKey column a b = false) :
    (m.taking t column b (m.taking t column a X)).Perm (m.taking t column a (m.taking t column b X)) := by
  unfold taking
  split
  · split
    · exact (place_comm hX ha hb hab).symm
    · rfl
  · rfl

/-- A row that is written twice leaves the store as after once. -/
theorem after_same (ha : IsRow column a) :
    m.after [.upsert t a column, .upsert t a column] = m.after [.upsert t a column] := by
  by_cases h : m.Has t
  · rw [after_two h, taking_taking ha]
    exact (upsert_snd h).symm
  · show ((m.upsert t a column).2.upsert t a column).2 = (m.upsert t a column).2
    rw [upsert_of_not_has h, upsert_of_not_has h]

/-- The stores `m` and `m'` differ at most in the order of the rows of one table. -/
structure AlikeUpTo (t : Table) (m m' : MemoryStore) : Prop where
  rows : (m.rows t).Perm (m'.rows t)
  others : ∀ key ≠ t.toText, m.tables.lookup key = m'.tables.lookup key

/-- Two rows with different values leave stores that are alike in either order. -/
theorem after_swap (h : Indexed column (m.rows t)) (ha : IsRow column a) (hb : IsRow column b)
    (hab : sameKey column a b = false) : AlikeUpTo t (m.after [.upsert t a column, .upsert t b column])
      (m.after [.upsert t b column, .upsert t a column]) := by
  by_cases hhas : m.Has t
  · rw [after_two hhas, after_two hhas]
    refine ⟨?_, fun key hkey => ?_⟩
    · rw [rows_withTable_self, rows_withTable_self]
      exact taking_comm (fun x hx => (h.each x hx).keys) ha hb hab
    · rw [withTable, withTable, Association.lookup_set_of_ne hkey, Association.lookup_set_of_ne hkey]
  · have hsame : ∀ x y, m.after [.upsert t x column, .upsert t y column] = m := by
      intro x y
      show ((m.upsert t x column).2.upsert t y column).2 = m
      rw [upsert_of_not_has hhas, upsert_of_not_has hhas]
    rw [hsame, hsame]
    exact ⟨.refl _, fun _ _ => rfl⟩

theorem mem_after (h : (m.upsert t a column).1.succeeded = true) : a ∈ (m.after [.upsert t a column]).rows t := by
  rcases answer_cases m (.upsert t a column) with ⟨-, hrefused⟩ | ⟨u, hu, -, hm⟩
  · cases h.symm.trans (hrefused rfl)
  · obtain rfl := Option.some.inj hu
    have hafter : m.after [.upsert t a column] = _ := hm
    rw [hafter, rows_withTable_self]
    exact mem_place_self column a (m.rows t)

/-- Calls that do not write, or are refused, change no table, and each write that is taken changes its table only. If
the rows of a table have different values in a column, this stays so when rows with values there are written over them;
rows with other values stay where they are; a row that is taken is there, and once, however often it is written; and
rows with different values may be written in either order. -/
theorem indexed_after_and_upsert_comm (m : MemoryStore) (calls : List Call) :
    (∀ call, call.target? = none ∨ (m.answer call).1.Refuses → (m.answer call).2 = m) ∧
      (∀ key, (∀ e ∈ m.talk calls, ¬Writes key e) → (m.after calls).tables.lookup key = m.tables.lookup key) ∧
      ∀ t column, Indexed column (m.rows t) →
        ((∀ call ∈ calls, UpsertsBy t.toText column call) → Indexed column ((m.after calls).rows t) ∧
          KeepsPlaces t.toText column (m.rows t) (m.talk calls) ((m.after calls).rows t)) ∧
        ∀ a, IsRow column a →
          ((m.upsert t a column).1.succeeded = true → a ∈ (m.after [.upsert t a column]).rows t) ∧
          m.after [.upsert t a column, .upsert t a column] = m.after [.upsert t a column] ∧
          ∀ b, IsRow column b → sameKey column a b = false →
            AlikeUpTo t (m.after [.upsert t a column, .upsert t b column])
              (m.after [.upsert t b column, .upsert t a column]) := by
  refine ⟨fun _ => answer_of_refused, fun _ => lookup_after, fun t column h => ⟨indexed_after h, fun a ha => ?_⟩⟩
  exact ⟨mem_after, after_same ha, fun b hb => after_swap h ha hb⟩

/-- A table with a number, a text and an object as keys. One row of it is written over under the object with its keys in
another order; a row with another text is rejected, and reading the table and a procedure fail. -/
theorem indexed_after_notes :
    let note id text := Value.object [("id", id), ("text", .string text)]
    let pair a b := Value.object [a, b]
    let one := ("a", Value.ofNat 1)
    let two := ("b", Value.ofNat 2)
    let t : Table := ⟨some "public", "notes"⟩
    let m := ((({} : MemoryStore).withTable "public.notes"
      [note (.ofNat 2) "number", note (.string "2") "text", note (pair one two) "object"]).rejectingWrites
      "public.notes:x").failingSelect "public.notes"
    let a := note (pair two one) "changed"
    let b := note (.string "3") "new"
    let calls := [.rpc "tables", .select t "*" 1, .upsert t a "id", .upsert t (note (.string "x") "rejected") "id",
      .insert ⟨none, "users"⟩ b]
    Indexed "id" (m.rows t) ∧ (∀ call ∈ calls, UpsertsBy t.toText "id" call) ∧ IsRow "id" a ∧ IsRow "id" b ∧
      sameKey "id" a b = false ∧ (∀ e ∈ m.talk calls, ¬Writes "users" e) ∧
      (m.answer (.upsert t (note (.string "x") "rejected") "id")).1.Refuses ∧
      (m.upsert t a "id").1.succeeded = true ∧
      ((m.answer (.upsert t (note (.string "x") "rejected") "id")).2 = m ∧
        (m.after calls).tables.lookup "users" = m.tables.lookup "users" ∧
        Indexed "id" ((m.after calls).rows t) ∧
        KeepsPlaces t.toText "id" (m.rows t) (m.talk calls) ((m.after calls).rows t) ∧
        a ∈ (m.after [.upsert t a "id"]).rows t ∧
        m.after [.upsert t a "id", .upsert t a "id"] = m.after [.upsert t a "id"] ∧
        AlikeUpTo t (m.after [.upsert t a "id", .upsert t b "id"]) (m.after [.upsert t b "id", .upsert t a "id"])) ∧
      (m.after calls).rows t = [note (.ofNat 2) "number", note (.string "2") "text", a] := by
  intro note pair one two t m a b calls
  have hrow : ∀ id text, id.keysDiffer → IsRow "id" (note id text) := by
    intro id text hid
    refine ⟨⟨by simp, ?_⟩, id, rfl⟩
    rw [Value.membersKeysDiffer_iff]
    simp [hid, Value.keysDiffer]
  -- objects can be keys, too, as long as their own keys differ
  have hpair : ∀ p q : String × Value, p.1 ≠ q.1 → p.2.keysDiffer → q.2.keysDiffer → (pair p q).keysDiffer := by
    intro p q hne hp hq
    refine ⟨by simp [hne], ?_⟩
    rw [Value.membersKeysDiffer_iff]
    simp [hp, hq]
  have hone : (pair one two).keysDiffer := hpair one two (by decide) trivial trivial
  have htwo : (pair two one).keysDiffer := hpair two one (by decide) trivial trivial
  have ha : IsRow "id" a := hrow _ _ htwo
  have hb : IsRow "id" b := hrow _ _ trivial
  have hindexed : Indexed "id" (m.rows t) := by
    refine ⟨?_, by decide⟩
    show ∀ r ∈ [note (.ofNat 2) "number", note (.string "2") "text", note (pair one two) "object"], IsRow "id" r
    simp only [List.forall_mem_cons]
    exact ⟨hrow _ _ trivial, hrow _ _ trivial, hrow _ _ hone, by simp⟩
  have hcalls : ∀ call ∈ calls, UpsertsBy t.toText "id" call := by
    simp only [calls, List.forall_mem_cons]
    have hother : Table.toText ⟨none, "users"⟩ ≠ t.toText := by decide
    exact ⟨trivial, trivial, fun _ => ⟨rfl, ha⟩, fun _ => ⟨rfl, hrow _ _ trivial⟩, hother, by simp⟩
  have hab : sameKey "id" a b = false := by decide
  have hrefused : (m.answer (.upsert t (note (.string "x") "rejected") "id")).1.Refuses :=
    .inr ⟨_, rfl, by decide⟩
  have htaken : (m.upsert t a "id").1.succeeded = true := by decide
  have husers : ∀ e ∈ m.talk calls, ¬Writes "users" e := by decide
  obtain ⟨hleft, hothers, htable⟩ := indexed_after_and_upsert_comm m calls
  obtain ⟨hkept, hrows⟩ := htable t "id" hindexed
  obtain ⟨hmem, hagain, hswap⟩ := hrows a ha
  obtain ⟨hindexed', hplaces⟩ := hkept hcalls
  exact ⟨hindexed, hcalls, ha, hb, hab, husers, hrefused, htaken,
    ⟨hleft _ (.inr hrefused), hothers "users" husers, hindexed', hplaces, hmem htaken, hagain, hswap b hb hab⟩, rfl⟩

end Tables

end MemoryStore

end PayloadAtlas
