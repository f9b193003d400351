import Mathlib.Data.List.Induction
import PayloadAtlas.Proofs.Json.Equality
import PayloadAtlas.Proofs.Store.Memory

/-!
# One row for each key

Rows that are distinct in a column stay so when a row with a value there is written (`Distinct.place`). If the value
is a text, the row takes the place of the one row with its key, or comes last (`mem_place`). After any number of such
writings each row is, as a whole, the one that was written last with its key, or was there before and no row was
written with its key (`OneEach`); `OneEach.place` adds one writing more.
-/

namespace PayloadAtlas.MemoryStore

open Json (Value)

variable {column k : String} {r x y : Value} {R X : List Value}

/-- Whether two rows have the same value in a column. -/
def sameKey (column : String) (x y : Value) : Bool :=
  match y.get? column with
  | some v => holds column v x
  | none => false

/-- Whether no two rows have the same value in `column`. -/
def Distinct (column : String) (rows : List Value) : Prop :=
  rows.Pairwise fun x y => sameKey column x y = false

instance (column : String) (rows : List Value) : Decidable (Distinct column rows) :=
  inferInstanceAs (Decidable (rows.Pairwise _))

/-- The row that was written last with the key of a row. -/
def lastWritten (column : String) (x : Value) (written : List Value) : Option Value :=
  written.findRev? (sameKey column x)

/-- The rows `written` were written over those `before`, and there is one row for each key. -/
structure OneEach (column : String) (before written after : List Value) : Prop where
  distinct : Distinct column after
  /-- Each row is the one that was written last with its key, or an old one if none was. -/
  whole : ∀ x ∈ after, lastWritten column x written = some x ∨
    lastWritten column x written = none ∧ x ∈ before
  /-- No key got lost. -/
  kept : ∀ y, y ∈ before ∨ y ∈ written → ∃ x ∈ after, x = y ∨ sameKey column x y = true

theorem get?_of_textAt (h : textAt column x = some k) : x.get? column = some (.string k) := by
  obtain ⟨v, hv, hk⟩ := Option.bind_eq_some_iff.mp h
  cases v with
  | string s => rw [hv, Option.some.inj hk]
  | _ => exact absurd hk (by simp [Value.string?])

/-- Two rows have the same key if both have values in the column, and these are the same. -/
theorem sameKey_iff : sameKey column x y = true ↔
    ∃ v w, x.get? column = some v ∧ y.get? column = some w ∧ v.same w = true := by
  unfold sameKey holds
  cases x.get? column <;> cases y.get? column <;> simp

theorem sameKey_trans (h : sameKey column x y = true) (h' : sameKey column y r = true) :
    sameKey column x r = true := by
  obtain ⟨v, w, hv, hw, hsame⟩ := sameKey_iff.mp h
  obtain ⟨w', u, hw', hu, hsame'⟩ := sameKey_iff.mp h'
  obtain rfl := Option.some.inj (hw.symm.trans hw')
  exact sameKey_iff.mpr ⟨v, u, hv, hu, Value.same_trans hsame hsame'⟩

/-- A row is written by `place` over the first one with its key, or put after all. -/
theorem place_cons_of_get? {v : Value} (h : r.get? column = some v) :
    place column r (x :: X) = if sameKey column x r = true then r :: X else x :: place column r X := by
  rw [place, conflictValue, sameKey, h, Option.getD_some]

/-- A row has the key of one with a text if that is its own. -/
theorem sameKey_right (h : r.get? column = some (.string k)) :
    sameKey column x r = true ↔ textAt column x = some k := by
  simp only [sameKey, h, holds_string]

/-- So it is the other way round. -/
theorem sameKey_left (h : r.get? column = some (.string k)) :
    sameKey column r x = true ↔ textAt column x = some k := by
  unfold sameKey textAt
  cases x.get? column with
  | none => simp
  | some v =>
    cases v with
    | string s => simpa [holds, h, Value.same, Value.string?] using eq_comm
    | _ => simp [holds, h, Value.same, Value.string?]

/-- Writing a row by `place` adds no other one. -/
theorem mem_place_imp (h : x ∈ place column r X) : x = r ∨ x ∈ X := by
  induction X with
  | nil => exact .inl (List.mem_singleton.mp h)
  | cons y Y ih =>
    rw [place] at h
    split at h
    · rcases List.mem_cons.mp h with hx | hx
      · exact .inl hx
      · exact .inr (List.mem_cons_of_mem y hx)
    · rcases List.mem_cons.mp h with rfl | hx
      · exact .inr List.mem_cons_self
      · exact (ih hx).imp_right (List.mem_cons_of_mem y)

/-- A row `r` that is written replaces all with its key, of which there is one at most. -/
theorem mem_place (hX : Distinct column X) (hr : r.get? column = some (.string k)) :
    x ∈ place column r X ↔ x = r ∨ x ∈ X ∧ textAt column x ≠ some k := by
  -- along the rows, up to the one that is written over
  induction X with
  | nil => simp [place]
  | cons y Y ih =>
    obtain ⟨hy, hY⟩ := List.pairwise_cons.mp hX
    rw [place_cons hr, textAt_of_get? hr]
    by_cases hkey : textAt column y = some k
    · -- `y` is written over, and no row after it has its key
      have hothers : x ∈ Y → textAt column x ≠ some k := by
        intro hx hxk
        have hsame := (sameKey_left (get?_of_textAt hkey)).mpr hxk
        rw [hy x hx] at hsame
        exact Bool.false_ne_true hsame
      rw [if_pos hkey, List.mem_cons, List.mem_cons]
      refine or_congr_right ⟨fun hx => ⟨.inr hx, hothers hx⟩, ?_⟩
      rintro ⟨rfl | hx, hne⟩
      · exact absurd hkey hne
      · exact hx
    · rw [if_neg hkey, List.mem_cons, ih hY, List.mem_cons]
      constructor
      · rintro (rfl | rfl | ⟨hx, hne⟩)
        · exact .inr ⟨.inl rfl, hkey⟩
        · exact .inl rfl
        · exact .inr ⟨.inr hx, hne⟩
      · rintro (rfl | ⟨rfl | hx, hne⟩)
        · exact .inr (.inl rfl)
        · exact .inl rfl
        · exact .inr (.inr ⟨hx, hne⟩)

/-- What has the value of the row that is written has that of the row that is written over, too. -/
theorem Distinct.place {v : Value} (hX : Distinct column X) (hr : r.get? column = some v) :
    Distinct column (place column r X) := by
  induction X with
  | nil => exact List.pairwise_singleton _ _
  | cons y Y ih =>
    obtain ⟨hy, hY⟩ := List.pairwise_cons.mp hX
    rw [place_cons_of_get? hr]
    split
    · next hkey =>
      refine List.pairwise_cons.mpr ⟨fun x hx => Bool.eq_false_iff.mpr fun hrx => ?_, hY⟩
      exact Bool.eq_false_iff.mp (hy x hx) (sameKey_trans hkey hrx)
    · next hkey =>
      refine List.pairwise_cons.mpr ⟨fun x hx => ?_, ih hY⟩
      rcases mem_place_imp hx with rfl | hx
      · exact Bool.eq_false_iff.mpr hkey
      · exact hy x hx

theorem lastWritten_concat (column : String) (x : Value) (R : List Value) (r : Value) :
    lastWritten column x (R ++ [r]) = if sameKey column x r then some r else lastWritten column x R := by
  rw [lastWritten, lastWritten, List.findRev?_eq_find?_reverse, List.findRev?_eq_find?_reverse,
    List.reverse_concat, List.find?_cons]
  cases sameKey column x r <;> rfl

/-- One more row is written, over the one with its key or after all. -/
theorem OneEach.place {before after : List Value} (h : OneEach column before R after)
    (hr : r.get? column = some (.string k)) :
    OneEach column before (R ++ [r]) (place column r after) := by
  -- keys stay distinct, each row is the last with its key, and no key is lost
  refine ⟨h.distinct.place hr, fun x hx => ?_, fun y hy => ?_⟩
  · rw [lastWritten_concat]
    rcases (mem_place h.distinct hr).mp hx with rfl | ⟨hx, hne⟩
    · rw [if_pos ((sameKey_right hr).mpr (textAt_of_get? hr))]
      exact .inl rfl
    · rw [if_neg (by rwa [sameKey_right hr])]
      exact h.whole x hx
  · have hnew : r ∈ MemoryStore.place column r after := (mem_place h.distinct hr).mpr (.inl rfl)
    have hold : y ∈ before ∨ y ∈ R → ∃ x ∈ MemoryStore.place column r after, x = y ∨ sameKey column x y = true := by
      intro hy
      obtain ⟨x, hx, hxy⟩ := h.kept y hy
      -- the row that stood for `y` may be the one that is written over; then `r` stands for it
      by_cases hkey : textAt column x = some k
      · refine ⟨r, hnew, .inr ?_⟩
        rcases hxy with rfl | hxy
        · exact (sameKey_left hr).mpr hkey
        · exact (sameKey_left hr).mpr ((sameKey_left (get?_of_textAt hkey)).mp hxy)
      · exact ⟨x, (mem_place h.distinct hr).mpr (.inr ⟨hx, hkey⟩), hxy⟩
    rcases hy with hy | hy
    · exact hold (.inl hy)
    · rcases List.mem_append.mp hy with hy | hy
      · exact hold (.inr hy)
      · exact ⟨r, hnew, .inl (List.mem_singleton.mp hy).symm⟩

theorem oneEach_refl (h : Distinct column X) : OneEach column X [] X :=
  ⟨h, fun _ hx => .inr ⟨rfl, hx⟩, fun y hy => ⟨y, by simpa using hy, .inl rfl⟩⟩

end PayloadAtlas.MemoryStore
