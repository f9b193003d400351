import Mathlib.Data.List.Perm.Basic
import Mathlib.Data.String.Basic
import PayloadAtlas.Text.Order

/-!
# Laws of sorted texts

`sorted` puts texts in order and loses none of them (`sorted_perm`, `pairwise_sorted`). `sortedSet` keeps the
members of a list in strictly increasing order (`mem_sortedSet`, `pairwise_sortedSet`). A strictly increasing
list is known by its members, so that lists with the same members have the same `sortedSet` and no others do
(`sortedSet_eq_iff`).
-/

namespace PayloadAtlas.Text

/-! ## Order -/

/-- What `notAfter` decides is the order `≤` of texts. -/
theorem notAfter_iff {a b : String} : notAfter a b = true ↔ a ≤ b := by
  simp only [notAfter, Bool.not_eq_true', decide_eq_false_iff_not, not_lt]

/-- Sorting keeps the texts, each as often as it is there. -/
theorem sorted_perm (xs : List String) : (sorted xs).Perm xs := List.mergeSort_perm xs notAfter

/-- What is `sorted` is in order. -/
theorem pairwise_sorted (xs : List String) : (sorted xs).Pairwise (· ≤ ·) := by
  have h : (sorted xs).Pairwise (notAfter · ·) := by
    apply List.pairwise_mergeSort
    · intro a b c hab hbc
      exact notAfter_iff.mpr (le_trans (notAfter_iff.mp hab) (notAfter_iff.mp hbc))
    · intro a b
      rw [Bool.or_eq_true, notAfter_iff, notAfter_iff]
      exact le_total a b
  exact h.imp notAfter_iff.mp

/-- Whatever order the texts are given in, `sorted` is the same. -/
theorem sorted_eq_of_perm {xs ys : List String} (h : xs.Perm ys) : sorted xs = sorted ys :=
  ((sorted_perm xs).trans (h.trans (sorted_perm ys).symm)).eq_of_pairwise
    (fun _ _ _ _ hab hba => le_antisymm hab hba) (pairwise_sorted xs) (pairwise_sorted ys)

theorem sorted_eq_nil_iff {xs : List String} : sorted xs = [] ↔ xs = [] := by
  rw [← List.length_eq_zero_iff, (sorted_perm xs).length_eq, List.length_eq_zero_iff]

/-! ## Repetitions -/

/-- Which texts there are does not change by `dropRepeats`. -/
theorem mem_dropRepeats {x : String} {xs : List String} : x ∈ dropRepeats xs ↔ x ∈ xs := by
  induction xs with
  | nil => simp [dropRepeats]
  | cons a rest ih =>
    rw [dropRepeats, List.mem_cons, ← ih]
    cases h : dropRepeats rest with
    | nil => simp
    | cons y ys =>
      by_cases hay : a = y
      · simp [hay]
      · simp [hay]

/-- In an ordered list equal texts are neighbours, so that `dropRepeats` leaves none twice. -/
theorem pairwise_dropRepeats {xs : List String} (h : xs.Pairwise (· ≤ ·)) :
    (dropRepeats xs).Pairwise (· < ·) := by
  induction xs with
  | nil => simp [dropRepeats]
  | cons a rest ih =>
    obtain ⟨ha, hrest⟩ := List.pairwise_cons.mp h
    have hlt := ih hrest
    have hle : ∀ y ∈ dropRepeats rest, a ≤ y := fun y hy => ha y (mem_dropRepeats.mp hy)
    rw [dropRepeats]
    -- the first text is dropped just if the rest begins with it
    cases hd : dropRepeats rest with
    | nil => simp
    | cons y ys =>
      rw [hd] at hlt hle
      by_cases hay : a = y
      · simpa [hay] using hlt
      · have hay' : a < y := lt_of_le_of_ne (hle y (by simp)) hay
        simp only [hay, if_false]
        refine List.pairwise_cons.mpr ⟨?_, hlt⟩
        intro z hz
        rcases List.mem_cons.mp hz with rfl | hz
        · exact hay'
        · exact hay'.trans ((List.pairwise_cons.mp hlt).1 z hz)

/-- A `sortedSet` has the texts that it is made of. -/
theorem mem_sortedSet {x : String} {xs : List String} : x ∈ sortedSet xs ↔ x ∈ xs := by
  rw [sortedSet, mem_dropRepeats, (sorted_perm xs).mem_iff]

/-- A `sortedSet` is strictly increasing. -/
theorem pairwise_sortedSet (xs : List String) : (sortedSet xs).Pairwise (· < ·) :=
  pairwise_dropRepeats (pairwise_sorted xs)

/-- The only strictly increasing list with the same members is `sortedSet`. -/
theorem sortedSet_eq_of_pairwise {xs ys : List String} (hys : ys.Pairwise (· < ·)) (h : ∀ x, x ∈ xs ↔ x ∈ ys) :
    sortedSet xs = ys := by
  have hperm : (sortedSet xs).Perm ys := by
    refine (List.perm_ext_iff_of_nodup ?_ ?_).mpr ?_
    · exact (pairwise_sortedSet xs).imp ne_of_lt
    · exact hys.imp ne_of_lt
    · intro x
      rw [mem_sortedSet, h]
  exact hperm.eq_of_pairwise (fun a b _ _ hab hba => absurd hba hab.asymm) (pairwise_sortedSet xs) hys

/-- Lists with the same members, and no others, have one `sortedSet`. -/
theorem sortedSet_eq_iff {xs ys : List String} :
    sortedSet xs = sortedSet ys ↔ ∀ x, x ∈ xs ↔ x ∈ ys := by
  constructor
  · intro h x
    rw [← mem_sortedSet, h, mem_sortedSet]
  · intro h
    refine sortedSet_eq_of_pairwise (pairwise_sortedSet ys) fun x => ?_
    rw [mem_sortedSet, h]

/-- A strictly increasing list is its own `sortedSet`. -/
theorem sortedSet_of_pairwise {xs : List String} (h : xs.Pairwise (· < ·)) : sortedSet xs = xs :=
  sortedSet_eq_of_pairwise h fun _ => Iff.rfl

end PayloadAtlas.Text
