import Mathlib.Data.List.Lex
import Mathlib.Data.Prod.Lex
import Mathlib.Data.String.Basic
import PayloadAtlas.Path

/-!
# The order of paths

Paths are ordered by their components, and these by rank and then as texts. Sorting is stable, so that paths may
be left out before or after it (`Path.sorted_filter`).
-/

namespace PayloadAtlas

section Sorting

variable {α : Type} {le : α → α → Bool}

/-- A list is cut in one way only into items with `p` and, after them, items without it. -/
theorem append_inj_of_forall {p : α → Prop} {as bs cs ds : List α} (h : as ++ bs = cs ++ ds)
    (has : ∀ x ∈ as, p x) (hbs : ∀ x ∈ bs, ¬p x) (hcs : ∀ x ∈ cs, p x) (hds : ∀ x ∈ ds, ¬p x) :
    as = cs ∧ bs = ds := by
  -- an item with `p` on the one side has none without it opposite
  induction as generalizing cs with
  | nil =>
    cases cs with
    | nil => exact ⟨rfl, h⟩
    | cons c cs =>
      rw [List.nil_append] at h
      exact absurd (hcs c List.mem_cons_self) (hbs c (h ▸ List.mem_cons_self))
  | cons a as ih =>
    obtain ⟨ha, has⟩ := List.forall_mem_cons.mp has
    cases cs with
    | nil =>
      rw [List.nil_append] at h
      exact absurd ha (hds a (h ▸ List.mem_cons_self))
    | cons c cs =>
      obtain ⟨rfl, htail⟩ := List.cons.inj h
      obtain ⟨rfl, rfl⟩ := ih htail has (List.forall_mem_cons.mp hcs).2
      exact ⟨rfl, rfl⟩

/-- An item `a` is sorted in after those that it is after, and before the others. -/
theorem mergeSort_cons_cut (trans : ∀ a b c, le a b → le b c → le a c) (total : ∀ a b, le a b || le b a)
    (a : α) (xs : List α) :
    ∃ before after, (a :: xs).mergeSort le = before ++ a :: after ∧ xs.mergeSort le = before ++ after ∧
      (∀ b ∈ before, ¬le a b = true) ∧ ∀ b ∈ after, le a b = true := by
  obtain ⟨before, after, hsorted, hrest, hbefore⟩ := List.mergeSort_cons trans total a xs
  have hpairwise := List.pairwise_mergeSort trans total (a :: xs)
  rw [hsorted] at hpairwise
  refine ⟨before, after, hsorted, hrest, fun b hb => by simpa using hbefore b hb, ?_⟩
  exact (List.pairwise_cons.mp (List.pairwise_append.mp hpairwise).2.1).1

/-- What is left out of a list may be left out before or after it is sorted. -/
theorem mergeSort_filter (trans : ∀ a b c, le a b → le b c → le a c) (total : ∀ a b, le a b || le b a)
    (keep : α → Bool) (xs : List α) : (xs.filter keep).mergeSort le = (xs.mergeSort le).filter keep := by
  induction xs with
  | nil => simp
  | cons a xs ih =>
    obtain ⟨before, after, hsorted, hrest, hbefore, hafter⟩ := mergeSort_cons_cut trans total a xs
    rw [hsorted, List.filter_append]
    cases hkeep : keep a with
    | false =>
      rw [List.filter_cons_of_neg (by simp [hkeep]), List.filter_cons_of_neg (by simp [hkeep]), ih, hrest,
        List.filter_append]
    | true =>
      -- `a` stands between the same items, whether the others are left out before or after
      obtain ⟨before', after', hsorted', hrest', hbefore', hafter'⟩ :=
        mergeSort_cons_cut trans total a (xs.filter keep)
      rw [ih, hrest, List.filter_append] at hrest'
      have hkept {ys : List α} {p : α → Prop} (h : ∀ b ∈ ys, p b) : ∀ b ∈ ys.filter keep, p b :=
        fun b hb => h b (List.mem_filter.mp hb).1
      obtain ⟨hleft, hright⟩ := append_inj_of_forall hrest' (hkept hbefore)
        (hkept fun b hb => not_not.mpr (hafter b hb)) hbefore' fun b hb => not_not.mpr (hafter' b hb)
      rw [List.filter_cons_of_pos hkeep, List.filter_cons_of_pos hkeep, hsorted', hleft, hright]

end Sorting

namespace Path

/-! ## Components -/

theorem cut_ne_nil (sep : Char) (cs : List Char) : cut sep cs ≠ [] := by
  cases cs with
  | nil => simp [cut]
  | cons c rest =>
    rw [cut]
    split
    · simp
    · split <;> simp

/-- The text before a separator and the text after it are `cut` each by itself. -/
theorem cut_append (sep : Char) (as bs : List Char) : cut sep (as ++ sep :: bs) = cut sep as ++ cut sep bs := by
  induction as with
  | nil =>
    obtain ⟨piece, pieces, hbs⟩ := List.exists_cons_of_ne_nil (cut_ne_nil sep bs)
    simp [cut, hbs]
  | cons c as ih =>
    obtain ⟨piece, pieces, has⟩ := List.exists_cons_of_ne_nil (cut_ne_nil sep as)
    rw [List.cons_append, cut, cut, ih, has]
    dsimp only [List.cons_append]
    split_ifs <;> rfl

theorem pieces_ne_nil (p : String) : pieces p ≠ [] := by simp [pieces, cut_ne_nil]

/-- A slash between two texts adds the `pieces` of the second to those of the first. -/
theorem pieces_append (a b : String) : pieces (a ++ "/" ++ b) = pieces a ++ pieces b := by
  have hchars : (a ++ "/" ++ b).toList = a.toList ++ '/' :: b.toList := by simp
  rw [pieces, pieces, pieces, hchars, cut_append, List.map_append]

/-- What comes after a slash adds the pieces of `b` that count. -/
theorem components_append {a : String} (ha : a ≠ "") (b : String) :
    components (a ++ "/" ++ b) = components a ++ (pieces b).filter counts := by
  have hne : a ++ "/" ++ b ≠ "" := by simp [String.append_eq_empty_iff]
  obtain ⟨first, rest, hpieces⟩ := List.exists_cons_of_ne_nil (pieces_ne_nil a)
  rw [components, components, if_neg hne, if_neg ha, pieces_append, hpieces]
  simp

theorem cut_of_notMem {sep : Char} {cs : List Char} (h : sep ∉ cs) : cut sep cs = [cs] := by
  induction cs with
  | nil => rfl
  | cons c cs ih =>
    rw [List.mem_cons, not_or] at h
    rw [cut, ih h.2]
    exact if_neg (Ne.symm h.1)

theorem pieces_of_notMem {name : String} (h : '/' ∉ name.toList) : pieces name = [name] := by
  rw [pieces, cut_of_notMem h, List.map_singleton, String.ofList_toList]

theorem isAbsolute_of_notMem {name : String} (h : '/' ∉ name.toList) : isAbsolute name = false := by
  rw [isAbsolute, beq_eq_false_iff_ne]
  exact fun hhead => h (List.mem_of_mem_head? hhead)

/-- The pieces of a path that goes on with a name. A slash at its end is what the name is cut off at. -/
theorem exists_pieces_join {a : String} (ha : a ≠ "") {name : String} (hname : '/' ∉ name.toList) :
    ∃ before, before ≠ [] ∧ pieces (join a name) = before ++ [name] ∧
      (pieces a = before ∨ pieces a = before ++ [""]) := by
  rw [join, isAbsolute_of_notMem hname, if_neg Bool.false_ne_true]
  -- after an open end the name follows at once, and after any other a slash comes first
  split
  · next hopen =>
    rcases Bool.or_eq_true_iff.mp hopen with hempty | hopen
    · exact absurd (of_decide_eq_true hempty) ha
    · rw [endsOpen, beq_iff_eq] at hopen
      obtain ⟨cs, hcs⟩ := List.getLast?_eq_some_iff.mp hopen
      have hcut (b : String) : (cut '/' (a ++ b).toList).map String.ofList =
          (cut '/' cs).map String.ofList ++ pieces b := by
        rw [String.toList_append, hcs, List.append_assoc, List.singleton_append, cut_append, List.map_append, pieces]
      refine ⟨(cut '/' cs).map String.ofList, by simp [cut_ne_nil], ?_, .inr ?_⟩
      · rw [pieces, hcut, pieces_of_notMem hname]
      · have h := hcut ""
        rwa [String.append_empty] at h
  · exact ⟨pieces a, pieces_ne_nil a, by rw [pieces_append, pieces_of_notMem hname], .inl rfl⟩

theorem components_of_pieces {a : String} (ha : a ≠ "") {first : String} {rest : List String}
    (h : pieces a = first :: rest) : components a = (if first = "" then "/" else first) :: rest.filter counts := by
  rw [components, if_neg ha, h]

theorem exists_components_slash (a : String) {name : String} (hname : '/' ∉ name.toList)
    (hcounts : counts name = true) : ∃ before, components (a ++ "/" ++ name) = before ++ [name] := by
  obtain ⟨first, rest, hpieces⟩ := List.exists_cons_of_ne_nil (pieces_ne_nil a)
  have hjoin : pieces (a ++ "/" ++ name) = first :: (rest ++ [name]) := by
    rw [pieces_append, hpieces, pieces_of_notMem hname, List.cons_append]
  have hself : [name].filter counts = [name] := List.filter_cons_of_pos hcounts
  refine ⟨(if first = "" then "/" else first) :: rest.filter counts, ?_⟩
  rw [components_of_pieces (by simp [String.append_eq_empty_iff]) hjoin, List.filter_append, hself, List.cons_append]

/-- A name makes every path longer, so that `join` is never empty. -/
theorem join_ne_empty {a : String} (ha : a ≠ "") {name : String} (hname : '/' ∉ name.toList) : join a name ≠ "" := by
  rw [join, isAbsolute_of_notMem hname, if_neg Bool.false_ne_true]
  split <;> simp [String.append_eq_empty_iff, ha]

/-- The components of `join a name` are those of `a` and the name. -/
theorem components_join {a : String} (ha : a ≠ "") {name : String} (hname : '/' ∉ name.toList)
    (hcounts : counts name = true) : components (join a name) = components a ++ [name] := by
  obtain ⟨before, hbefore, hjoin, hpieces⟩ := exists_pieces_join ha hname
  obtain ⟨first, more, rfl⟩ := List.exists_cons_of_ne_nil hbefore
  have hblank : [""].filter counts = [] := rfl
  have hself : [name].filter counts = [name] := List.filter_cons_of_pos hcounts
  rw [List.cons_append] at hjoin
  rw [components_of_pieces (join_ne_empty ha hname) hjoin, List.filter_append, hself]
  rcases hpieces with hpieces | hpieces
  · rw [components_of_pieces ha hpieces, List.cons_append]
  · rw [List.cons_append] at hpieces
    rw [components_of_pieces ha hpieces, List.filter_append, hblank, List.append_nil, List.cons_append]

/-- The name is the last component of `join a name`, also where `a` is empty. -/
theorem exists_components_join (a : String) {name : String} (hname : '/' ∉ name.toList)
    (hcounts : counts name = true) : ∃ before, components (join a name) = before ++ [name] := by
  by_cases ha : a = ""
  · have hne : name ≠ "" := by
      rintro rfl
      exact absurd hcounts (by decide)
    refine ⟨[], ?_⟩
    rw [ha, join, isAbsolute_of_notMem hname, if_neg Bool.false_ne_true, if_pos (by decide), String.empty_append,
      components_of_pieces hne (pieces_of_notMem hname), if_neg hne]
    rfl
  · exact ⟨components a, components_join ha hname hcounts⟩

/-! ## Order -/

/-- The place of a component among others: its `rank`, and then its text. -/
def key (c : String) : Nat ×ₗ String := toLex (rank c, c)

theorem key_injective : Function.Injective key := fun _ _ h => congrArg (fun k => (ofLex k).2) h

/-- The order of `notAfter` is the lexicographic one of the keys of the components. -/
theorem not_notAfter_iff {as bs : List String} : ¬notAfter as bs = true ↔ bs.map key < as.map key := by
  induction as generalizing bs with
  | nil => simp [notAfter]
  | cons a as ih =>
    cases bs with
    | nil => simp [notAfter]
    | cons b bs =>
      rw [notAfter, List.map_cons, List.map_cons, List.cons_lt_cons_iff, ← ih]
      -- the first parts that differ decide, by rank and then by text
      by_cases hab : a = b
      · subst hab
        simp
      · have hkey : key b ≠ key a := fun h => hab (key_injective h).symm
        have hlt : key b < key a ↔ rank b < rank a ∨ rank b = rank a ∧ b < a := Prod.Lex.toLex_lt_toLex
        rw [if_neg hab, hlt]
        simp only [hkey, false_and, or_false]
        split_ifs with hrank
        · have hle : ¬a < b ↔ b < a := not_lt.trans ⟨fun h => lt_of_le_of_ne h (Ne.symm hab), le_of_lt⟩
          rw [decide_eq_true_eq, hle, hrank]
          simp only [lt_irrefl, true_and, false_or]
        · rw [decide_eq_true_eq]
          omega

theorem notAfter_iff {as bs : List String} : notAfter as bs = true ↔ as.map key ≤ bs.map key := by
  rw [← not_lt, ← not_notAfter_iff, not_not]

theorem notAfter_trans (as bs cs : List String) (h : notAfter as bs = true) (h' : notAfter bs cs = true) :
    notAfter as cs = true :=
  notAfter_iff.mpr (le_trans (notAfter_iff.mp h) (notAfter_iff.mp h'))

theorem notAfter_total (as bs : List String) : (notAfter as bs || notAfter bs as) = true := by
  rw [Bool.or_eq_true, notAfter_iff, notAfter_iff]
  exact le_total _ _

/-- Leaving paths out keeps the others in their order, so `filter` may come before or after `sorted`. -/
theorem sorted_filter (keep : String → Bool) (ps : List String) : sorted (ps.filter keep) = (sorted ps).filter keep :=
  mergeSort_filter (fun a b c => notAfter_trans (components a) (components b) (components c))
    (fun a b => notAfter_total (components a) (components b)) keep ps

/-- The paths of `sorted ps` are in the order of the keys of their components. -/
theorem pairwise_sorted (ps : List String) :
    (sorted ps).Pairwise fun p q => (components p).map key ≤ (components q).map key := by
  have hsorted := List.pairwise_mergeSort
    (fun a b c => notAfter_trans (components a) (components b) (components c))
    (fun a b => notAfter_total (components a) (components b)) ps
  exact hsorted.imp notAfter_iff.mp

end Path

end PayloadAtlas
