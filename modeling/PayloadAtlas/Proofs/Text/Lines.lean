import Mathlib.Data.List.Basic
import PayloadAtlas.Proofs.Path

/-!
# Lines

A text cut at its line ends (`Text.lines`). Texts that are put together with line ends have the lines of the one after
those of the other (`lines_intercalate`), and a text is one line just if there is no line end in it (`length_lines`).
-/

namespace PayloadAtlas.Text

variable {s : String}

/-- The lines of a text, between its `'\n'`; there is at least one. -/
def lines (s : String) : List String := (Path.cut '\n' s.toList).map String.ofList

/-- The first line begins as the text does. -/
theorem exists_cut_cons {c : Char} (hc : c ≠ '\n') (cs : List Char) :
    ∃ rest, Path.cut '\n' (c :: cs) = (c :: rest) :: (Path.cut '\n' cs).tail := by
  obtain ⟨piece, pieces, hcs⟩ := List.exists_cons_of_ne_nil (Path.cut_ne_nil '\n' cs)
  rw [Path.cut, hcs]
  exact ⟨piece, if_neg hc⟩

theorem lines_append (a b : String) : lines (a ++ "\n" ++ b) = lines a ++ lines b := by
  have hchars : (a ++ "\n" ++ b).toList = a.toList ++ '\n' :: b.toList := by simp
  rw [lines, lines, lines, hchars, Path.cut_append, List.map_append]

theorem lines_of_notMem (h : '\n' ∉ s.toList) : lines s = [s] := by
  rw [lines, Path.cut_of_notMem h, List.map_singleton, String.ofList_toList]

theorem notMem_of_mem_cut {cs piece : List Char} (h : piece ∈ Path.cut '\n' cs) : '\n' ∉ piece := by
  induction cs generalizing piece with
  | nil =>
    obtain rfl := List.mem_singleton.mp h
    exact List.not_mem_nil
  | cons c cs ih =>
    obtain ⟨first, others, hcs⟩ := List.exists_cons_of_ne_nil (Path.cut_ne_nil '\n' cs)
    rw [hcs] at ih
    rw [Path.cut, hcs] at h
    dsimp only at h
    split at h
    · rcases List.mem_cons.mp h with rfl | h
      · exact List.not_mem_nil
      · exact ih h
    · next hc =>
      rcases List.mem_cons.mp h with rfl | h
      · rw [List.mem_cons, not_or]
        exact ⟨Ne.symm hc, ih List.mem_cons_self⟩
      · exact ih (List.mem_cons_of_mem _ h)

theorem newLine_notMem_of_mem_lines {line : String} (h : line ∈ lines s) : '\n' ∉ line.toList := by
  obtain ⟨cs, hcs, rfl⟩ := List.mem_map.mp h
  rw [String.toList_ofList]
  exact notMem_of_mem_cut hcs

/-- There is one line more than there are line ends. -/
theorem length_lines (s : String) : (lines s).length = s.toList.count '\n' + 1 := by
  rw [lines, List.length_map]
  induction s.toList with
  | nil => rfl
  | cons c cs ih =>
    obtain ⟨piece, pieces, hcs⟩ := List.exists_cons_of_ne_nil (Path.cut_ne_nil '\n' cs)
    rw [hcs, List.length_cons] at ih
    rw [Path.cut, hcs, List.count_cons]
    dsimp only
    by_cases hc : c = '\n'
    · rw [if_pos hc, if_pos (by simp [hc]), List.length_cons, List.length_cons, ih]
    · rw [if_neg hc, if_neg (by simp [hc]), List.length_cons, ih]

/-- Texts with line ends between them have the `lines` of all of them. -/
theorem lines_intercalate {items : List String} (h : items ≠ []) :
    lines ("\n".intercalate items) = items.flatMap lines := by
  induction items with
  | nil => exact absurd rfl h
  | cons a items ih =>
    cases items with
    | nil => simp
    | cons b rest =>
      rw [String.intercalate_cons_cons, lines_append, ih (List.cons_ne_nil b rest)]
      rfl

theorem flatMap_lines {items : List String} (h : ∀ item ∈ items, '\n' ∉ item.toList) : items.flatMap lines = items := by
  induction items with
  | nil => rfl
  | cons item items ih =>
    obtain ⟨hitem, hitems⟩ := List.forall_mem_cons.mp h
    rw [List.flatMap_cons, lines_of_notMem hitem, ih hitems, List.singleton_append]

end PayloadAtlas.Text
