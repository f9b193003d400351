import Mathlib.Data.String.Basic
import PayloadAtlas.Proofs.Text.Case
import PayloadAtlas.Text.LetterCase

/-!
# Capitals

There are two ways to write a text in capitals: all its letters by the rules of Unicode (`uppercase`), or its ASCII
letters alone. They agree on a text just if every character outside ASCII is its own capital (`uppercase_eq_iff`).
What the rules of Unicode give is always made of such characters (`isCapital_of_mem_upperChar`), as is checked for
each entry of the tables.
-/

namespace PayloadAtlas.Text

variable {c x : Char} {n : Nat} {s t : String}

/-- A character is its own capital by `upperChar`, as those without case are. -/
def IsCapital (c : Char) : Prop := upperChar c = [c]

instance (c : Char) : Decidable (IsCapital c) := inferInstanceAs (Decidable (_ = _))

/-- Every letter of a text that is outside ASCII is its own capital. -/
def IsCapitalBeyondAscii (s : String) : Prop := ∀ c ∈ s.toList, 0x80 ≤ c.toNat → IsCapital c

instance (s : String) : Decidable (IsCapitalBeyondAscii s) :=
  inferInstanceAs (Decidable (∀ c ∈ s.toList, 0x80 ≤ c.toNat → IsCapital c))

/-! ## What the tables map to -/

/-- A run says what the code point `n` is mapped to. -/
def CaseRun.Covers (r : CaseRun) (n : Nat) : Prop := r.first ≤ n ∧ n ≤ r.last ∧ (n - r.first) % r.stride = 0

/-- What a run maps a code point to, by its `shift`. -/
def CaseRun.image (r : CaseRun) (n : Nat) : Nat := ((n : Int) + r.shift).toNat

/-- The run that `findRun` answers is in the table, and covers the code point. -/
theorem covers_of_findRun {table : Array CaseRun} {fuel lo hi : Nat} {r : CaseRun}
    (h : findRun table n fuel lo hi = some r) : r ∈ table ∧ r.Covers n := by
  -- on the fuel: the search goes on in one half, or ends with the run in the middle
  induction fuel generalizing lo hi with
  | zero => cases h
  | succ fuel ih =>
    rw [findRun] at h
    split at h
    · cases hmid : table[(lo + hi) / 2]? with
      | none => simp [hmid] at h
      | some m =>
        simp only [hmid] at h
        split at h
        · exact ih h
        · next hfirst =>
          split at h
          · exact ih h
          · next hlast =>
            split at h
            · next hstride =>
              obtain rfl := Option.some.inj h
              exact ⟨Array.mem_of_getElem? hmid, Nat.le_of_not_lt hfirst, Nat.le_of_not_lt hlast, hstride⟩
            · cases h
    · cases h

/-- The code points that a run covers, in order: every one of its `stride`. -/
def CaseRun.codePoints (r : CaseRun) : List Nat :=
  (List.range ((r.last - r.first) / r.stride + 1)).map fun k => r.first + k * r.stride

/-- A code point that is covered is one of `codePoints`. -/
theorem CaseRun.Covers.mem_codePoints {r : CaseRun} (h : r.Covers n) : n ∈ r.codePoints := by
  obtain ⟨hfirst, hlast, hstride⟩ := h
  refine List.mem_map.mpr ⟨(n - r.first) / r.stride, ?_, ?_⟩
  · rw [List.mem_range, Nat.lt_succ_iff]
    exact Nat.div_le_div_right (by omega)
  · rw [Nat.div_mul_cancel (Nat.dvd_of_mod_eq_zero hstride)]
    omega

/-- The code point `n` is that of a character that the runs map to itself. -/
def IsSettled (n : Nat) : Prop :=
  n.isValidChar ∧ if n < 0x80 then (Char.ofNat n).toUpper = Char.ofNat n
    else findRun upperRuns n (Nat.log2 upperRuns.size + 2) 0 upperRuns.size = none

instance (n : Nat) : Decidable (IsSettled n) := inferInstanceAs (Decidable (_ ∧ _))

set_option maxRecDepth 10000 in
/-- What a character is mapped to, if to several, are capitals. -/
theorem isCapital_upperSequences : ∀ p ∈ upperSequences, ∀ n ∈ p.2, IsCapital (Char.ofNat n) := by decide +kernel

set_option maxRecDepth 10000 in
theorem upperSequences_ne_nil : ∀ p ∈ upperSequences, p.2 ≠ [] := by decide +kernel

set_option maxRecDepth 10000 in
theorem isSettled_image : ∀ r ∈ upperRuns.toList, ∀ n ∈ r.codePoints, IsSettled (r.image n) := by decide +kernel

set_option maxRecDepth 10000 in
/-- No character of `upperSequences` lies between what a run maps its ends to. -/
theorem upperSequences_outside {p : Nat × List Nat} {r : CaseRun} (hp : p ∈ upperSequences)
    (hr : r ∈ upperRuns.toList) :
    p.1 < r.image r.first ∨ r.image r.last < p.1 := by
  have hall : (upperRuns.toList.all fun r => upperSequences.all fun p =>
      p.1.blt (r.image r.first) || (r.image r.last).blt p.1) = true := by decide +kernel
  have hone := List.all_eq_true.mp (List.all_eq_true.mp hall r hr) p hp
  rwa [Bool.or_eq_true, Nat.blt_eq, Nat.blt_eq] at hone

theorem ne_image {p : Nat × List Nat} {r : CaseRun} (hp : p ∈ upperSequences) (hr : r ∈ upperRuns.toList)
    (h : r.Covers n) : p.1 ≠ r.image n := by
  obtain ⟨hfirst, hlast, -⟩ := h
  have houtside := upperSequences_outside hp hr
  intro himage
  -- a run maps what lies between its ends to what lies between their images
  simp only [CaseRun.image] at houtside himage
  omega

/-! ## What is a capital stays one -/

theorem mem_of_lookup {cs : List Nat} (h : upperSequences.lookup n = some cs) : (n, cs) ∈ upperSequences := by
  obtain ⟨before, after, hsplit, -⟩ := List.lookup_eq_some_iff.mp h
  rw [hsplit]
  exact List.mem_append_right before List.mem_cons_self

/-- An ASCII letter in `toUpper` is a capital. -/
theorem isCapital_toUpper (h : c.toNat < 0x80) : IsCapital c.toUpper := by
  rw [IsCapital, upperChar, if_pos (toNat_toUpper_lt h), toUpper_toUpper]

/-- What is mapped to itself by the runs, and not to several, is a capital. -/
theorem isCapital_of_isSettled (h : IsSettled n) (hkey : ∀ p ∈ upperSequences, p.1 ≠ n) :
    IsCapital (Char.ofNat n) := by
  obtain ⟨hvalid, hsettled⟩ := h
  have hnone : upperSequences.lookup n = none := by
    rw [List.lookup_eq_none_iff]
    intro p hp
    simpa using (hkey p hp).symm
  rw [IsCapital, upperChar, mapByRuns, toNat_ofNat hvalid, hnone]
  split at hsettled
  · next hascii => rw [if_pos hascii, hsettled]
  · next hascii => rw [if_neg hascii, hsettled]

/-- What the runs map a character to is a capital. -/
theorem isCapital_mapByRuns (hascii : ¬c.toNat < 0x80) (hc : upperSequences.lookup c.toNat = none) :
    IsCapital (mapByRuns upperRuns c) := by
  cases hrun : findRun upperRuns c.toNat (Nat.log2 upperRuns.size + 2) 0 upperRuns.size with
  | none =>
    have hself : mapByRuns upperRuns c = c := by rw [mapByRuns, hrun]
    rw [hself, IsCapital, upperChar, if_neg hascii, hc, hself]
  | some r =>
    obtain ⟨hr, hcovers⟩ := covers_of_findRun hrun
    rw [← Array.mem_toList_iff] at hr
    rw [mapByRuns, hrun]
    exact isCapital_of_isSettled (isSettled_image r hr c.toNat hcovers.mem_codePoints)
      fun p hp => ne_image hp hr hcovers

/-- Whatever `upperChar` maps to is a capital. -/
theorem isCapital_of_mem_upperChar (h : x ∈ upperChar c) : IsCapital x := by
  rw [upperChar] at h
  -- as the tables are looked at: ASCII, then characters that become several, then the runs
  split at h
  · next hascii =>
    rw [List.mem_singleton.mp h]
    exact isCapital_toUpper hascii
  · next hascii =>
    split at h
    · next cs hlookup =>
      obtain ⟨n, hn, rfl⟩ := List.mem_map.mp h
      exact isCapital_upperSequences _ (mem_of_lookup hlookup) n hn
    · next hlookup =>
      rw [List.mem_singleton.mp h]
      exact isCapital_mapByRuns hascii hlookup

/-! ## Texts in capitals -/

theorem upperChar_ne_nil (c : Char) : upperChar c ≠ [] := by
  rw [upperChar]
  split
  · exact List.cons_ne_nil _ _
  · split
    · next cs hlookup => exact List.map_eq_nil_iff.not.mpr (upperSequences_ne_nil _ (mem_of_lookup hlookup))
    · exact List.cons_ne_nil _ _

/-- If every item gives something by `f`, then what all give together is `g` of each just if each gives that. -/
theorem flatMap_eq_map_iff {α β : Type} {f : α → List β} {g : α → β} (hf : ∀ a, f a ≠ []) {l : List α} :
    l.flatMap f = l.map g ↔ ∀ a ∈ l, f a = [g a] := by
  have hlength : ∀ l : List α, l.length ≤ (l.flatMap f).length := by
    intro l
    induction l with
    | nil => exact Nat.le_refl _
    | cons a l ih =>
      have hpositive := List.length_pos_iff.mpr (hf a)
      rw [List.flatMap_cons, List.length_append, List.length_cons]
      omega
  induction l with
  | nil => simp
  | cons a l ih =>
    rw [List.flatMap_cons, List.map_cons, List.forall_mem_cons]
    constructor
    · intro h
      cases ha : f a with
      | nil => exact absurd ha (hf a)
      | cons b bs =>
        rw [ha, List.cons_append, List.cons.injEq] at h
        have hsum := congrArg List.length h.2
        rw [List.length_append, List.length_map] at hsum
        -- the others give one thing each at least, so that no more than one is left for `a`
        have hnil : bs = [] := List.eq_nil_of_length_eq_zero (by have := hlength l; omega)
        rw [hnil, List.nil_append] at h
        exact ⟨by rw [h.1, hnil], ih.mp h.2⟩
    · rintro ⟨ha, hl⟩
      rw [ha, ih.mpr hl, List.singleton_append]

/-- The ASCII capital of a character is a capital, unless the character is another one beyond ASCII. -/
theorem isCapital_toUpper_iff : IsCapital c.toUpper ↔ (0x80 ≤ c.toNat → IsCapital c) := by
  by_cases hascii : c.toNat < 0x80
  · exact iff_of_true (isCapital_toUpper hascii) fun hbeyond => absurd hascii (Nat.not_lt.mpr hbeyond)
  · have hbeyond := Nat.le_of_not_lt hascii
    rw [toUpper_of_beyondAscii hbeyond]
    exact ⟨fun h _ => h, fun h => h hbeyond⟩

/-- Whether a text has other letters than capitals beyond ASCII is told from its `toUpper`. -/
theorem isCapitalBeyondAscii_iff : IsCapitalBeyondAscii s ↔ ∀ c ∈ (s.map Char.toUpper).toList, IsCapital c := by
  rw [String.toList_map, List.forall_mem_map]
  simp only [isCapital_toUpper_iff]
  rfl

/-- A text in `uppercase` is as it is with ASCII capitals just if `IsCapitalBeyondAscii`. -/
theorem uppercase_eq_iff : uppercase s = s.map Char.toUpper ↔ IsCapitalBeyondAscii s := by
  rw [← String.toList_inj, uppercase, String.toList_ofList, String.toList_map, flatMap_eq_map_iff upperChar_ne_nil]
  refine forall₂_congr fun c _ => ?_
  by_cases hascii : c.toNat < 0x80
  · refine iff_of_true ?_ fun hbeyond => absurd hascii (Nat.not_lt.mpr hbeyond)
    rw [upperChar, if_pos hascii]
  · have hbeyond := Nat.le_of_not_lt hascii
    rw [toUpper_of_beyondAscii hbeyond]
    exact ⟨fun h _ => h, fun h => h hbeyond⟩

/-- What is some text in `uppercase` has capitals only. -/
theorem isCapitalBeyondAscii_of_uppercase_eq (h : uppercase s = t.map Char.toUpper) : IsCapitalBeyondAscii t := by
  rw [isCapitalBeyondAscii_iff, ← h, uppercase, String.toList_ofList]
  intro x hx
  obtain ⟨c, -, hxc⟩ := List.mem_flatMap.mp hx
  exact isCapital_of_mem_upperChar hxc

end PayloadAtlas.Text
