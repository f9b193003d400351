import Mathlib.Data.List.Forall2

/-!
# The case of ASCII letters

`toNat_toUpper` and `toNat_toLower` give the two cases of a character by its code, so that what they do to each other
is arithmetic. Two texts are the same but for the case of their ASCII letters (`SameLetters`) just if they are the
same in small letters (`map_toLower_eq_iff`), and just if they are the same in capitals (`map_toUpper_eq_iff`).
-/

namespace PayloadAtlas.Text

variable {c d : Char} {a b : String}

/-! ## Characters -/

theorem toNat_ofNat {n : Nat} (h : n.isValidChar) : (Char.ofNat n).toNat = n := by
  rw [Char.ofNat, dif_pos h]
  rfl

/-- The small letters have the codes from `97` to `122`, and `c.toUpper` is `32` below. -/
theorem toNat_toUpper (c : Char) :
    c.toUpper.toNat = if 97 ≤ c.toNat ∧ c.toNat ≤ 122 then c.toNat - 32 else c.toNat := by
  delta Char.toUpper
  split
  · next h =>
    have hcode : 97 ≤ c.toNat ∧ c.toNat ≤ 122 := by simpa [UInt32.le_iff_toNat_le] using h
    have hshift : ('A'.val - 'a'.val).toNat = 2 ^ 32 - 32 := by decide
    rw [if_pos hcode]
    simp only [Char.toNat, UInt32.toNat_add, hshift] at hcode ⊢
    omega
  · next h =>
    rw [if_neg]
    simpa [UInt32.le_iff_toNat_le] using h

/-- The capitals have the codes from `65` to `90`, and `c.toLower` is `32` above. -/
theorem toNat_toLower (c : Char) :
    c.toLower.toNat = if 65 ≤ c.toNat ∧ c.toNat ≤ 90 then c.toNat + 32 else c.toNat := by
  delta Char.toLower
  split
  · next h =>
    have hcode : 65 ≤ c.toNat ∧ c.toNat ≤ 90 := by simpa [UInt32.le_iff_toNat_le] using h
    have hshift : ('a'.val - 'A'.val).toNat = 32 := by decide
    rw [if_pos hcode]
    simp only [Char.toNat, UInt32.toNat_add, hshift] at hcode ⊢
    omega
  · next h =>
    rw [if_neg]
    simpa [UInt32.le_iff_toNat_le] using h

/-- Beyond ASCII `toUpper` leaves a character alone. -/
theorem toUpper_of_beyondAscii (h : 0x80 ≤ c.toNat) : c.toUpper = c := by
  rw [← Char.toNat_inj, toNat_toUpper]
  split_ifs <;> omega

/-- Beyond ASCII `toLower` leaves a character alone. -/
theorem toLower_of_beyondAscii (h : ¬c.toNat < 0x80) : c.toLower = c := by
  rw [← Char.toNat_inj, toNat_toLower]
  split_ifs <;> omega

theorem toNat_toUpper_lt (h : c.toNat < 0x80) : c.toUpper.toNat < 0x80 := by
  rw [toNat_toUpper]
  split_ifs <;> omega

theorem toLower_toLower (c : Char) : c.toLower.toLower = c.toLower := by
  rw [← Char.toNat_inj, toNat_toLower, toNat_toLower]
  split_ifs <;> omega

theorem toUpper_toUpper (c : Char) : c.toUpper.toUpper = c.toUpper := by
  rw [← Char.toNat_inj, toNat_toUpper, toNat_toUpper]
  split_ifs <;> omega

/-- Two characters have one `toLower` just if the one is the other, in one of its two cases. -/
theorem toLower_eq_iff : c.toLower = d.toLower ↔ d = c ∨ d = c.toLower ∨ d = c.toUpper := by
  simp only [← Char.toNat_inj, toNat_toLower, toNat_toUpper]
  split_ifs <;> omega

/-- Two characters have one `toUpper` just if the one is the other, in one of its two cases. -/
theorem toUpper_eq_iff : c.toUpper = d.toUpper ↔ d = c ∨ d = c.toLower ∨ d = c.toUpper := by
  simp only [← Char.toNat_inj, toNat_toLower, toNat_toUpper]
  split_ifs <;> omega

/-! ## Texts -/

/-- Two texts are the same but for the case of their ASCII letters, character by character. -/
def SameLetters (a b : String) : Prop :=
  List.Forall₂ (fun c d => d = c ∨ d = c.toLower ∨ d = c.toUpper) a.toList b.toList

/-- Texts that are `SameLetters` have one text in ASCII small letters, and no others. -/
theorem map_toLower_eq_iff : a.map Char.toLower = b.map Char.toLower ↔ SameLetters a b := by
  rw [← String.toList_inj, String.toList_map, String.toList_map, ← List.forall₂_eq_eq_eq,
    List.forall₂_map_left_iff, List.forall₂_map_right_iff]
  simp only [toLower_eq_iff]
  rfl

/-- Texts that are `SameLetters` have one text in ASCII capitals, and no others. -/
theorem map_toUpper_eq_iff : a.map Char.toUpper = b.map Char.toUpper ↔ SameLetters a b := by
  rw [← String.toList_inj, String.toList_map, String.toList_map, ← List.forall₂_eq_eq_eq,
    List.forall₂_map_left_iff, List.forall₂_map_right_iff]
  simp only [toUpper_eq_iff]
  rfl

instance (a b : String) : Decidable (SameLetters a b) := decidable_of_iff _ map_toLower_eq_iff

end PayloadAtlas.Text
