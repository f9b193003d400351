import Mathlib.Data.String.Basic
import PayloadAtlas.Proofs.Json.Written
import PayloadAtlas.Proofs.Text.Case
import PayloadAtlas.Proofs.Text.Utf8
import PayloadAtlas.Rest.Percent

/-!
# Percent decoding

A text in a path stands for bytes: a percent sign with two hexadecimal digits for one byte, and everything else for
its own (`decode`). In a path a percent sign is written as it is, so that a text comes back from the way it is written
if it has no escape of its own (`decode_encode`); otherwise less comes back (`length_decode_encode`).
-/

namespace PayloadAtlas.Percent

open Json (hexValue?)

variable {c : Char} {cs rest : List Char}

/-- A character is a hexadecimal digit. -/
def IsHex (c : Char) : Prop := (hexValue? c).isSome

instance (c : Char) : Decidable (IsHex c) := inferInstanceAs (Decidable (_ = true))

/-- The bytes that a text with escapes stands for; a `%` without two digits stands for itself. -/
def decode : List Char → List UInt8
  | '%' :: a :: b :: rest =>
    match hexValue? a, hexValue? b with
    | some m, some n => UInt8.ofNat (16 * m + n) :: decode rest
    | _, _ => String.utf8EncodeChar '%' ++ decode (a :: b :: rest)
  | c :: rest => String.utf8EncodeChar c ++ decode rest
  | [] => []

/-- Whether a text begins with an escape: a `%` and two hexadecimal digits. -/
def Opens (cs : List Char) : Prop := ∃ a b rest, cs = '%' :: a :: b :: rest ∧ IsHex a ∧ IsHex b

/-- Whether a text has an escape, such as `%2f`, in it. -/
def HasEscape (cs : List Char) : Prop := ∃ before after, cs = before ++ after ∧ Opens after

/-- An escape is at the beginning or further on. -/
theorem hasEscape_cons_iff : HasEscape (c :: cs) ↔ Opens (c :: cs) ∨ HasEscape cs := by
  constructor
  · rintro ⟨before, after, hcs, hopens⟩
    cases before with
    | nil => exact .inl (hcs ▸ hopens)
    | cons d before =>
      obtain ⟨-, rfl⟩ := List.cons.inj hcs
      exact .inr ⟨before, after, rfl, hopens⟩
  · rintro (hopens | ⟨before, after, rfl, hopens⟩)
    · exact ⟨[], c :: cs, rfl, hopens⟩
    · exact ⟨c :: before, after, rfl, hopens⟩

theorem not_hasEscape (h : '%' ∉ cs) : ¬HasEscape cs := by
  rintro ⟨before, after, rfl, a, b, rest, rfl, -⟩
  exact h (by simp)

/-! ## Decoding -/

/-- The escape at the beginning is one byte by `decode`. -/
theorem decode_of_opens {a b : Char} (ha : IsHex a) (hb : IsHex b) (rest : List Char) :
    ∃ byte, decode ('%' :: a :: b :: rest) = byte :: decode rest := by
  obtain ⟨m, hm⟩ := Option.isSome_iff_exists.mp ha
  obtain ⟨n, hn⟩ := Option.isSome_iff_exists.mp hb
  exact ⟨UInt8.ofNat (16 * m + n), by rw [decode, hm, hn]⟩

/-- Where no escape begins, a character stands for its own bytes. -/
theorem decode_of_not_opens (h : ¬Opens (c :: cs)) : decode (c :: cs) = String.utf8EncodeChar c ++ decode cs := by
  rw [decode.eq_def]
  split
  · next a b rest heq =>
    obtain ⟨rfl, rfl⟩ := List.cons.inj heq
    split
    · next m n hm hn =>
      exact absurd ⟨a, b, rest, rfl, Option.isSome_of_eq_some hm, Option.isSome_of_eq_some hn⟩ h
    · rfl
  · next heq =>
    obtain ⟨rfl, rfl⟩ := List.cons.inj heq
    rfl
  · next heq => cases heq

theorem not_opens_of_ne (h : c ≠ '%') : ¬Opens (c :: cs) := by
  rintro ⟨a, b, rest, heq, -⟩
  exact h (List.cons.inj heq).1

/-! ## Writing into a path -/

/-- How a byte is written in a path: as its character, or as an escape. -/
def pathByte (b : UInt8) : List Char := if inPath b then [Char.ofNat b.toNat] else escape b

/-- The bytes of a character are written by `encode` one by one, and what is after it by itself. -/
theorem encode_cons (c : Char) (cs : List Char) :
    encode inPath (c :: cs) = (String.utf8EncodeChar c).flatMap pathByte ++ encode inPath cs := by
  rw [encode, encode, Text.bytesOf_eq_flatMap, Text.bytesOf_eq_flatMap, String.toList_ofList, String.toList_ofList,
    List.flatMap_cons, List.flatMap_append]
  rfl

theorem toNat_lt_of_inPath {b : UInt8} (h : inPath b) : b.toNat < 0x7F := by
  simp only [inPath, isPlain, Bool.and_eq_true, decide_eq_true_eq] at h
  exact h.1.2

/-- A byte other than that of `%` comes back, by itself or from its escape. -/
theorem decode_pathByte_append {b : UInt8} (h : b ≠ 0x25) (rest : List Char) :
    decode (pathByte b ++ rest) = b :: decode rest := by
  rw [pathByte]
  split
  · -- the byte is written as its character
    next hplain =>
    have hlt := toNat_lt_of_inPath hplain
    have hvalid : b.toNat.isValidChar := Or.inl (by omega)
    have htoNat : (Char.ofNat b.toNat).toNat = b.toNat := Text.toNat_ofNat hvalid
    have hne : Char.ofNat b.toNat ≠ '%' := by
      intro heq
      exact h (UInt8.toNat_inj.mp (htoNat.symm.trans (congrArg Char.toNat heq)))
    rw [List.singleton_append, decode_of_not_opens (not_opens_of_ne hne), Text.utf8EncodeChar_of_lt (by omega), htoNat]
    simp
  · -- the byte is escaped
    have hdigits : ∀ n < 16, hexValue? (hexDigit n) = some n := by decide
    have hlt := b.toNat_lt
    show decode ('%' :: hexDigit (b.toNat / 16) :: hexDigit (b.toNat % 16) :: rest) = b :: decode rest
    rw [decode, hdigits _ (by omega), hdigits _ (by omega)]
    dsimp only
    rw [Nat.div_add_mod]
    simp

/-- Bytes without that of `%` come back, whatever comes after them. -/
theorem decode_flatMap_append {bs : List UInt8} (h : 0x25 ∉ bs) (rest : List Char) :
    decode (bs.flatMap pathByte ++ rest) = bs ++ decode rest := by
  induction bs with
  | nil => rfl
  | cons b bs ih =>
    rw [List.mem_cons, not_or] at h
    rw [List.flatMap_cons, List.append_assoc, decode_pathByte_append (Ne.symm h.1), ih h.2, List.cons_append]

theorem toNat_lt_of_isHex (h : IsHex c) : c.toNat < 0x80 := by
  by_contra hge
  have hval : c.val.toNat = c.toNat := rfl
  have hnone : hexValue? c = none := by
    rw [hexValue?, if_neg, if_neg, if_neg] <;>
      simp [Char.isDigit, Char.le_def, UInt32.le_iff_toNat_le] <;> omega
  rw [IsHex, hnone] at h
  cases h

/-- A hexadecimal digit is written as it is. -/
theorem encode_cons_of_isHex (h : IsHex c) (cs : List Char) : encode inPath (c :: cs) = c :: encode inPath cs := by
  have hall : ∀ n < 0x80, IsHex (Char.ofNat n) → pathByte (UInt8.ofNat n) = [Char.ofNat n] := by decide
  have hlt := toNat_lt_of_isHex h
  have hbyte := hall c.toNat hlt (by rwa [Char.ofNat_toNat])
  rw [Char.ofNat_toNat] at hbyte
  rw [encode_cons, Text.utf8EncodeChar_of_lt hlt, List.flatMap_singleton, hbyte]
  rfl

/-- What is no digit is written as no digit. -/
theorem exists_encode_cons_of_not_isHex (h : ¬IsHex c) (cs : List Char) :
    ∃ d rest, encode inPath (c :: cs) = d :: rest ∧ ¬IsHex d := by
  obtain ⟨b, bs, hbytes⟩ := List.exists_cons_of_ne_nil (l := String.utf8EncodeChar c) (by
    rw [← List.length_pos_iff, String.length_utf8EncodeChar]
    exact Char.utf8Size_pos c)
  rw [encode_cons, hbytes, List.flatMap_cons, pathByte]
  split
  · next hplain =>
    have hlt := toNat_lt_of_inPath hplain
    have hmem : b ∈ String.utf8EncodeChar c := hbytes ▸ List.mem_cons_self
    have hc : c.toNat = b.toNat := Text.toNat_of_mem_utf8EncodeChar (by omega) hmem
    refine ⟨Char.ofNat b.toNat, _, rfl, ?_⟩
    rwa [← hc, Char.ofNat_toNat]
  · exact ⟨'%', _, rfl, by decide⟩

/-- A `%` is written as it is. -/
theorem encode_percent (cs : List Char) : encode inPath ('%' :: cs) = '%' :: encode inPath cs := by
  rw [encode_cons]
  rfl

/-- If a written text begins with a digit, then so does the text itself. -/
theorem isHex_of_encode_eq {d : Char} (h : encode inPath cs = d :: rest) (hd : IsHex d) :
    ∃ tail, cs = d :: tail ∧ rest = encode inPath tail := by
  cases cs with
  | nil => cases h
  | cons c cs =>
    by_cases hc : IsHex c
    · rw [encode_cons_of_isHex hc] at h
      obtain ⟨rfl, rfl⟩ := List.cons.inj h
      exact ⟨cs, rfl, rfl⟩
    · obtain ⟨e, rest', heq, he⟩ := exists_encode_cons_of_not_isHex hc cs
      rw [heq] at h
      exact absurd ((List.cons.inj h).1 ▸ hd) he

/-- Writing makes no escape out of a `%` that began none. -/
theorem opens_of_opens_encode (h : Opens ('%' :: encode inPath cs)) : Opens ('%' :: cs) := by
  obtain ⟨a, b, rest, heq, ha, hb⟩ := h
  obtain ⟨tail, rfl, hrest⟩ := isHex_of_encode_eq (List.cons.inj heq).2 ha
  obtain ⟨tail', rfl, -⟩ := isHex_of_encode_eq hrest.symm hb
  exact ⟨a, b, tail', rfl, ha, hb⟩

/-- A character where no escape begins comes back. -/
theorem decode_encode_cons (h : ¬Opens (c :: cs)) :
    decode (encode inPath (c :: cs)) = String.utf8EncodeChar c ++ decode (encode inPath cs) := by
  by_cases hc : c = '%'
  · subst hc
    rw [encode_percent, decode_of_not_opens fun hopens => h (opens_of_opens_encode hopens)]
  · have hbytes : (0x25 : UInt8) ∉ String.utf8EncodeChar c := by
      intro hmem
      exact hc (Text.eq_of_mem_utf8EncodeChar (k := '%') (by decide) hmem)
    rw [encode_cons, decode_flatMap_append hbytes]

/-- An escape comes back as the one byte that it stands for. -/
theorem decode_encode_of_opens {a b : Char} (ha : IsHex a) (hb : IsHex b) (rest : List Char) :
    ∃ byte, decode (encode inPath ('%' :: a :: b :: rest)) = byte :: decode (encode inPath rest) := by
  rw [encode_percent, encode_cons_of_isHex ha, encode_cons_of_isHex hb]
  exact decode_of_opens ha hb _

/-- As many bytes come back by `decode` as were written at most, and fewer if there is an escape in the text. -/
theorem length_decode_encode (cs : List Char) :
    (decode (encode inPath cs)).length ≤ (cs.flatMap String.utf8EncodeChar).length ∧
      (HasEscape cs → (decode (encode inPath cs)).length < (cs.flatMap String.utf8EncodeChar).length) := by
  -- an escape takes three characters at once, so that the induction is on the length
  induction hn : cs.length using Nat.strongRecOn generalizing cs with
  | _ n ih =>
    cases cs with
    | nil =>
      refine ⟨Nat.le_refl _, ?_⟩
      rintro ⟨before, after, hcs, a, b, rest, rfl, -⟩
      simp at hcs
    | cons c cs =>
      rw [List.length_cons] at hn
      by_cases hopens : Opens (c :: cs)
      · obtain ⟨a, b, rest, heq, ha, hb⟩ := hopens
        obtain ⟨rfl, rfl⟩ := List.cons.inj heq
        obtain ⟨byte, hbyte⟩ := decode_encode_of_opens ha hb rest
        have hle := (ih rest.length (by simp only [List.length_cons] at hn; omega) rest rfl).1
        have hpos := fun c => Char.utf8Size_pos c
        have hlt : (byte :: decode (encode inPath rest)).length <
            (('%' :: a :: b :: rest).flatMap String.utf8EncodeChar).length := by
          simp only [List.flatMap_cons, List.length_append, List.length_cons, String.length_utf8EncodeChar]
          have := hpos a
          have := hpos b
          have := hpos '%'
          omega
        rw [hbyte]
        exact ⟨Nat.le_of_lt hlt, fun _ => hlt⟩
      · obtain ⟨hle, hlt⟩ := ih cs.length (by omega) cs rfl
        rw [decode_encode_cons hopens, List.flatMap_cons, List.length_append, List.length_append]
        refine ⟨Nat.add_le_add_left hle _, fun hescape => Nat.add_lt_add_left (hlt ?_) _⟩
        exact (hasEscape_cons_iff.mp hescape).resolve_left hopens

/-- A text without escapes comes back by `decode`. -/
theorem decode_encode (h : ¬HasEscape cs) : decode (encode inPath cs) = cs.flatMap String.utf8EncodeChar := by
  induction cs with
  | nil => rfl
  | cons c cs ih =>
    rw [hasEscape_cons_iff, not_or] at h
    rw [decode_encode_cons h.1, ih h.2, List.flatMap_cons]

end PayloadAtlas.Percent
