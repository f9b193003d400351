import PayloadAtlas.Disk

/-!
# Texts as bytes

A text is known by its bytes, and has those of its parts one after the other (`bytesOf_append`). A byte below 128 is
a character by itself and part of no other (`mem_bytesOf`), so that slashes and dots are found among the bytes where
they are found among the characters, and a text is cut at them where its bytes are.
-/

namespace PayloadAtlas.Text

/-! ## Bytes and texts -/

/-- Only the empty text has no bytes. -/
theorem eq_empty_of_bytesOf {s : String} (h : bytesOf s = []) : s = "" := by
  apply String.toByteArray_eq_empty_iff.mp
  apply ByteArray.ext
  exact Array.toList_inj.mp h

theorem bytesOf_of_ofBytes? {bytes : Bytes} {s : String} (h : ofBytes? bytes = some s) : bytesOf s = bytes := by
  rw [ofBytes?, String.fromUTF8?] at h
  split at h
  · cases h
    rfl
  · cases h

/-- A text comes back from `bytesOf`. -/
theorem ofBytes?_bytesOf (s : String) : ofBytes? (bytesOf s) = some s := by
  exact dif_pos s.isValidUTF8

theorem eq_of_bytesOf_eq {a b : String} (h : bytesOf a = bytesOf b) : a = b := by
  have hsome := ofBytes?_bytesOf a
  rw [h, ofBytes?_bytesOf] at hsome
  exact (Option.some.inj hsome).symm

theorem bytesOf_eq_flatMap (s : String) : bytesOf s = s.toList.flatMap String.utf8EncodeChar := by
  rw [bytesOf, String.toUTF8, ← String.utf8Encode_toList, List.utf8Encode]
  simp

theorem bytesOf_append (a b : String) : bytesOf (a ++ b) = bytesOf a ++ bytesOf b := by
  rw [bytesOf_eq_flatMap, bytesOf_eq_flatMap, bytesOf_eq_flatMap, String.toList_append, List.flatMap_append]

/-- A slash between texts is `Disk.slash` between their bytes. -/
theorem bytesOf_slash (a b : String) : bytesOf (a ++ "/" ++ b) = bytesOf a ++ Disk.slash :: bytesOf b := by
  rw [bytesOf_append, bytesOf_append, List.append_assoc]
  rfl

/-! ## Slashes and dots -/

/-- A byte below 128 is a character by itself, and part of no other. -/
theorem toNat_of_mem_utf8EncodeChar {b : UInt8} (hb : b.toNat < 128) {c : Char} (h : b ∈ String.utf8EncodeChar c) :
    c.toNat = b.toNat := by
  have hbyte : ∀ n, b = UInt8.ofNat n → n < 256 → b.toNat = n := by
    rintro n rfl hn
    exact UInt8.toNat_ofNat_of_lt' hn
  rw [String.utf8EncodeChar] at h
  split at h
  · exact (hbyte _ (List.mem_singleton.mp h) (by omega)).symm
  · -- each byte of a longer one is at least 128
    exfalso
    have hlong : ∀ n m, b = UInt8.ofNat (n + m) → 128 ≤ m → n + m < 256 → False := by
      intro n m h hm hlt
      have hvalue := hbyte _ h hlt
      omega
    split at h
    · simp only [List.mem_cons, List.not_mem_nil, or_false] at h
      rcases h with h | h <;> exact hlong _ _ h (by omega) (by omega)
    split at h
    · simp only [List.mem_cons, List.not_mem_nil, or_false] at h
      rcases h with h | h | h <;> exact hlong _ _ h (by omega) (by omega)
    · simp only [List.mem_cons, List.not_mem_nil, or_false] at h
      rcases h with h | h | h | h <;> exact hlong _ _ h (by omega) (by omega)

section Ascii

variable {k : Char} (hk : k.toNat < 128)

include hk

theorem utf8EncodeChar_of_lt : String.utf8EncodeChar k = [UInt8.ofNat k.toNat] := by
  have hle : k.val.toNat ≤ 127 := Nat.le_of_lt_succ hk
  rw [String.utf8EncodeChar, if_pos hle]
  rfl

/-- The byte of a character below 128 is in that character only. -/
theorem eq_of_mem_utf8EncodeChar {c : Char} (h : UInt8.ofNat k.toNat ∈ String.utf8EncodeChar c) : c = k := by
  have hbyte : (UInt8.ofNat k.toNat).toNat = k.toNat := UInt8.toNat_ofNat_of_lt' (Nat.lt_trans hk (by decide))
  exact Char.toNat_inj.mp ((toNat_of_mem_utf8EncodeChar (by omega) h).trans hbyte)

/-- A character below 128 is in a text if and only if its byte is in `bytesOf`. -/
theorem mem_bytesOf {s : String} : UInt8.ofNat k.toNat ∈ bytesOf s ↔ k ∈ s.toList := by
  rw [bytesOf_eq_flatMap, List.mem_flatMap]
  constructor
  · rintro ⟨c, hc, hmem⟩
    rwa [← eq_of_mem_utf8EncodeChar hk hmem]
  · intro hmem
    exact ⟨k, hmem, utf8EncodeChar_of_lt hk ▸ List.mem_singleton_self _⟩

/-- Where the bytes of characters are cut at a character below 128, the characters are. -/
theorem exists_cut_of_flatMap {cs : List Char} {before after : Bytes}
    (h : cs.flatMap String.utf8EncodeChar = before ++ UInt8.ofNat k.toNat :: after) :
    ∃ as bs, cs = as ++ k :: bs ∧ as.flatMap String.utf8EncodeChar = before ∧
      bs.flatMap String.utf8EncodeChar = after := by
  induction cs generalizing before with
  | nil => simp at h
  | cons c cs ih =>
    have hlater {more : Bytes} (hmore : cs.flatMap String.utf8EncodeChar = more ++ UInt8.ofNat k.toNat :: after)
        (hbefore : before = String.utf8EncodeChar c ++ more) :
        ∃ as bs, c :: cs = as ++ k :: bs ∧ as.flatMap String.utf8EncodeChar = before ∧
          bs.flatMap String.utf8EncodeChar = after := by
      obtain ⟨as, bs, rfl, rfl, hafter⟩ := ih hmore
      exact ⟨c :: as, bs, rfl, by rw [List.flatMap_cons, hbefore], hafter⟩
    rw [List.flatMap_cons, List.append_eq_append_iff] at h
    -- the cut is behind the first character, right after it or within it
    rcases h with ⟨more, hbefore, hmore⟩ | ⟨_ | ⟨b, more⟩, hc, hmore⟩
    · exact hlater hmore hbefore
    · rw [List.append_nil] at hc
      exact hlater (hmore.symm.trans (List.nil_append _).symm) (by rw [hc, List.append_nil])
    · -- the byte is the whole first character
      obtain ⟨rfl, hafter⟩ := List.cons.inj hmore
      obtain rfl := eq_of_mem_utf8EncodeChar hk (c := c) (by rw [hc]; simp)
      rw [utf8EncodeChar_of_lt hk] at hc
      obtain ⟨rfl, hrest⟩ | ⟨-, hnil⟩ := List.append_eq_singleton_iff.mp hc.symm
      · obtain ⟨-, rfl⟩ := List.cons.inj hrest
        exact ⟨[], cs, rfl, rfl, hafter.symm⟩
      · cases hnil

/-- Where the bytes of a text are cut at a character below 128, the text is. -/
theorem exists_cut_of_bytesOf {s : String} {before after : Bytes}
    (h : bytesOf s = before ++ UInt8.ofNat k.toNat :: after) :
    ∃ a b, s = a ++ String.singleton k ++ b ∧ bytesOf a = before ∧ bytesOf b = after := by
  rw [bytesOf_eq_flatMap] at h
  obtain ⟨as, bs, hs, rfl, rfl⟩ := exists_cut_of_flatMap hk h
  refine ⟨String.ofList as, String.ofList bs, String.toList_injective ?_, ?_, ?_⟩
  · rw [hs]
    simp
  · rw [bytesOf_eq_flatMap, String.toList_ofList]
  · rw [bytesOf_eq_flatMap, String.toList_ofList]

end Ascii

/-- A text has a slash just if its bytes have `Disk.slash`. -/
theorem slash_mem_bytesOf {s : String} : Disk.slash ∈ bytesOf s ↔ '/' ∈ s.toList :=
  mem_bytesOf (k := '/') (by decide)

/-- A text has a dot just if its bytes have `Disk.dot`. -/
theorem dot_mem_bytesOf {s : String} : Disk.dot ∈ bytesOf s ↔ '.' ∈ s.toList :=
  mem_bytesOf (k := '.') (by decide)

/-- Where the bytes are cut at `Disk.slash`, the text is cut at a slash. -/
theorem exists_cut_at_slash {s : String} {before after : Bytes} (h : bytesOf s = before ++ Disk.slash :: after) :
    ∃ a b, s = a ++ "/" ++ b ∧ bytesOf a = before ∧ bytesOf b = after :=
  exists_cut_of_bytesOf (k := '/') (by decide) h

/-- Where the bytes are cut at `Disk.dot`, the text is cut at a dot. -/
theorem exists_cut_at_dot {s : String} {before after : Bytes} (h : bytesOf s = before ++ Disk.dot :: after) :
    ∃ a b, s = a ++ "." ++ b ∧ bytesOf a = before ∧ bytesOf b = after :=
  exists_cut_of_bytesOf (k := '.') (by decide) h

/-- A text ends with a slash if and only if its bytes do. -/
theorem getLast?_bytesOf_eq_slash {s : String} :
    (bytesOf s).getLast? = some Disk.slash ↔ s.toList.getLast? = some '/' := by
  rw [List.getLast?_eq_some_iff, List.getLast?_eq_some_iff]
  constructor
  · rintro ⟨before, h⟩
    obtain ⟨a, b, rfl, -, hb⟩ := exists_cut_at_slash h
    refine ⟨a.toList, ?_⟩
    rw [eq_empty_of_bytesOf hb]
    simp
  · rintro ⟨cs, h⟩
    refine ⟨cs.flatMap String.utf8EncodeChar, ?_⟩
    rw [bytesOf_eq_flatMap, h, List.flatMap_append, List.flatMap_singleton]
    rfl

end PayloadAtlas.Text
