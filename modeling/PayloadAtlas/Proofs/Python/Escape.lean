import Mathlib.Data.List.Forall2
import Mathlib.Data.Nat.Digits.Defs
import Mathlib.Data.String.Basic
import Mathlib.Tactic.IntervalCases
import PayloadAtlas.Proofs.Text.Case
import PayloadAtlas.Python.Literal

/-!
# Escapes

The body of a string literal is a sequence of spellings: characters by themselves, escapes, and backslashes
that begin none (`Spelling`). Which escape a backslash begins is told from what follows it, so a spelling must
fit what comes after it (`Spelling.Fits`): octal digits end before the fourth, and before that only where no
octal digit follows. Decoding a body gives what its spellings stand for (`unescape_flatMap`), every body is made
of spellings that fit (`exists_fitting`), and a text comes back however its characters are spelled
(`unescape_fitting`).

Digits and the numbers that they write are said by the position in a list and by `Nat.ofDigits`
(`IsDigit`, `Denotes`).
-/

namespace PayloadAtlas.Python.Literal

/-! ## Spellings -/

/-- A character is the digit `n` of a base, in either case. -/
def IsDigit (base : Nat) (c : Char) (n : Nat) : Prop :=
  n < base ∧ ("0123456789abcdef".toList[n]? = some c ∨ "0123456789ABCDEF".toList[n]? = some c)

/-- Digits in a base, the greatest first, are the number of the character `c`. -/
def Denotes (base : Nat) (digits : List Char) (c : Char) : Prop :=
  ∃ ns, List.Forall₂ (IsDigit base) digits ns ∧ Nat.ofDigits base ns.reverse = c.toNat

/-- The characters that make an escape with `\` alone, with what they stand for: a line end stands for nothing. -/
def shortEscapes : List (Char × Option Char) :=
  [('\\', '\\'), ('\'', '\''), ('"', '"'), ('n', '\n'), ('t', '\t'), ('r', '\r'), ('a', '\x07'), ('b', '\x08'),
    ('f', '\x0c'), ('v', '\x0b'), ('\n', none)]

/-- The letters `x`, `u` and `U` that ask for hexadecimal digits, with their number. -/
def hexLetters : List (Char × Nat) := [('x', 2), ('u', 4), ('U', 8)]

/-- A way to write something in the body of a literal, with its `text` and its `value`. -/
inductive Spelling where
  /-- A character by itself. -/
  | plain (c : Char)
  /-- A backslash and a character that stand for a character, or for nothing. -/
  | short (c : Char) (value : Option Char)
  /-- A backslash, a letter and hexadecimal digits. -/
  | hex (letter : Char) (digits : List Char) (value : Char)
  /-- A backslash and octal digits. -/
  | octal (digits : List Char) (value : Char)
  /-- A backslash that begins no escape, with the character after it, if there is one. -/
  | kept (next : Option Char)

namespace Spelling

/-- What is written. -/
def text : Spelling → List Char
  | plain c => [c]
  | short c _ => ['\\', c]
  | hex letter digits _ => '\\' :: letter :: digits
  | octal digits _ => '\\' :: digits
  | kept next => '\\' :: next.toList

/-- What it stands for. -/
def value : Spelling → List Char
  | plain c => [c]
  | short _ v => v.toList
  | hex _ _ v => [v]
  | octal _ v => [v]
  | kept next => '\\' :: next.toList

/-- A spelling is one, where it is followed by the text `after`. -/
def Fits (after : List Char) : Spelling → Prop
  | plain c => c ≠ '\\'
  | short c v => (c, v) ∈ shortEscapes
  | hex letter digits v => (letter, digits.length) ∈ hexLetters ∧ Denotes 16 digits v
  | octal digits v => digits.length ∈ [1, 2, 3] ∧ Denotes 8 digits v ∧
      (digits.length < 3 → ∀ c ∈ after.head?, ∀ n, ¬IsDigit 8 c n)
  | kept none => after = []
  | kept (some c) => (∀ v, (c, v) ∉ shortEscapes) ∧ (∀ n, ¬IsDigit 8 c n) ∧
      ∀ digits v, (c, digits.length) ∈ hexLetters → digits <+: after → ¬Denotes 16 digits v

/-- A spelling of the character `c`: by itself or by an escape. -/
def Spells (s : Spelling) (c : Char) : Prop := s.value = [c] ∧ ∀ next, s ≠ kept next

end Spelling

/-- Each of some spellings fits the text of those after it. -/
def Fitting : List Spelling → Prop
  | [] => True
  | s :: rest => s.Fits (rest.flatMap Spelling.text) ∧ Fitting rest

/-! ## Digits -/

instance (base : Nat) (c : Char) (n : Nat) : Decidable (IsDigit base c n) :=
  inferInstanceAs (Decidable (_ ∧ _))

/-- What holds of the characters from `low` to `high` one by one. -/
theorem forall_between {P : Char → Prop} {low high c : Char} (hlow : low ≤ c) (hhigh : c ≤ high)
    (h : ∀ k ∈ List.range' low.toNat (high.toNat + 1 - low.toNat), P (Char.ofNat k)) : P c := by
  have hl : low.toNat ≤ c.toNat := hlow
  have hh : c.toNat ≤ high.toNat := hhigh
  rw [← Char.ofNat_toNat c]
  exact h c.toNat (List.mem_range'_1.mpr ⟨hl, by omega⟩)

/-- The three ranges of characters that are looked at are the digits of base sixteen. -/
theorem hexValue?_eq_some_iff {c : Char} {n : Nat} : hexValue? c = some n ↔ IsDigit 16 c n := by
  constructor
  · intro h
    rw [hexValue?] at h
    -- a digit, a small letter, or a capital one
    split at h
    · next hc =>
      cases h
      exact forall_between (P := fun c => IsDigit 16 c (c.toNat - '0'.toNat)) hc.1 hc.2 (by decide)
    · split at h
      · next hc =>
        cases h
        exact forall_between (P := fun c => IsDigit 16 c (c.toNat - 'a'.toNat + 10)) hc.1 hc.2 (by decide)
      · split at h
        · next hc =>
          cases h
          exact forall_between (P := fun c => IsDigit 16 c (c.toNat - 'A'.toNat + 10)) hc.1 hc.2 (by decide)
        · cases h
  · rintro ⟨hlt, h⟩
    interval_cases n <;> rcases h with h | h <;> cases h <;> decide

/-- The characters from `0` to `7` are the digits of base eight. -/
theorem octalValue?_eq_some_iff {c : Char} {n : Nat} : octalValue? c = some n ↔ IsDigit 8 c n := by
  constructor
  · intro h
    rw [octalValue?] at h
    split at h
    · next hc =>
      cases h
      exact forall_between (P := fun c => IsDigit 8 c (c.toNat - '0'.toNat)) hc.1 hc.2 (by decide)
    · cases h
  · rintro ⟨hlt, h⟩
    interval_cases n <;> rcases h with h | h <;> cases h <;> decide

theorem octalValue?_eq_none_iff {c : Char} : octalValue? c = none ↔ ∀ n, ¬IsDigit 8 c n := by
  rw [Option.eq_none_iff_forall_ne_some]
  exact forall_congr' fun n => not_congr octalValue?_eq_some_iff

/-- A number is a character, by `scalar?`, if it is the number of one. -/
theorem scalar?_eq_some_iff {n : Nat} {c : Char} : scalar? n = some c ↔ n = c.toNat := by
  rw [scalar?]
  constructor
  · intro h
    split at h
    · next hn =>
      cases h
      exact (Text.toNat_ofNat hn).symm
    · cases h
  · rintro rfl
    have hvalid : c.toNat.isValidChar := c.valid
    rw [if_pos hvalid, Char.ofNat_toNat]

theorem ofDigits_reverse (base : Nat) (ns : List Nat) :
    Nat.ofDigits base ns.reverse = ns.foldl (fun n d => base * n + d) 0 := by
  rw [Nat.ofDigits_eq_foldr, List.foldr_reverse]
  simp only [Nat.cast_id, Nat.add_comm]

/-- Hexadecimal digits are read one by one, and none of them is left out. -/
theorem foldlM_hexValue? {digits : List Char} {n m : Nat} :
    digits.foldlM (fun n c => (hexValue? c).map (16 * n + ·)) n = some m ↔
      ∃ ns, List.Forall₂ (IsDigit 16) digits ns ∧ ns.foldl (fun n d => 16 * n + d) n = m := by
  induction digits generalizing n with
  | nil => simp
  | cons c digits ih =>
    rw [List.foldlM_cons]
    constructor
    · intro h
      obtain ⟨n', hn', h⟩ := Option.bind_eq_some_iff.mp h
      obtain ⟨d, hd, rfl⟩ := Option.map_eq_some_iff.mp hn'
      obtain ⟨ns, hns, hm⟩ := ih.mp h
      exact ⟨d :: ns, .cons (hexValue?_eq_some_iff.mp hd) hns, hm⟩
    · rintro ⟨ns, hns, hm⟩
      cases hns with
      | cons hd hns =>
        rw [hexValue?_eq_some_iff.mpr hd]
        exact ih.mpr ⟨_, hns, hm⟩

/-! ## Escapes -/

/-- There is a number if `width` digits come first, whatever is after them. -/
theorem hexNumber?_eq_some_iff {width n : Nat} {cs : List Char} :
    hexNumber? width cs = some n ↔
      ∃ digits ns, digits.length = width ∧ digits <+: cs ∧ List.Forall₂ (IsDigit 16) digits ns ∧
        Nat.ofDigits 16 ns.reverse = n := by
  simp only [ofDigits_reverse]
  rw [hexNumber?]
  constructor
  · intro h
    split at h
    · cases h
    · next hlength =>
      obtain ⟨ns, hns, hn⟩ := foldlM_hexValue?.mp h
      exact ⟨cs.take width, ns, List.length_take_of_le (by omega), List.take_prefix width cs, hns, hn⟩
  · rintro ⟨digits, ns, rfl, ⟨rest, rfl⟩, hns, hn⟩
    rw [if_neg (by simp), List.take_left]
    exact foldlM_hexValue?.mpr ⟨ns, hns, hn⟩

/-- There is an escape if `width` hexadecimal digits come first and denote a character. -/
theorem hexEscape?_eq_some_iff {width : Nat} {cs : List Char} {e : Escape} :
    hexEscape? width cs = some e ↔
      ∃ digits v, digits.length = width ∧ digits <+: cs ∧ Denotes 16 digits v ∧ e = ⟨some v, width + 1⟩ := by
  rw [hexEscape?, Option.map_eq_some_iff]
  constructor
  · rintro ⟨v, hv, rfl⟩
    obtain ⟨n, hn, hv⟩ := Option.bind_eq_some_iff.mp hv
    obtain ⟨digits, ns, hlength, hprefix, hns, rfl⟩ := hexNumber?_eq_some_iff.mp hn
    exact ⟨digits, v, hlength, hprefix, ⟨ns, hns, scalar?_eq_some_iff.mp hv⟩, rfl⟩
  · rintro ⟨digits, v, hlength, hprefix, ⟨ns, hns, hv⟩, rfl⟩
    refine ⟨v, Option.bind_eq_some_iff.mpr ⟨_, hexNumber?_eq_some_iff.mpr ?_, scalar?_eq_some_iff.mpr rfl⟩, rfl⟩
    exact ⟨digits, ns, hlength, hprefix, hns, hv⟩

/-- Octal digits are read by `octalNumber` up to the third, or up to what is none. -/
theorem octalNumber_append {digits after : List Char} {ns : List Nat} (hdigits : List.Forall₂ (IsDigit 8) digits ns)
    (hlength : digits.length ≤ 3) (hafter : digits.length < 3 → ∀ c ∈ after.head?, ∀ n, ¬IsDigit 8 c n) :
    octalNumber (digits ++ after) = (Nat.ofDigits 8 ns.reverse, digits.length) := by
  -- the digits have values, and what is after them has none or is the fourth
  have hvalues : digits.map octalValue? = ns.map some := by
    rw [← List.forall₂_eq_eq_eq, List.forall₂_map_left_iff, List.forall₂_map_right_iff]
    exact hdigits.imp fun _ _ h => octalValue?_eq_some_iff.mpr h
  have hstop : ((after.take (3 - digits.length)).map octalValue?).takeWhile Option.isSome = [] := by
    rcases Nat.lt_or_ge digits.length 3 with hlt | hge
    · cases after with
      | nil => simp
      | cons c after =>
        obtain ⟨k, hk⟩ : ∃ k, 3 - digits.length = k + 1 := ⟨2 - digits.length, by omega⟩
        rw [hk, List.take_succ_cons, List.map_cons, octalValue?_eq_none_iff.mpr (hafter hlt c rfl)]
        rfl
    · rw [show 3 - digits.length = 0 by omega]
      rfl
  have htaken : (((digits ++ after).take 3).map octalValue?).takeWhile Option.isSome = ns.map some := by
    rw [List.take_append, List.take_of_length_le hlength, List.map_append, hvalues,
      List.takeWhile_append_of_pos (by simp), hstop, List.append_nil]
  rw [octalNumber, htaken, List.filterMap_map, ofDigits_reverse, hdigits.length_eq]
  simp

theorem escape?_of_short {c : Char} {v : Option Char} (h : (c, v) ∈ shortEscapes) (after : List Char) :
    escape? (c :: after) = some ⟨v, 1⟩ := by
  simp only [shortEscapes, List.mem_cons, List.not_mem_nil, Prod.mk.injEq, or_false] at h
  rcases h with ⟨rfl, rfl⟩ | ⟨rfl, rfl⟩ | ⟨rfl, rfl⟩ | ⟨rfl, rfl⟩ | ⟨rfl, rfl⟩ | ⟨rfl, rfl⟩ | ⟨rfl, rfl⟩ | ⟨rfl, rfl⟩ |
    ⟨rfl, rfl⟩ | ⟨rfl, rfl⟩ | ⟨rfl, rfl⟩ <;> rfl

theorem escape?_of_hex {c : Char} {width : Nat} (h : (c, width) ∈ hexLetters) (after : List Char) :
    escape? (c :: after) = hexEscape? width after := by
  simp only [hexLetters, List.mem_cons, List.not_mem_nil, Prod.mk.injEq, or_false] at h
  rcases h with ⟨rfl, rfl⟩ | ⟨rfl, rfl⟩ | ⟨rfl, rfl⟩ <;> rfl

/-- A character that begins no other escape may be an octal digit, and is read by `octalNumber`. -/
theorem escape?_of_other {c : Char} (hshort : ∀ v, (c, v) ∉ shortEscapes) (hhex : ∀ width, (c, width) ∉ hexLetters)
    (after : List Char) :
    escape? (c :: after) =
      if (octalNumber (c :: after)).2 = 0 then none
      else some ⟨scalar? (octalNumber (c :: after)).1, (octalNumber (c :: after)).2⟩ := by
  have hne : c ∉ shortEscapes.map Prod.fst ∧ c ∉ hexLetters.map Prod.fst := by
    simp [hshort, hhex]
  simp only [shortEscapes, hexLetters, List.map_cons, List.map_nil, List.mem_cons, not_or] at hne
  simp [escape?, hne]

/-! ## Decoding -/

/-- A character other than `\` stands for itself. -/
theorem unescape_plain {c : Char} (h : c ≠ '\\') (after : List Char) :
    unescape (c :: after) = c :: unescape after := by
  rw [unescape, if_neg h]

/-- An escape stands for its value, and what is after it is decoded by itself. -/
theorem unescape_escape {rest : List Char} {e : Escape} (h : escape? rest = some e) :
    unescape ('\\' :: rest) = e.value.toList ++ unescape (rest.drop e.width) := by
  rw [unescape, if_pos rfl, h]

/-- A `\` that begins no escape is kept. -/
theorem unescape_kept {rest : List Char} (h : escape? rest = none) :
    unescape ('\\' :: rest) = '\\' :: unescape rest := by
  rw [unescape, if_pos rfl, h]

theorem not_short_of_isDigit {c : Char} {n : Nat} (h : IsDigit 8 c n) :
    (∀ v, (c, v) ∉ shortEscapes) ∧ ∀ width, (c, width) ∉ hexLetters := by
  have hshort : ∀ p ∈ shortEscapes, octalValue? p.1 = none := by decide
  have hhex : ∀ p ∈ hexLetters, octalValue? p.1 = none := by decide
  exact ⟨fun v hv => octalValue?_eq_none_iff.mp (hshort _ hv) n h,
    fun width hw => octalValue?_eq_none_iff.mp (hhex _ hw) n h⟩

/-- One to three octal digits are an escape, if no further one follows those that are fewer than three. -/
theorem escape?_octal {digits after : List Char} {v : Char} (hlength : digits.length ∈ [1, 2, 3])
    (hdigits : Denotes 8 digits v) (hafter : digits.length < 3 → ∀ c ∈ after.head?, ∀ n, ¬IsDigit 8 c n) :
    escape? (digits ++ after) = some ⟨some v, digits.length⟩ := by
  obtain ⟨ns, hns, hv⟩ := hdigits
  have hle : 1 ≤ digits.length ∧ digits.length ≤ 3 := by
    simp only [List.mem_cons, List.not_mem_nil, or_false] at hlength
    omega
  have hnumber := octalNumber_append hns hle.2 hafter
  -- the first digit tells that it is none of the other escapes
  cases hns with
  | nil => simp at hle
  | @cons c n digits ns hc hns =>
    obtain ⟨hshort, hhex⟩ := not_short_of_isDigit hc
    rw [List.cons_append] at hnumber ⊢
    rw [escape?_of_other hshort hhex, hnumber, hv, scalar?_eq_some_iff.mpr rfl]
    simp

/-- A character that none of the escapes begins with is read by `escape?` as none. -/
theorem escape?_kept {c : Char} {after : List Char} (h : (Spelling.kept (some c)).Fits after) :
    escape? (c :: after) = none := by
  obtain ⟨hshort, hoctal, hhex⟩ := h
  -- a letter that asks for digits has too few of them, and any other character is no octal digit
  by_cases hletter : ∃ width, (c, width) ∈ hexLetters
  · obtain ⟨width, hletter⟩ := hletter
    rw [escape?_of_hex hletter, Option.eq_none_iff_forall_ne_some]
    intro e he
    obtain ⟨digits, v, rfl, hprefix, hdigits, -⟩ := hexEscape?_eq_some_iff.mp he
    exact hhex digits v hletter hprefix hdigits
  · have hnone : octalNumber (c :: after) = (0, 0) := by
      rw [octalNumber, List.take_succ_cons, List.map_cons, octalValue?_eq_none_iff.mpr hoctal]
      rfl
    rw [escape?_of_other hshort (fun width hw => hletter ⟨width, hw⟩), hnone]
    rfl

/-- A spelling `s` that fits what follows is decoded to `s.value`. -/
theorem unescape_text_append {s : Spelling} {after : List Char} (h : s.Fits after) :
    unescape (s.text ++ after) = s.value ++ unescape after := by
  cases s with
  | plain c => exact unescape_plain h after
  | short c v => exact unescape_escape (escape?_of_short h after)
  | hex letter digits v =>
    obtain ⟨hletter, hdigits⟩ := h
    have hescape : escape? (letter :: (digits ++ after)) = some ⟨some v, digits.length + 1⟩ := by
      rw [escape?_of_hex hletter]
      exact hexEscape?_eq_some_iff.mpr ⟨digits, v, rfl, List.prefix_append digits after, hdigits, rfl⟩
    show unescape ('\\' :: letter :: (digits ++ after)) = v :: unescape after
    rw [unescape_escape hescape, List.drop_succ_cons, List.drop_left]
    rfl
  | octal digits v =>
    obtain ⟨hlength, hdigits, hafter⟩ := h
    show unescape ('\\' :: (digits ++ after)) = v :: unescape after
    rw [unescape_escape (escape?_octal hlength hdigits hafter), List.drop_left]
    rfl
  | kept next =>
    cases next with
    | none =>
      obtain rfl : after = [] := h
      exact unescape_kept rfl
    | some c =>
      have hne : c ≠ '\\' := by
        rintro rfl
        exact h.1 (some '\\') (by decide)
      show unescape ('\\' :: c :: after) = '\\' :: c :: unescape after
      rw [unescape_kept (escape?_kept h), unescape_plain hne]

/-- Fitting spellings are decoded by `unescape` one by one. -/
theorem unescape_flatMap {ss : List Spelling} (h : Fitting ss) :
    unescape (ss.flatMap Spelling.text) = ss.flatMap Spelling.value := by
  induction ss with
  | nil => rw [List.flatMap_nil, List.flatMap_nil, unescape]
  | cons s ss ih =>
    rw [List.flatMap_cons, List.flatMap_cons, unescape_text_append h.1, ih h.2]

/-! ## Every body is spelled -/

/-- The octal digits at the beginning, up to `most` of them. -/
theorem exists_octalDigits (most : Nat) (cs : List Char) :
    ∃ digits ns after, digits ++ after = cs ∧ digits.length ≤ most ∧ List.Forall₂ (IsDigit 8) digits ns ∧
      (digits.length < most → ∀ c ∈ after.head?, ∀ n, ¬IsDigit 8 c n) := by
  induction most generalizing cs with
  | zero => exact ⟨[], [], cs, rfl, Nat.le_refl 0, .nil, fun h => absurd h (Nat.lt_irrefl 0)⟩
  | succ most ih =>
    by_cases hdigit : ∃ c ∈ cs.head?, ∃ n, IsDigit 8 c n
    · obtain ⟨c, hc, n, hn⟩ := hdigit
      obtain ⟨rest, rfl⟩ := List.head?_eq_some_iff.mp hc
      obtain ⟨digits, ns, after, rfl, hlength, hdigits, hafter⟩ := ih rest
      exact ⟨c :: digits, n :: ns, after, rfl, Nat.succ_le_succ hlength, .cons hn hdigits,
        fun h => hafter (Nat.lt_of_succ_lt_succ h)⟩
    · exact ⟨[], [], cs, rfl, Nat.zero_le _, .nil, fun _ c hc n hn => hdigit ⟨c, hc, n, hn⟩⟩

/-- Three octal digits denote a character, as they are too few for a number that is none. -/
theorem exists_denotes {digits : List Char} {ns : List Nat} (h : List.Forall₂ (IsDigit 8) digits ns)
    (hlength : digits.length ≤ 3) : ∃ v, Denotes 8 digits v := by
  have hdigits : ∀ n ∈ ns, n < 8 := by
    clear hlength
    induction h with
    | nil => simp
    | cons hc _ ih => exact List.forall_mem_cons.mpr ⟨hc.1, ih⟩
  have hlt : Nat.ofDigits 8 ns.reverse < 8 ^ 3 := by
    refine Nat.lt_of_lt_of_le (Nat.ofDigits_lt_base_pow_length (by omega) (by simpa using hdigits)) ?_
    rw [List.length_reverse, ← h.length_eq]
    exact Nat.pow_le_pow_right (by omega) hlength
  have hvalid : (Nat.ofDigits 8 ns.reverse).isValidChar := Or.inl (Nat.lt_trans hlt (by decide))
  refine ⟨Char.ofNat (Nat.ofDigits 8 ns.reverse), ns, h, ?_⟩
  exact (Text.toNat_ofNat hvalid).symm

/-- A body that is not empty begins with a spelling that fits. -/
theorem exists_spelling {body : List Char} (h : body ≠ []) :
    ∃ (s : Spelling) (after : List Char), s.Fits after ∧ s.text ++ after = body := by
  obtain ⟨c, rest, rfl⟩ := List.exists_cons_of_ne_nil h
  by_cases hc : c = '\\'
  · subst hc
    cases rest with
    | nil => exact ⟨.kept none, [], rfl, rfl⟩
    | cons c after =>
      -- a backslash is kept if none of the forms of escapes is there
      by_cases hshort : ∃ v, (c, v) ∈ shortEscapes
      · obtain ⟨v, hv⟩ := hshort
        exact ⟨.short c v, after, hv, rfl⟩
      by_cases hhex : ∃ digits v, (c, digits.length) ∈ hexLetters ∧ digits <+: after ∧ Denotes 16 digits v
      · obtain ⟨digits, v, hletter, ⟨after, rfl⟩, hv⟩ := hhex
        exact ⟨.hex c digits v, after, ⟨hletter, hv⟩, rfl⟩
      by_cases hoctal : ∃ n, IsDigit 8 c n
      · obtain ⟨digits, ns, rest, happend, hlength, hdigits, hafter⟩ := exists_octalDigits 3 (c :: after)
        obtain ⟨v, hv⟩ := exists_denotes hdigits hlength
        have hne : digits.length ≠ 0 := by
          intro hzero
          obtain ⟨n, hn⟩ := hoctal
          obtain rfl := List.eq_nil_of_length_eq_zero hzero
          obtain rfl : rest = c :: after := happend
          exact hafter (by decide) c rfl n hn
        refine ⟨.octal digits v, rest, ⟨?_, hv, hafter⟩, congrArg ('\\' :: ·) happend⟩
        simp only [List.mem_cons, List.not_mem_nil, or_false]
        omega
      · refine ⟨.kept (some c), after, ⟨fun v hv => hshort ⟨v, hv⟩, fun n hn => hoctal ⟨n, hn⟩, ?_⟩, rfl⟩
        exact fun digits v hletter hprefix hv => hhex ⟨digits, v, hletter, hprefix, hv⟩
  · exact ⟨.plain c, rest, hc, rfl⟩

/-- Every body is the text of spellings that fit. -/
theorem exists_fitting (body : List Char) : ∃ ss, Fitting ss ∧ ss.flatMap Spelling.text = body := by
  induction hn : body.length using Nat.strongRecOn generalizing body with
  | _ n ih =>
    by_cases hbody : body = []
    · exact ⟨[], trivial, hbody.symm⟩
    · obtain ⟨s, after, hfits, rfl⟩ := exists_spelling hbody
      have hlt : after.length < n := by
        have hpos : 0 < s.text.length := by cases s <;> simp [Spelling.text]
        rw [← hn, List.length_append]
        omega
      obtain ⟨ss, hss, rfl⟩ := ih after.length hlt after rfl
      exact ⟨s :: ss, ⟨hfits, hss⟩, List.flatMap_cons ..⟩

/-- Spellings of the characters `cs` stand for `cs`. -/
theorem flatMap_value_of_spells {ss : List Spelling} {cs : List Char} (h : List.Forall₂ Spelling.Spells ss cs) :
    ss.flatMap Spelling.value = cs := by
  induction h with
  | nil => rfl
  | cons hs _ ih =>
    rw [List.flatMap_cons, hs.1, ih]
    rfl

/-- By `unescape` a body becomes what its spellings stand for, whatever spellings that fit are put after one another,
and every body is made of such. So a text comes back from all ways to spell its characters. -/
theorem unescape_fitting :
    (∀ ss, Fitting ss → unescape (ss.flatMap Spelling.text) = ss.flatMap Spelling.value) ∧
      (∀ body, ∃ ss, Fitting ss ∧ ss.flatMap Spelling.text = body) ∧
      ∀ ss cs, Fitting ss → List.Forall₂ Spelling.Spells ss cs → unescape (ss.flatMap Spelling.text) = cs := by
  refine ⟨fun ss h => unescape_flatMap h, exists_fitting, fun ss cs h hspells => ?_⟩
  rw [unescape_flatMap h, flatMap_value_of_spells hspells]

/-- A character in hexadecimal digits, one in octal digits with a digit after it, an octal digit before another
escape, and a backslash that begins no escape. -/
theorem unescape_fitting_mixed :
    Fitting [.plain 'f', .hex 'x' ['E', '9'] 'é', .octal ['1', '0', '1'] 'A', .plain '2', .octal ['0'] '\x00',
        .short '\n' none, .kept (some 'x'), .plain 'g'] ∧
      unescape "f\\xE9\\1012\\0\\\n\\xg".toList = "féA2\x00\\xg".toList := by
  have hfitting : Fitting [.plain 'f', .hex 'x' ['E', '9'] 'é', .octal ['1', '0', '1'] 'A', .plain '2',
      .octal ['0'] '\x00', .short '\n' none, .kept (some 'x'), .plain 'g'] := by
    have hhex : Denotes 16 ['E', '9'] 'é' := ⟨[14, 9], .cons (by decide) (.cons (by decide) .nil), by decide⟩
    have hoctal : Denotes 8 ['1', '0', '1'] 'A' :=
      ⟨[1, 0, 1], .cons (by decide) (.cons (by decide) (.cons (by decide) .nil)), by decide⟩
    have hzero : Denotes 8 ['0'] '\x00' := ⟨[0], .cons (by decide) .nil, by decide⟩
    have hbackslash : ∀ c ∈ ['\\', '\n', 'x', 'g'].head?, ∀ n, ¬IsDigit 8 c n := by
      rintro c ⟨rfl⟩
      exact octalValue?_eq_none_iff.mp (by decide)
    -- one character is too few for the two digits that the letter asks for
    have hkept : (Spelling.kept (some 'x')).Fits ['g'] := by
      refine ⟨by simp [shortEscapes], octalValue?_eq_none_iff.mp (by decide), fun digits v hletter hprefix _ => ?_⟩
      have hone : digits.length ≤ 1 := hprefix.length_le
      have htwo : digits.length = 2 := by simpa [hexLetters] using hletter
      omega
    have hplain : ∀ c ∈ ['f', '2', 'g'], c ≠ '\\' := by simp
    exact ⟨hplain 'f' (by decide), ⟨by decide, hhex⟩, ⟨by decide, hoctal, fun h => absurd h (Nat.lt_irrefl 3)⟩,
      hplain '2' (by decide), ⟨by decide, hzero, fun _ => hbackslash⟩,
      show (_, _) ∈ shortEscapes by decide, hkept, hplain 'g' (by decide), trivial⟩
  exact ⟨hfitting, unescape_fitting.1 _ hfitting⟩

end PayloadAtlas.Python.Literal
