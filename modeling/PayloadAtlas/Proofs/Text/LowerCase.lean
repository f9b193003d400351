import Mathlib.Data.List.Basic
import PayloadAtlas.Proofs.Text.Case
import PayloadAtlas.Text.LetterCase
import PayloadAtlas.Text.Part

/-!
# Small letters

What a text is in small letters hangs on what stands around it in one place only: a capital sigma has a form of its
own at the end of a word. So a text that stands in another one need not stand in it any more when both are in small
letters. It does beside all texts just if none of its sigmas is loose, that is, would get the other form beside some
text (`infix_lowerAll_iff`). The case of ASCII letters does not matter at all (`lowercase_congr`), and nothing around a
text does to what has no sigma (`infix_lowerAll_append`).
-/

namespace PayloadAtlas.Text

variable {c : Char} {s t : String} {x y cs before after : List Char}

/-- A capital sigma of a text gets another form if a letter stands before the text: nothing that counts is before
it, and no letter behind it. Or it does if a letter stands behind the text: a letter is before it, and nothing that
counts behind it. -/
def HasLooseSigma (cs : List Char) : Prop :=
  ∃ x y, cs = x ++ 'Σ' :: y ∧
    ((∀ c ∈ x, isCaseIgnorable c) ∧ ¬casedAhead y ∨ casedAhead x.reverse ∧ ∀ c ∈ y, isCaseIgnorable c)

theorem not_hasLooseSigma (h : 'Σ' ∉ cs) : ¬HasLooseSigma cs := by
  rintro ⟨x, y, rfl, -⟩
  exact h (by simp)

/-! ## Parts -/

/-- What `beginsWith` decides is that `needle` is a prefix. -/
theorem beginsWith_iff {needle : List Char} : beginsWith cs needle ↔ needle <+: cs := by
  induction cs generalizing needle with
  | nil => cases needle <;> simp [beginsWith]
  | cons c cs ih =>
    cases needle with
    | nil => simp [beginsWith]
    | cons d needle => rw [beginsWith, Bool.and_eq_true, beq_iff_eq, ih, List.cons_prefix_cons, eq_comm]

/-- What `hasPart` decides is that `needle` is an infix. -/
theorem hasPart_iff {needle : List Char} : hasPart needle cs ↔ needle <:+: cs := by
  induction cs with
  | nil => simp [hasPart]
  | cons c cs ih => rw [hasPart, Bool.or_eq_true, beginsWith_iff, ih, List.infix_cons_iff]

/-! ## The case of ASCII letters -/

/-- Within ASCII the small letter of a character counts as the character does. -/
theorem toLower_ascii (h : c.toNat < 0x80) :
    c.toLower.toNat < 0x80 ∧ c.toLower.isAlpha = c.isAlpha ∧ isCaseIgnorable c.toLower = isCaseIgnorable c := by
  have hall : ∀ n < 0x80, (Char.ofNat n).toLower.toNat < 0x80 ∧
      (Char.ofNat n).toLower.isAlpha = (Char.ofNat n).isAlpha ∧
      isCaseIgnorable (Char.ofNat n).toLower = isCaseIgnorable (Char.ofNat n) := by decide
  have hc := hall c.toNat h
  rwa [Char.ofNat_toNat] at hc

/-- A small letter has a case as its capital has. -/
theorem isCased_toLower (c : Char) : isCased c.toLower = isCased c := by
  by_cases h : c.toNat < 0x80
  · rw [isCased, isCased, if_pos (toLower_ascii h).1, if_pos h, (toLower_ascii h).2.1]
  · rw [toLower_of_beyondAscii h]

/-- A small letter is passed over as its capital is. -/
theorem isCaseIgnorable_toLower (c : Char) : isCaseIgnorable c.toLower = isCaseIgnorable c := by
  by_cases h : c.toNat < 0x80
  · exact (toLower_ascii h).2.2
  · rw [toLower_of_beyondAscii h]

theorem lowerChar_toLower (c : Char) : lowerChar c.toLower = lowerChar c := by
  by_cases h : c.toNat < 0x80
  · rw [lowerChar, lowerChar, if_pos (toLower_ascii h).1, if_pos h, toLower_toLower]
  · rw [toLower_of_beyondAscii h]

theorem toLower_eq_sigma_iff : c.toLower = 'Σ' ↔ c = 'Σ' := by
  by_cases h : c.toNat < 0x80
  · have hsigma : ¬('Σ'.toNat < 0x80) := by decide
    exact iff_of_false (fun heq => hsigma (heq ▸ (toLower_ascii h).1)) (fun heq => hsigma (heq ▸ h))
  · rw [toLower_of_beyondAscii h]

theorem casedAhead_cons (c : Char) (cs : List Char) :
    casedAhead (c :: cs) = if isCaseIgnorable c then casedAhead cs else isCased c := by
  rw [casedAhead, List.dropWhile_cons]
  split_ifs <;> rfl

/-- The case of ASCII letters does not change whether a letter is ahead. -/
theorem casedAhead_map_toLower (cs : List Char) : casedAhead (cs.map Char.toLower) = casedAhead cs := by
  induction cs with
  | nil => rfl
  | cons c cs ih =>
    rw [List.map_cons, casedAhead_cons, casedAhead_cons, isCaseIgnorable_toLower, isCased_toLower, ih]

/-- The case of ASCII letters does not change the small letters, before or behind. -/
theorem lowerAll_map_toLower (before cs : List Char) :
    lowerAll (before.map Char.toLower) (cs.map Char.toLower) = lowerAll before cs := by
  induction cs generalizing before with
  | nil => rfl
  | cons c cs ih =>
    rw [List.map_cons, lowerAll, lowerAll, ← List.map_cons, ih (c :: before)]
    simp only [toLower_eq_sigma_iff, casedAhead_map_toLower, lowerChar_toLower]

/-- The case of ASCII letters is gone in `lowercase`. -/
theorem lowercase_map_toLower (s : String) : lowercase (s.map Char.toLower) = lowercase s := by
  rw [lowercase, lowercase, String.toList_map]
  exact congrArg String.ofList (lowerAll_map_toLower [] s.toList)

/-- Texts that are `SameLetters` have one text in small letters. -/
theorem lowercase_congr (h : SameLetters s t) : lowercase s = lowercase t := by
  rw [← lowercase_map_toLower s, map_toLower_eq_iff.mpr h, lowercase_map_toLower]

/-! ## The end of a word -/

/-- The small letters of a character between others; those `before` it are given the last one first. -/
def lowerAmid (before : List Char) (c : Char) (after : List Char) : List Char :=
  if c = 'Σ' then if casedAhead before && !casedAhead after then ['ς'] else ['σ'] else lowerChar c

/-- The small letters of a text between others, of which `before` has the last one first. -/
def lowerBetween (before : List Char) : List Char → List Char → List Char
  | [], _ => []
  | c :: rest, after => lowerAmid before c (rest ++ after) ++ lowerBetween (c :: before) rest after

/-- The first character has what comes next `after` it, and is itself `before` that. -/
theorem lowerAll_cons (before : List Char) (c : Char) (cs : List Char) :
    lowerAll before (c :: cs) = lowerAmid before c cs ++ lowerAll (c :: before) cs := rfl

/-- Every character has a small letter, or more, so only the empty text is empty in `lowercase`. -/
theorem lowercase_eq_empty_iff : lowercase s = "" ↔ s = "" := by
  rw [← String.toList_eq_nil_iff, ← String.toList_eq_nil_iff, lowercase, String.toList_ofList]
  cases s.toList with
  | nil => simp [lowerAll]
  | cons c cs =>
    have hamid : lowerAmid [] c cs ≠ [] := by
      unfold lowerAmid lowerChar
      split_ifs <;> simp
    simp [lowerAll_cons, hamid]

/-- The small letters of two texts together, each with the other one beside it. -/
theorem lowerAll_append (before x y : List Char) :
    lowerAll before (x ++ y) = lowerBetween before x y ++ lowerAll (x.reverse ++ before) y := by
  induction x generalizing before with
  | nil => rfl
  | cons c x ih =>
    rw [List.cons_append, lowerAll_cons, ih, lowerBetween, List.reverse_cons, List.append_assoc, List.append_assoc]
    rfl

/-- What does not count, by `isCaseIgnorable`, is passed over. -/
theorem casedAhead_append_of_forall (h : ∀ c ∈ x, isCaseIgnorable c) (y : List Char) :
    casedAhead (x ++ y) = casedAhead y := by
  rw [casedAhead, casedAhead, List.dropWhile_append_of_pos h]

/-- Nothing behind what counts matters to `casedAhead`. -/
theorem casedAhead_append_of_exists (h : ∃ c ∈ x, ¬isCaseIgnorable c) (y : List Char) :
    casedAhead (x ++ y) = casedAhead x := by
  induction x with
  | nil => simp at h
  | cons c x ih =>
    rw [List.cons_append, casedAhead_cons, casedAhead_cons]
    split
    · next hc =>
      rw [List.exists_mem_cons_iff] at h
      exact ih (h.resolve_left (not_not.mpr hc))
    · rfl

theorem exists_of_casedAhead (h : casedAhead x) : ∃ c ∈ x, ¬isCaseIgnorable c := by
  by_contra hnone
  push Not at hnone
  rw [← List.append_nil x, casedAhead_append_of_forall hnone] at h
  simp [casedAhead] at h

theorem not_isCaseIgnorable_sigma : ¬isCaseIgnorable 'Σ' := by decide +kernel

theorem sigma_notMem (h : ∀ c ∈ x, isCaseIgnorable c) : 'Σ' ∉ x := fun hmem => not_isCaseIgnorable_sigma (h _ hmem)

/-- The capital sigma has `ς` at the end of a word and `σ` elsewhere. -/
theorem lowerAmid_sigma (before after : List Char) :
    lowerAmid before 'Σ' after = if casedAhead before && !casedAhead after then ['ς'] else ['σ'] := if_pos rfl

theorem lowerAmid_of_ne (h : c ≠ 'Σ') (before after : List Char) : lowerAmid before c after = lowerChar c := if_neg h

/-- Without a `Σ` nothing hangs on what is around a text. -/
theorem lowerBetween_of_notMem (h : 'Σ' ∉ x) (before after : List Char) :
    lowerBetween before x after = x.flatMap lowerChar := by
  induction x generalizing before with
  | nil => rfl
  | cons c x ih =>
    rw [List.mem_cons, not_or] at h
    rw [lowerBetween, lowerAmid_of_ne (Ne.symm h.1), ih h.2, List.flatMap_cons]

/-- With nothing behind it, a text is in small letters as it is between others. -/
theorem lowerAll_eq_lowerBetween (before x : List Char) : lowerAll before x = lowerBetween before x [] := by
  rw [← List.append_nil x, lowerAll_append]
  simp [lowerAll]

/-- What is before something that counts does not matter to `lowerAll` behind it. -/
theorem lowerAll_append_before (h : ∃ c ∈ before, ¬isCaseIgnorable c) (y x : List Char) :
    lowerAll (before ++ y) x = lowerAll before x := by
  induction x generalizing before with
  | nil => rfl
  | cons c x ih =>
    have hnext : ∃ d ∈ c :: before, ¬isCaseIgnorable d := (List.exists_mem_cons_iff ..).mpr (.inr h)
    rw [lowerAll_cons, lowerAll_cons, ← List.cons_append, ih hnext, lowerAmid, lowerAmid, casedAhead_append_of_exists h]

/-- What is behind something that counts does not matter to `lowerBetween` before it. -/
theorem lowerBetween_append_after (h : ∃ c ∈ after, ¬isCaseIgnorable c) (before x y : List Char) :
    lowerBetween before x (after ++ y) = lowerBetween before x after := by
  obtain ⟨d, hd, hcounts⟩ := h
  induction x generalizing before with
  | nil => rfl
  | cons c x ih =>
    rw [lowerBetween, lowerBetween, ih, ← List.append_assoc, lowerAmid, lowerAmid,
      casedAhead_append_of_exists ⟨d, List.mem_append_right x hd, hcounts⟩]

/-! ## Texts within texts -/

/-- A `Σ` that is not loose has one form beside all texts. -/
theorem lowerAmid_of_not_loose (h : ¬((∀ c ∈ x, isCaseIgnorable c) ∧ ¬casedAhead y))
    (h' : ¬(casedAhead x.reverse ∧ ∀ c ∈ y, isCaseIgnorable c)) (a b : List Char) :
    lowerAmid (x.reverse ++ a) 'Σ' (y ++ b) = lowerAmid x.reverse 'Σ' y := by
  rw [lowerAmid_sigma, lowerAmid_sigma]
  -- with a letter behind, the sigma is inside a word; without one, what is before it tells
  by_cases hy : casedAhead y
  · rw [casedAhead_append_of_exists (exists_of_casedAhead hy), hy]
    simp
  · have hx : ∃ c ∈ x.reverse, ¬isCaseIgnorable c := by
      by_contra hnone
      push Not at hnone
      exact h ⟨fun c hc => hnone c (List.mem_reverse.mpr hc), hy⟩
    rw [casedAhead_append_of_exists hx]
    by_cases hcased : casedAhead x.reverse
    · have hcounts : ∃ c ∈ y, ¬isCaseIgnorable c := by
        by_contra hnone
        push Not at hnone
        exact h' ⟨hcased, hnone⟩
      rw [casedAhead_append_of_exists hcounts]
    · simp [hcased]

/-- A text without a `HasLooseSigma` has the same small letters beside all texts. -/
theorem lowerBetween_of_not_loose (h : ¬HasLooseSigma (x ++ y)) (a b : List Char) :
    lowerBetween (x.reverse ++ a) y b = lowerAll x.reverse y := by
  induction y generalizing x with
  | nil => rfl
  | cons c y ih =>
    have hrest := ih (x := x ++ [c]) (by rwa [List.append_assoc, List.singleton_append])
    rw [List.reverse_append, List.reverse_singleton, List.singleton_append, List.cons_append] at hrest
    rw [lowerBetween, lowerAll_cons, hrest]
    congr 1
    by_cases hc : c = 'Σ'
    · subst hc
      exact lowerAmid_of_not_loose (fun hx => h ⟨x, y, rfl, .inl hx⟩) (fun hx => h ⟨x, y, rfl, .inr hx⟩) a b
    · rw [lowerAmid_of_ne hc, lowerAmid_of_ne hc]

/-- A letter before a loose `Σ` makes it one at the end of a word. -/
theorem lowerAll_before_loose (hx : ∀ c ∈ x, isCaseIgnorable c) (hy : ¬casedAhead y) :
    ∃ l r, lowerAll [] (x ++ 'Σ' :: y) = l ++ 'σ' :: r ∧
      lowerAll [] ('a' :: (x ++ 'Σ' :: y)) = 'a' :: l ++ 'ς' :: r := by
  have hreverse : ∀ c ∈ x.reverse, isCaseIgnorable c := fun c hc => hx c (List.mem_reverse.mp hc)
  have hcased : casedAhead (x.reverse ++ ['a']) = true := by
    rw [casedAhead_append_of_forall hreverse]
    decide
  have huncased : casedAhead x.reverse = false := by
    have h := casedAhead_append_of_forall hreverse []
    rwa [List.append_nil] at h
  refine ⟨x.flatMap lowerChar, lowerAll ('Σ' :: x.reverse) y, ?_, ?_⟩
  · rw [lowerAll_append, lowerBetween_of_notMem (sigma_notMem hx), lowerAll_cons, List.append_nil,
      lowerAmid_sigma, huncased]
    rfl
  · rw [lowerAll_cons, lowerAmid_of_ne (by decide), lowerAll_append, lowerBetween_of_notMem (sigma_notMem hx),
      lowerAll_cons, lowerAmid_sigma, hcased, ← List.cons_append,
      lowerAll_append_before ⟨'Σ', List.mem_cons_self, not_isCaseIgnorable_sigma⟩]
    simp [hy, lowerChar]

/-- A letter behind a loose `Σ` makes it one inside a word. -/
theorem lowerAll_after_loose (hx : casedAhead x.reverse) (hy : ∀ c ∈ y, isCaseIgnorable c) :
    ∃ l r, lowerAll [] (x ++ 'Σ' :: y) = l ++ 'ς' :: r ∧
      lowerAll [] (x ++ 'Σ' :: y ++ ['a']) = l ++ 'σ' :: r ++ ['a'] := by
  have hcased : casedAhead (y ++ ['a']) = true := by
    rw [casedAhead_append_of_forall hy]
    decide
  have huncased : casedAhead y = false := by
    have h := casedAhead_append_of_forall hy []
    rwa [List.append_nil] at h
  have hsigma : ∃ c ∈ 'Σ' :: y, ¬isCaseIgnorable c := ⟨'Σ', List.mem_cons_self, not_isCaseIgnorable_sigma⟩
  refine ⟨lowerBetween [] x ('Σ' :: y), y.flatMap lowerChar, ?_, ?_⟩
  · rw [lowerAll_append, lowerAll_cons, lowerAll_eq_lowerBetween, lowerBetween_of_notMem (sigma_notMem hy),
      List.append_nil, lowerAmid_sigma, hx, huncased]
    rfl
  · rw [List.append_assoc, lowerAll_append, lowerBetween_append_after hsigma, List.cons_append, lowerAll_cons,
      lowerAll_append, lowerBetween_of_notMem (sigma_notMem hy), List.append_nil, lowerAmid_sigma, hx, hcased]
    simp [lowerAll, lowerChar]

/-- A text stands in small letters in all texts that it stands in just if it has no `HasLooseSigma`. -/
theorem infix_lowerAll_iff :
    (∀ a b, lowerAll [] cs <:+: lowerAll [] (a ++ cs ++ b)) ↔ ¬HasLooseSigma cs := by
  constructor
  · rintro h ⟨x, y, rfl, ⟨hx, hy⟩ | ⟨hx, hy⟩⟩
    · obtain ⟨l, r, halone, hbeside⟩ := lowerAll_before_loose hx hy
      -- the letter beside it takes one small sigma away
      have hcount := (h ['a'] []).sublist.count_le 'σ'
      rw [List.append_nil, List.singleton_append, halone, hbeside] at hcount
      grind
    · obtain ⟨l, r, halone, hbeside⟩ := lowerAll_after_loose hx hy
      have hcount := (h [] ['a']).sublist.count_le 'ς'
      rw [List.nil_append, halone, hbeside] at hcount
      grind
  · intro h a b
    rw [List.append_assoc, lowerAll_append, lowerAll_append, ← List.append_assoc]
    have hsame := lowerBetween_of_not_loose (x := []) h (a.reverse ++ []) b
    rw [List.reverse_nil, List.nil_append] at hsame
    exact ⟨_, _, by rw [hsame]⟩

/-! ## Parts without a sigma -/

/-- The two small sigmas `ς` and `σ` taken for one. -/
def oneSigma (c : Char) : Char := if c = 'ς' then 'σ' else c

/-- But for the form of the sigma nothing hangs on what is around a character. -/
theorem map_oneSigma_lowerAmid (before : List Char) (c : Char) (after : List Char) :
    (lowerAmid before c after).map oneSigma = (lowerAmid [] c []).map oneSigma := by
  by_cases hc : c = 'Σ'
  · subst hc
    rw [lowerAmid_sigma, lowerAmid_sigma]
    split <;> rfl
  · rw [lowerAmid_of_ne hc, lowerAmid_of_ne hc]

/-- But for the form of the sigmas, by `oneSigma`, nothing hangs on what is around a text. -/
theorem map_oneSigma_lowerBetween (before x after : List Char) :
    (lowerBetween before x after).map oneSigma = x.flatMap fun c => (lowerAmid [] c []).map oneSigma := by
  induction x generalizing before with
  | nil => rfl
  | cons c x ih => rw [lowerBetween, List.map_append, map_oneSigma_lowerAmid, ih, List.flatMap_cons]

theorem oneSigma_eq_iff {d : Char} (h : d ≠ 'σ') (h' : d ≠ 'ς') : oneSigma c = d ↔ c = d := by
  unfold oneSigma
  split
  · next hc =>
    subst hc
    exact iff_of_false (Ne.symm h) (Ne.symm h')
  · rfl

/-- To a `needle` that has no small sigma their form does not matter. -/
theorem infix_map_oneSigma_iff {needle : List Char} (h : 'σ' ∉ needle) (h' : 'ς' ∉ needle) :
    needle <:+: cs.map oneSigma ↔ needle <:+: cs := by
  have heq {xs : List Char} : needle = xs.map oneSigma ↔ needle = xs := by
    induction needle generalizing xs with
    | nil => cases xs <;> simp
    | cons d needle ih =>
      obtain ⟨hd, h⟩ := not_or.mp (List.mem_cons.not.mp h)
      obtain ⟨hd', h'⟩ := not_or.mp (List.mem_cons.not.mp h')
      cases xs with
      | nil => simp
      | cons c xs =>
        rw [List.map_cons, List.cons.injEq, List.cons.injEq, ih h h', eq_comm,
          oneSigma_eq_iff (Ne.symm hd) (Ne.symm hd'), eq_comm]
  rw [List.infix_map_iff]
  constructor
  · rintro ⟨xs, hxs, hneedle⟩
    exact heq.mp hneedle ▸ hxs
  · intro hpart
    exact ⟨needle, hpart, heq.mpr rfl⟩

/-- A `needle` that stands in the small letters of a text, and has no sigma, stands in those of each text around it.
-/
theorem infix_lowerAll_append {needle : List Char} (h : 'σ' ∉ needle) (h' : 'ς' ∉ needle)
    (hpart : needle <:+: lowerAll [] x) (a b : List Char) : needle <:+: lowerAll [] (a ++ x ++ b) := by
  rw [lowerAll_eq_lowerBetween, ← infix_map_oneSigma_iff h h', map_oneSigma_lowerBetween] at hpart
  rw [List.append_assoc, lowerAll_append, lowerAll_append, ← List.append_assoc]
  have hbetween : needle <:+: lowerBetween (a.reverse ++ []) x b := by
    rwa [← infix_map_oneSigma_iff h h', map_oneSigma_lowerBetween]
  exact hbetween.trans ⟨_, _, rfl⟩

end PayloadAtlas.Text
