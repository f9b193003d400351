import Mathlib.Data.List.DropRight
import PayloadAtlas.Proofs.Python.Escape

/-!
# Line ends in literals

The lines of a body may end in a line feed, or in a carriage return and a line feed. Decoding goes line by line
and leaves the line ends as they are (`unescape_intercalate`), as long as no backslash at the end of a line takes
part in the line end (`IsOpen`). So what a body stands for changes with its line ends, and in nothing else
(`unescape_lines`).
-/

namespace PayloadAtlas.Python.Literal

variable {before after body : List Char}

/-- A line end of two characters. -/
def returnFeed : List Char := ['\r', '\n']

/-- A text with line feeds alone for its line ends of two characters. -/
def withLineFeeds : List Char → List Char
  | [] => []
  | '\r' :: '\n' :: rest => '\n' :: withLineFeeds rest
  | c :: rest => c :: withLineFeeds rest

/-- The last backslash of a text begins an escape with what follows: it ends in an odd number of them. -/
def IsOpen (cs : List Char) : Prop := (cs.rtakeWhile (· = '\\')).length % 2 = 1

instance (cs : List Char) : Decidable (IsOpen cs) := inferInstanceAs (Decidable (_ = _))

/-! ## What an escape can take part in -/

/-- A character other than the backslash cuts off all that is before it. -/
theorem isOpen_append_of_ne {c : Char} (hc : c ≠ '\\') (before after : List Char) :
    IsOpen (before ++ c :: after) ↔ IsOpen after := by
  have hsame : (before ++ c :: after).rtakeWhile (· = '\\') = after.rtakeWhile (· = '\\') := by
    have hstop : ((c :: before.reverse).takeWhile (· = '\\')) = [] := by simp [hc]
    simp only [List.rtakeWhile, List.reverse_append, List.reverse_cons, List.append_assoc, List.singleton_append]
    rw [List.takeWhile_append]
    split
    · next hall => rw [hstop, List.append_nil, (List.takeWhile_prefix _).eq_of_length hall]
    · rfl
  rw [IsOpen, IsOpen, hsame]

/-- Two backslashes take part in one escape, and leave the rest as it was. -/
theorem isOpen_backslashes (after : List Char) : IsOpen ('\\' :: '\\' :: after) ↔ IsOpen after := by
  -- in a run of backslashes the number counts, and in any other text what comes after the last other character
  by_cases hall : ∀ c ∈ after, c = '\\'
  · obtain ⟨n, rfl⟩ : ∃ n, after = List.replicate n '\\' := ⟨_, List.eq_replicate_of_mem hall⟩
    have hcount : ∀ n, IsOpen (List.replicate n '\\') ↔ n % 2 = 1 := by
      intro n
      simp [IsOpen, List.rtakeWhile]
    rw [show '\\' :: '\\' :: List.replicate n '\\' = List.replicate (n + 2) '\\' from rfl, hcount, hcount,
      Nat.add_mod_right]
  · push Not at hall
    obtain ⟨c, hmem, hc⟩ := hall
    obtain ⟨a, b, rfl⟩ := List.append_of_mem hmem
    rw [isOpen_append_of_ne hc a b, ← isOpen_append_of_ne hc ('\\' :: '\\' :: a) b]
    rfl

theorem ne_backslash_of_isDigit {base n : Nat} {c : Char} (h : IsDigit base c n) : c ≠ '\\' := by
  rintro rfl
  rcases h.2 with hn | hn <;> exact absurd (List.mem_of_getElem? hn) (by decide)

theorem Denotes.isDigit {base : Nat} {digits : List Char} {v : Char} (h : Denotes base digits v) :
    ∀ c ∈ digits, ∃ n, IsDigit base c n := by
  obtain ⟨ns, hns, -⟩ := h
  induction hns with
  | nil => simp
  | cons hc _ ih => exact List.forall_mem_cons.mpr ⟨⟨_, hc⟩, ih⟩

/-- A spelling that ends in a digit is not open, as a digit is no backslash. -/
theorem isOpen_digits_append {base : Nat} {digits : List Char} {v : Char} (h : Denotes base digits v)
    (hne : digits ≠ []) (before after : List Char) : IsOpen (before ++ digits ++ after) ↔ IsOpen after := by
  obtain ⟨n, hlast⟩ := h.isDigit _ (List.getLast_mem hne)
  rw [← List.dropLast_concat_getLast hne, ← List.append_assoc, List.append_assoc, List.singleton_append]
  exact isOpen_append_of_ne (ne_backslash_of_isDigit hlast) _ after

/-- A spelling takes no part in what is after it, unless it is `kept none`, a backslash at the end. -/
theorem isOpen_text_append {s : Spelling} {after : List Char} (h : s.Fits after) (hs : s ≠ .kept none)
    (rest : List Char) : IsOpen (s.text ++ rest) ↔ IsOpen rest := by
  cases s with
  | plain c => exact isOpen_append_of_ne h [] rest
  | short c v =>
    by_cases hc : c = '\\'
    · subst hc
      exact isOpen_backslashes rest
    · exact isOpen_append_of_ne hc ['\\'] rest
  | hex letter digits v =>
    obtain ⟨hletter, hdigits⟩ := h
    refine isOpen_digits_append hdigits ?_ ['\\', letter] rest
    rintro rfl
    simp [hexLetters] at hletter
  | octal digits v =>
    obtain ⟨hlength, hdigits, -⟩ := h
    refine isOpen_digits_append hdigits ?_ ['\\'] rest
    rintro rfl
    simp at hlength
  | kept next =>
    cases next with
    | none => exact absurd rfl hs
    | some c =>
      have hc : c ≠ '\\' := by
        rintro rfl
        exact h.1 (some '\\') (by decide)
      exact isOpen_append_of_ne hc ['\\'] rest

/-- A text is open just if `kept none` is among its spellings, a backslash that begins no escape. -/
theorem isOpen_flatMap_text {ss : List Spelling} (h : Fitting ss) :
    IsOpen (ss.flatMap Spelling.text) ↔ Spelling.kept none ∈ ss := by
  induction ss with
  | nil => simp [IsOpen]
  | cons s ss ih =>
    rw [List.flatMap_cons, List.mem_cons]
    by_cases hs : s = .kept none
    · subst hs
      have hnil : ss.flatMap Spelling.text = [] := h.1
      rw [hnil, List.append_nil]
      exact iff_of_true (by decide) (Or.inl rfl)
    · rw [isOpen_text_append h.1 hs, ih h.2]
      simp [Ne.symm hs]

/-! ## Decoding line by line -/

/-- A spelling goes on to fit if what follows is continued by something that is no digit. -/
theorem Spelling.Fits.append {s : Spelling} (h : s.Fits before) (hs : s ≠ .kept none)
    (hafter : ∀ c ∈ after.head?, ∀ n, ¬IsDigit 16 c n) : s.Fits (before ++ after) := by
  -- only octal digits, and the digits that an escape lacks, could go on
  cases s with
  | plain c => exact h
  | short c v => exact h
  | hex letter digits v => exact h
  | octal digits v =>
    refine ⟨h.1, h.2.1, fun hlength c hc n hn => ?_⟩
    cases before with
    | nil => exact hafter c hc n ⟨Nat.lt_trans hn.1 (by decide), hn.2⟩
    | cons b before => exact h.2.2 hlength c hc n hn
  | kept next =>
    cases next with
    | none => exact absurd rfl hs
    | some c =>
      refine ⟨h.1, h.2.1, fun digits v hletter hprefix hv => ?_⟩
      rcases Nat.le_total digits.length before.length with hle | hle
      · exact h.2.2 digits v hletter (List.prefix_of_prefix_length_le hprefix (List.prefix_append _ _) hle) hv
      · -- the digits would go on into what follows
        obtain ⟨more, rfl⟩ := List.prefix_of_prefix_length_le (List.prefix_append _ _) hprefix hle
        cases more with
        | nil =>
          rw [List.append_nil] at hletter hv
          exact h.2.2 before v hletter (List.prefix_refl before) hv
        | cons d more =>
          obtain ⟨n, hn⟩ := hv.isDigit d (by simp)
          obtain ⟨rest, rfl⟩ : d :: more <+: after := (List.prefix_append_right_inj before).mp hprefix
          exact hafter d rfl n hn

/-- Two texts are decoded each by itself, if no escape goes on from the one to the other. -/
theorem unescape_append (hbefore : ¬IsOpen before) (hafter : ∀ c ∈ after.head?, ∀ n, ¬IsDigit 16 c n) :
    unescape (before ++ after) = unescape before ++ unescape after := by
  obtain ⟨ss, hss, rfl⟩ := exists_fitting before
  rw [isOpen_flatMap_text hss] at hbefore
  rw [unescape_flatMap hss]
  induction ss with
  | nil => rfl
  | cons s ss ih =>
    rw [List.mem_cons, not_or] at hbefore
    rw [List.flatMap_cons, List.append_assoc, List.flatMap_cons, List.append_assoc,
      unescape_text_append (hss.1.append (Ne.symm hbefore.1) hafter), ih hss.2 hbefore.2]

/-- Both line ends, which stand for themselves. -/
def IsLineEnd (e : List Char) : Prop := e = ['\n'] ∨ e = returnFeed

theorem not_isDigit_lineEnd {e : List Char} (he : IsLineEnd e) (rest : List Char) :
    ∀ c ∈ (e ++ rest).head?, ∀ n, ¬IsDigit 16 c n := by
  have hnone : hexValue? '\n' = none ∧ hexValue? '\r' = none := by decide
  rcases he with rfl | rfl <;> rintro c ⟨rfl⟩ n hn <;> rw [← hexValue?_eq_some_iff] at hn
  · exact absurd (hnone.1.symm.trans hn) (by simp)
  · exact absurd (hnone.2.symm.trans hn) (by simp)

/-- A line end is left as it is. -/
theorem unescape_lineEnd {e : List Char} (he : IsLineEnd e) (rest : List Char) :
    unescape (e ++ rest) = e ++ unescape rest := by
  rcases he with rfl | rfl
  · exact unescape_plain (by decide) rest
  · show unescape ('\r' :: '\n' :: rest) = '\r' :: '\n' :: unescape rest
    rw [unescape_plain (by decide), unescape_plain (by decide)]

/-- The lines between line ends are decoded one by one, if none but the last `IsOpen`. -/
theorem unescape_intercalate {e : List Char} (he : IsLineEnd e) {lines : List (List Char)}
    (h : ∀ l ∈ lines.dropLast, ¬IsOpen l) :
    unescape (e.intercalate lines) = e.intercalate (lines.map unescape) := by
  induction lines with
  | nil => simp [unescape]
  | cons first more ih =>
    cases more with
    | nil => simp
    | cons second more =>
      rw [List.dropLast_cons_cons, List.forall_mem_cons] at h
      rw [List.intercalate_cons_cons, List.map_cons, List.map_cons, List.intercalate_cons_cons, ← List.map_cons,
        List.append_assoc, unescape_append h.1 (not_isDigit_lineEnd he _), unescape_lineEnd he, ih h.2,
        List.append_assoc]

/-! ## The lines of a body -/

theorem withLineFeeds_eq_self (h : ¬returnFeed <:+: body) : withLineFeeds body = body := by
  fun_induction withLineFeeds body with
  | case1 => rfl
  | case2 rest ih => exact absurd ⟨[], rest, rfl⟩ h
  | case3 c rest hpair ih => rw [ih fun hrest => h (List.infix_cons hrest)]

/-- Every body is cut at its line ends of two characters, and `withLineFeeds` has the same lines. -/
theorem exists_lines (body : List Char) :
    ∃ first more, (∀ l ∈ first :: more, ¬returnFeed <:+: l) ∧ returnFeed.intercalate (first :: more) = body ∧
      ['\n'].intercalate (first :: more) = withLineFeeds body ∧ (first.head? = some '\n' → body.head? = some '\n') := by
  fun_induction withLineFeeds body with
  | case1 => exact ⟨[], [], by simp [returnFeed], rfl, rfl, id⟩
  | case2 rest ih =>
    obtain ⟨first, more, hpair, hbody, hfeeds, -⟩ := ih
    refine ⟨[], first :: more, ?_, ?_, ?_, by simp⟩
    · rw [List.forall_mem_cons]
      exact ⟨by simp [returnFeed], hpair⟩
    · rw [List.intercalate_cons_cons, hbody]
      rfl
    · rw [List.intercalate_cons_cons, hfeeds]
      rfl
  | case3 c rest hpair ih =>
    obtain ⟨first, more, hlines, hbody, hfeeds, hhead⟩ := ih
    have hcons : ∀ e : List Char, e.intercalate ((c :: first) :: more) = c :: e.intercalate (first :: more) := by
      intro e
      cases more with
      | nil => simp
      | cons second more => rw [List.intercalate_cons_cons, List.intercalate_cons_cons]; rfl
    refine ⟨c :: first, more, ?_, by rw [hcons, hbody], by rw [hcons, hfeeds], fun h => h⟩
    rw [List.forall_mem_cons] at hlines ⊢
    refine ⟨fun hinfix => ?_, hlines.2⟩
    rcases List.infix_cons_iff.mp hinfix with ⟨tail, htail⟩ | hfirst
    · -- the pair would stand at the beginning of the body
      obtain ⟨rfl, rfl⟩ := List.cons.inj htail
      obtain ⟨tail', rfl⟩ := List.head?_eq_some_iff.mp (hhead rfl)
      exact hpair tail' rfl rfl
    · exact hlines.1 hfirst

/-- No line but the last is open if the body is open before none of its line ends. -/
theorem not_isOpen_lines {lines : List (List Char)}
    (h : ∀ before after, returnFeed.intercalate lines = before ++ returnFeed ++ after → ¬IsOpen before) :
    ∀ l ∈ lines.dropLast, ¬IsOpen l := by
  induction lines with
  | nil => simp
  | cons first more ih =>
    cases more with
    | nil => simp
    | cons second more =>
      rw [List.dropLast_cons_cons, List.forall_mem_cons]
      rw [List.intercalate_cons_cons] at h
      refine ⟨h first _ rfl, ih fun before after hbody => ?_⟩
      have hopen := h (first ++ returnFeed ++ before) after (by rw [hbody]; simp only [List.append_assoc])
      have hcut : first ++ returnFeed ++ before = (first ++ ['\r']) ++ '\n' :: before := by simp [returnFeed]
      rwa [hcut, isOpen_append_of_ne (by decide)] at hopen

/-- Each line end of two characters makes the body one character longer. -/
theorem length_intercalate_returnFeed (lines : List (List Char)) :
    (returnFeed.intercalate lines).length = (['\n'].intercalate lines).length + (lines.length - 1) := by
  induction lines with
  | nil => rfl
  | cons first more ih =>
    cases more with
    | nil => simp
    | cons second more =>
      have htwo : returnFeed.length = 2 := rfl
      rw [List.intercalate_cons_cons, List.intercalate_cons_cons]
      simp only [List.length_append, ih, htwo, List.length_cons, List.length_nil]
      omega

/-- What a body with line ends of two characters stands for, if none of them is behind a backslash that takes part
in an escape: its lines are decoded one by one, whatever their ends, and the ends are left as they are. A backslash
before a line feed takes it away. -/
theorem unescape_lines :
    (∀ body, (∀ before after, body = before ++ returnFeed ++ after → ¬IsOpen before) →
      (∃ lines : List (List Char), (∀ l ∈ lines, ¬returnFeed <:+: l) ∧
        body = returnFeed.intercalate lines ∧ withLineFeeds body = ['\n'].intercalate lines ∧
        unescape body = returnFeed.intercalate (lines.map unescape) ∧
        unescape (withLineFeeds body) = ['\n'].intercalate (lines.map unescape)) ∧
      (unescape (withLineFeeds body) = unescape body ↔ ¬returnFeed <:+: body)) ∧
    ∀ before after, ¬IsOpen before →
      unescape (before ++ '\\' :: '\n' :: after) = unescape before ++ unescape after := by
  refine ⟨fun body h => ?_, fun before after hbefore => ?_⟩
  · obtain ⟨first, more, hpair, rfl, hfeeds, -⟩ := exists_lines body
    have hopen := not_isOpen_lines h
    have hreturns := unescape_intercalate (Or.inr rfl) hopen
    have hlineFeeds := unescape_intercalate (Or.inl rfl) hopen
    rw [hfeeds] at hlineFeeds
    refine ⟨⟨first :: more, hpair, rfl, hfeeds.symm, hreturns, hlineFeeds⟩, fun heq => ?_, fun hnone => ?_⟩
    · have hlength := length_intercalate_returnFeed ((first :: more).map unescape)
      rw [← hreturns, ← hlineFeeds, heq, List.length_map, List.length_cons] at hlength
      obtain rfl : more = [] := List.eq_nil_of_length_eq_zero (by omega)
      simpa using hpair first
    · rw [withLineFeeds_eq_self hnone]
  · have hnone : ∀ n, ¬IsDigit 16 '\\' n := fun n hn => ne_backslash_of_isDigit hn rfl
    rw [unescape_append hbefore (by rintro c ⟨rfl⟩; exact hnone),
      unescape_escape (escape?_of_short (show ('\n', none) ∈ shortEscapes by decide) after)]
    rfl

/-- A body of three lines: the first ends in a carriage return and a line feed, the second in a backslash and a
line feed. -/
theorem unescape_lines_mixed :
    (∀ before after, "/a\r\nb\\\nc".toList = before ++ returnFeed ++ after → ¬IsOpen before) ∧
      unescape (withLineFeeds "/a\r\nb\\\nc".toList) ≠ unescape "/a\r\nb\\\nc".toList ∧
      ¬IsOpen "/a\r\nb".toList ∧
      unescape "/a\r\nb\\\nc".toList = unescape "/a\r\nb".toList ++ unescape "c".toList := by
  have hopen : ∀ before after, "/a\r\nb\\\nc".toList = before ++ returnFeed ++ after → ¬IsOpen before := by
    intro before after h
    have hcuts : ∀ n ≤ "/a\r\nb\\\nc".toList.length, returnFeed <+: "/a\r\nb\\\nc".toList.drop n →
        ¬IsOpen ("/a\r\nb\\\nc".toList.take n) := by decide
    have hcut := hcuts before.length (by simp only [h, List.length_append]; omega)
    rw [h, List.append_assoc, List.drop_left, List.take_left] at hcut
    exact hcut (List.prefix_append _ _)
  have hpair : returnFeed <:+: "/a\r\nb\\\nc".toList := ⟨['/', 'a'], ['b', '\\', '\n', 'c'], rfl⟩
  have hclosed : ¬IsOpen "/a\r\nb".toList := by decide
  exact ⟨hopen, fun heq => (unescape_lines.1 _ hopen).2.mp heq hpair, hclosed,
    unescape_lines.2 "/a\r\nb".toList "c".toList hclosed⟩

/-- A line end inside a literal is not changed, so that the path is another one. -/
theorem unescape_withLineFeeds_ne :
    ¬∀ body, unescape body = unescape (withLineFeeds body) := by
  intro h
  have hpath := h "/a\r\nb".toList
  simp [withLineFeeds, unescape] at hpath

end PayloadAtlas.Python.Literal
