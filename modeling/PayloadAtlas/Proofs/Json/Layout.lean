import Mathlib.Data.List.Chain
import PayloadAtlas.Proofs.Json.Written
import PayloadAtlas.Proofs.Text.Lines

/-!
# The lines of written values

A value that is written over several lines breaks them only before an indented part or a closing bracket
(`Value.isLaid_prettyAt`): texts have no line ends of their own. So no line of a written object can be taken for
anything else (`Value.head?_of_mem_lines_pretty`).
-/

namespace PayloadAtlas.Json

variable {c : Char} {as bs cs : List Char}

/-! ## Line ends -/

/-- The characters that a line begins with, if it is not the first: a blank or a closing bracket. -/
def lineStarts : List Char := [' ', ']', '\x7d']

/-- After each line end of `cs` comes the beginning of a line, and no line end comes last. -/
def IsLaid (cs : List Char) : Prop := cs.IsChain (fun c d => c = '\n' → d ∈ lineStarts) ∧ cs.getLast? ≠ some '\n'

/-- Two texts that are laid out make one that is. -/
theorem IsLaid.append (has : IsLaid as) (hbs : IsLaid bs) : IsLaid (as ++ bs) := by
  refine ⟨List.isChain_append.mpr ⟨has.1, hbs.1, fun c hc _ _ hline => absurd (hline ▸ hc) has.2⟩, ?_⟩
  cases bs using List.reverseRecOn with
  | nil => simpa using has.2
  | append_singleton bs c => simpa using hbs.2

/-- A text without `'\n'` is laid out. -/
theorem isLaid_of_notMem (h : '\n' ∉ cs) : IsLaid cs := by
  refine ⟨List.Pairwise.isChain (List.pairwise_of_forall_mem_list ?_), fun hlast => h (List.mem_of_getLast? hlast)⟩
  rintro c hc - - rfl
  exact absurd hc h

/-- A line end and a line that begins as lines do. -/
theorem isLaid_newLine_cons (hc : c ∈ lineStarts) (h : '\n' ∉ cs) : IsLaid ('\n' :: c :: cs) := by
  have hne : c ≠ '\n' := by
    rintro rfl
    exact absurd hc (by decide)
  have hlaid : IsLaid (c :: cs) := isLaid_of_notMem (by simp [hne.symm, h])
  exact ⟨List.isChain_cons_cons.mpr ⟨fun _ => hc, hlaid.1⟩, by simpa using hlaid.2⟩

theorem IsLaid.of_cons (h : IsLaid (c :: cs)) : IsLaid cs := by
  refine ⟨h.1.of_cons, fun hlast => h.2 ?_⟩
  rw [List.getLast?_cons, hlast]
  rfl

/-- Every line but the first begins as lines do. -/
theorem IsLaid.head?_of_mem_tail (h : IsLaid cs) :
    ∀ line ∈ (Path.cut '\n' cs).tail, ∃ c ∈ line.head?, c ∈ lineStarts := by
  induction cs with
  | nil => simp [Path.cut]
  | cons c cs ih =>
    have hlater := ih h.of_cons
    by_cases hc : c = '\n'
    · subst hc
      cases cs with
      | nil => exact absurd rfl h.2
      | cons d cs =>
        -- after the line feed a line begins
        have hd : d ∈ lineStarts := (List.isChain_cons_cons.mp h.1).1 rfl
        have hne : d ≠ '\n' := fun hline => absurd (hline ▸ hd) (by decide)
        obtain ⟨rest, hcut⟩ := Text.exists_cut_cons hne cs
        rw [hcut, List.tail_cons] at hlater
        rw [Path.cut, hcut]
        exact List.forall_mem_cons.mpr ⟨⟨d, rfl, hd⟩, hlater⟩
    · obtain ⟨rest, hcut⟩ := Text.exists_cut_cons hc cs
      rw [hcut]
      exact hlater

/-! ## Values -/

/-- A line end in a text is written by a letter, so no `escapeChar` holds one. -/
theorem newLine_notMem_escapeChar (c : Char) : '\n' ∉ escapeChar c := by
  have hdigit : ∀ n < 16, '\n' ≠ hexDigit n := by decide
  cases escaped c with
  | plain htext hpart hquote hbackslash hprintable =>
    rw [htext, List.mem_singleton]
    rintro rfl
    exact absurd hprintable (by decide)
  | letter e htext hpart hunit hmeans =>
    rw [htext]
    intro hmem
    obtain rfl : '\n' = e := by simpa using hmem
    cases hmeans
  | number htext hpart hcontrol =>
    have hhigh := hdigit (c.toNat / 16) (by omega)
    have hlow := hdigit (c.toNat % 16) (by omega)
    rw [htext]
    simp [hhigh, hlow]

/-- No text in quotes, by `quote`, holds a line end. -/
theorem newLine_notMem_quote (s : String) : '\n' ∉ (quote s).toList := by
  rw [toList_quote]
  simp [newLine_notMem_escapeChar]

theorem IsDigits.newLine_notMem (h : IsDigits cs) : '\n' ∉ cs :=
  fun hline => absurd (h.2 _ hline) (by decide)

/-- No number holds a line end. -/
theorem newLine_notMem_chars {l : NumberLiteral} (hl : l.IsProper) : '\n' ∉ l.chars := by
  have hexponent : '\n' ∉ l.exponentChars := by
    rw [NumberLiteral.exponentChars]
    split
    · next down ds he =>
      have hds := (hl.exponent _ he).newLine_notMem
      cases down <;> simp [hds]
    · exact List.not_mem_nil
  have htail : '\n' ∉ l.tailChars := by
    rw [NumberLiteral.tailChars]
    split
    · next ds hf =>
      have hds := (hl.fraction ds hf).newLine_notMem
      simp [hds, hexponent]
    · exact hexponent
  have hwhole := hl.whole.newLine_notMem
  rw [NumberLiteral.chars]
  split <;> simp [hwhole, htail]

theorem newLine_notMem_toText (n : Number) : '\n' ∉ n.toText.toList := by
  rw [Number.toList_toText]
  exact newLine_notMem_chars (Number.isProper_literal n)

namespace Value

theorem toList_newLine_succ (depth : Nat) :
    (newLine (depth + 1)).toList = '\n' :: ' ' :: List.replicate (2 * depth + 1) ' ' := by
  simp [newLine, Nat.mul_succ, List.replicate_succ]

theorem isLaid_newLine_succ (depth : Nat) : IsLaid (newLine (depth + 1)).toList := by
  rw [toList_newLine_succ]
  exact isLaid_newLine_cons (by decide) (by simp [List.mem_replicate])

theorem isLaid_newLine_append (depth : Nat) (hc : c ∈ lineStarts) : IsLaid ((newLine depth).toList ++ [c]) := by
  cases depth with
  | zero => exact isLaid_newLine_cons hc List.not_mem_nil
  | succ depth =>
    have hne : '\n' ≠ c := fun hline => absurd (hline ▸ hc) (by decide)
    exact (isLaid_newLine_succ depth).append (isLaid_of_notMem (by simpa using hne))

/-- Parts between brackets, in a `block`, are laid out if each of them is. -/
theorem isLaid_block {opening closing : String} (hopening : '\n' ∉ opening.toList) (hc : c ∈ lineStarts)
    (hclosing : closing.toList = [c]) {parts : List String} (h : ∀ part ∈ parts, IsLaid part.toList) (depth : Nat) :
    IsLaid (block opening closing depth parts).toList := by
  have hopening := isLaid_of_notMem hopening
  cases parts with
  | nil =>
    have hne : '\n' ≠ c := fun hline => absurd (hline ▸ hc) (by decide)
    rw [block, List.isEmpty_nil, if_pos rfl, String.toList_append, hclosing]
    exact hopening.append (isLaid_of_notMem (by simpa using hne))
  | cons part parts =>
    obtain ⟨hpart, hparts⟩ := List.forall_mem_cons.mp h
    rw [toList_block_cons, hclosing]
    refine hopening.append ((isLaid_newLine_succ depth).append (hpart.append (IsLaid.append ?_ ?_)))
    · induction parts with
      | nil => exact isLaid_of_notMem List.not_mem_nil
      | cons other parts ih =>
        obtain ⟨hother, hparts⟩ := List.forall_mem_cons.mp hparts
        have hcomma : IsLaid [','] := isLaid_of_notMem (by decide)
        rw [List.map_cons, List.flatMap_cons]
        refine (hcomma.append ((isLaid_newLine_succ depth).append hother)).append (ih ?_ hparts)
        exact List.forall_mem_cons.mpr ⟨hpart, hparts⟩
    · exact isLaid_newLine_append depth hc

mutual

/-- A value is laid out by `prettyAt` at every depth. -/
theorem isLaid_prettyAt (v : Value) (depth : Nat) : IsLaid (prettyAt depth v).toList :=
  match v with
  | .null => isLaid_of_notMem (show '\n' ∉ "null".toList by decide)
  | .bool true => isLaid_of_notMem (show '\n' ∉ "true".toList by decide)
  | .bool false => isLaid_of_notMem (show '\n' ∉ "false".toList by decide)
  | .number n => isLaid_of_notMem (newLine_notMem_toText n)
  | .string s => isLaid_of_notMem (newLine_notMem_quote s)
  | .array xs => isLaid_block (by decide) (c := ']') (by decide) rfl (isLaid_prettyItems xs (depth + 1)) depth
  | .object ms => isLaid_block (by decide) (c := '\x7d') (by decide) rfl (isLaid_prettyMembers ms (depth + 1)) depth

theorem isLaid_prettyItems (xs : List Value) (depth : Nat) : ∀ part ∈ prettyItems depth xs, IsLaid part.toList :=
  match xs with
  | [] => nofun
  | x :: xs => List.forall_mem_cons.mpr ⟨isLaid_prettyAt x depth, isLaid_prettyItems xs depth⟩

theorem isLaid_prettyMembers (ms : List (String × Value)) (depth : Nat) :
    ∀ part ∈ prettyMembers depth ms, IsLaid part.toList :=
  match ms with
  | [] => nofun
  | (k, v) :: rest => by
    refine List.forall_mem_cons.mpr ⟨?_, isLaid_prettyMembers rest depth⟩
    rw [String.toList_append, String.toList_append]
    exact ((isLaid_of_notMem (newLine_notMem_quote k)).append (isLaid_of_notMem (by decide))).append
      (isLaid_prettyAt v depth)

end

/-- A block begins with its opening bracket, whether or not it has parts. -/
theorem opening_prefix_block (opening closing : String) (depth : Nat) (parts : List String) :
    opening.toList <+: (block opening closing depth parts).toList := by
  cases parts with
  | nil => simp [block]
  | cons part parts => exact toList_block_cons .. ▸ List.prefix_append _ _

/-- Each line of an object begins with a bracket or as lines do, `lineStarts`. -/
theorem head?_of_mem_lines_pretty (ms : List (String × Value)) :
    ∀ line ∈ Text.lines (object ms).pretty, ∃ c ∈ line.toList.head?, c = '\x7b' ∨ c ∈ lineStarts := by
  have hopening : "\x7b".toList <+: (object ms).pretty.toList := opening_prefix_block ..
  obtain ⟨rest, hpretty⟩ := hopening
  replace hpretty : (object ms).pretty.toList = '\x7b' :: rest := hpretty.symm
  obtain ⟨first, hcut⟩ := Text.exists_cut_cons (c := '\x7b') (by decide) rest
  have hlaid := (isLaid_prettyAt (object ms) 0).head?_of_mem_tail
  rw [← pretty, hpretty, hcut, List.tail_cons] at hlaid
  rw [Text.lines, hpretty, hcut, List.map_cons]
  refine List.forall_mem_cons.mpr ⟨⟨'\x7b', by simp, .inl rfl⟩, ?_⟩
  rintro line hline
  obtain ⟨cs, hcs, rfl⟩ := List.mem_map.mp hline
  obtain ⟨c, hc, hstart⟩ := hlaid cs hcs
  exact ⟨c, by rwa [String.toList_ofList], .inr hstart⟩

end Value

end PayloadAtlas.Json
