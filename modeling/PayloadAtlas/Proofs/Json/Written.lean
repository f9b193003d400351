import Mathlib.Data.List.Forall2
import PayloadAtlas.Json.Decode
import PayloadAtlas.Json.Printer
import PayloadAtlas.Proofs.Json.Numeral

/-!
# Reading what was written

A value that is written over several lines is read without a flaw, and with nothing after it
(`Document.read_pretty`): as `Raw.written`, where texts have units in place of some control characters and
numbers are read again, and all else is as in the value. Texts come back as they were
(`Quoted.toText_written`).
-/

namespace PayloadAtlas.Json

/-! ## Texts in quotes -/

/-- The characters below the blank that have a letter of their own after a backslash. -/
def hasLetter (c : Char) : Bool := c ∈ ['\x08', '\x0c', '\n', '\r', '\t']

/-- What a written character is read as: a unit if it is written by its number. -/
def Part.written (c : Char) : Part :=
  if c.toNat < 32 ∧ hasLetter c = false then .unit c.toNat else .char c

/-- What a written text is read as. -/
def Quoted.written (s : String) : Quoted := ⟨s.toList.map Part.written, none⟩

/-- The ways to write a character, as `escapeChar` chooses among them. -/
inductive Escaped (c : Char) : Prop where
  | plain (text : escapeChar c = [c]) (part : Part.written c = .char c)
      (quote : c ≠ '"') (backslash : c ≠ '\\') (printable : 32 ≤ c.toNat)
  | letter (e : Char) (text : escapeChar c = ['\\', e]) (part : Part.written c = .char c)
      (unit : e ≠ 'u') (means : escaped? e = some c)
  | number (text : escapeChar c = ['\\', 'u', '0', '0', hexDigit (c.toNat / 16), hexDigit (c.toNat % 16)])
      (part : Part.written c = .unit c.toNat) (control : c.toNat < 32)

/-- Every character is written in one of the three ways of `Escaped`. -/
theorem escaped (c : Char) : Escaped c := by
  by_cases hquote : c = '"'
  · subst hquote
    exact .letter '"' rfl rfl (by decide) rfl
  by_cases hbackslash : c = '\\'
  · subst hbackslash
    exact .letter '\\' rfl rfl (by decide) rfl
  by_cases hletter : hasLetter c = true
  · simp only [hasLetter, List.mem_cons, List.not_mem_nil, or_false, decide_eq_true_eq] at hletter
    rcases hletter with rfl | rfl | rfl | rfl | rfl
    · exact .letter 'b' rfl rfl (by decide) rfl
    · exact .letter 'f' rfl rfl (by decide) rfl
    · exact .letter 'n' rfl rfl (by decide) rfl
    · exact .letter 'r' rfl rfl (by decide) rfl
    · exact .letter 't' rfl rfl (by decide) rfl
  -- all other characters are told by their numbers alone
  have hother : escapeChar c =
      if c.toNat < 32 then ['\\', 'u', '0', '0', hexDigit (c.toNat / 16), hexDigit (c.toNat % 16)]
      else [c] := by
    simp only [hasLetter, List.mem_cons, List.not_mem_nil, or_false, decide_eq_true_eq, not_or]
      at hletter
    rw [escapeChar] <;> tauto
  have hletter : hasLetter c = false := by simpa using hletter
  by_cases hcontrol : c.toNat < 32
  · rw [if_pos hcontrol] at hother
    exact .number hother (by rw [Part.written, if_pos ⟨hcontrol, hletter⟩]) hcontrol
  · rw [if_neg hcontrol] at hother
    refine .plain hother ?_ hquote hbackslash (by omega)
    rw [Part.written, if_neg (fun h => hcontrol h.1)]

/-- The digit of a number below sixteen has that number as its value. -/
theorem hexValue?_hexDigit : ∀ n < 16, hexValue? (hexDigit n) = some n := by decide

/-- A written text is read by `readQuoted` up to its closing quote. -/
theorem readQuoted_append (cs rest : List Char) {done : List Part} {fuel : Nat} (h : cs.length < fuel) :
    readQuoted done fuel (cs.flatMap escapeChar ++ '"' :: rest) =
      (⟨done.reverse ++ cs.map Part.written, none⟩, some rest) := by
  induction cs generalizing done fuel with
  | nil =>
    obtain ⟨fuel, rfl⟩ : ∃ n, fuel = n + 1 := ⟨fuel - 1, by simp at h; omega⟩
    simp [readQuoted]
  | cons c cs ih =>
    obtain ⟨fuel, rfl⟩ : ∃ n, fuel = n + 1 := ⟨fuel - 1, by simp at h; omega⟩
    have hfuel : cs.length < fuel := by simpa using h
    have hstep : readQuoted (Part.written c :: done) fuel (cs.flatMap escapeChar ++ '"' :: rest) =
        (⟨done.reverse ++ (c :: cs).map Part.written, none⟩, some rest) := by
      rw [ih hfuel]
      simp
    rw [List.flatMap_cons, List.append_assoc, ← hstep]
    -- a character is written as it is, after a backslash, or by its number
    cases escaped c with
    | plain htext hpart hquote hbackslash hprintable =>
      rw [htext, hpart]
      simp only [List.cons_append, List.nil_append, readQuoted, if_neg hquote, if_neg hbackslash,
        if_neg (Nat.not_lt.mpr hprintable)]
    | letter e htext hpart hunit hmeans =>
      rw [htext, hpart]
      simp only [List.cons_append, List.nil_append, readQuoted, if_true, if_neg hunit, hmeans,
        if_neg (show '\\' ≠ '"' by decide)]
    | number htext hpart hcontrol =>
      have hhigh := hexValue?_hexDigit (c.toNat / 16) (by omega)
      have hlow := hexValue?_hexDigit (c.toNat % 16) (by omega)
      have hzero : hexValue? '0' = some 0 := rfl
      have hsum : 4096 * 0 + 256 * 0 + 16 * (c.toNat / 16) + c.toNat % 16 = c.toNat := by omega
      rw [htext, hpart]
      simp only [List.cons_append, List.nil_append, readQuoted, if_true, readUnit, hhigh, hlow, hzero,
        hsum, if_neg (show '\\' ≠ '"' by decide)]

/-- No written character is half of a pair, so that all come back as they were by `joinParts`. -/
theorem joinParts_written (cs done : List Char) :
    joinParts none done (cs.map Part.written) = .ok (done.reverse ++ cs) := by
  induction cs generalizing done with
  | nil => simp [joinParts]
  | cons c cs ih =>
    have hstep : joinParts none done (Part.written c :: cs.map Part.written) =
        joinParts none (c :: done) (cs.map Part.written) := by
      rw [Part.written]
      split
      · next h =>
        have htrailing : isTrailing c.toNat = false := by simp [isTrailing]; omega
        have hleading : isLeading c.toNat = false := by simp [isLeading]; omega
        rw [joinParts.eq_def]
        simp only [htrailing, hleading, Bool.false_eq_true, if_false, Char.ofNat_toNat]
      · rfl
    rw [List.map_cons, hstep, ih]
    simp

/-- A written text comes back by `toText`. -/
theorem Quoted.toText_written (s : String) : (Quoted.written s).toText = .ok s := by
  rw [Quoted.toText, Quoted.written, joinParts_written]
  simp [Except.map]

/-! ## Values -/

mutual

/-- What a written value is read as. -/
def Raw.written : Value → Raw
  | .null => .null
  | .bool b => .bool b
  | .number n => .number n.reread?
  | .string s => .string (.written s)
  | .array xs => .array (writtenItems xs) none
  | .object ms => .object (writtenMembers ms) none

/-- What the written items of an array are read as. -/
def Raw.writtenItems : List Value → List Raw
  | [] => []
  | x :: xs => Raw.written x :: writtenItems xs

/-- What the written members of an object are read as. -/
def Raw.writtenMembers : List (String × Value) → List (Quoted × Raw)
  | [] => []
  | (k, v) :: rest => (.written k, Raw.written v) :: writtenMembers rest

end

/-- Whether a text begins with something other than a blank and the end of an array. -/
def Starts (text : List Char) : Prop := ∃ c ∈ text.head?, isBlank c = false ∧ c ≠ ']'

/-- A text is read as a value by `readValue`, whatever follows it. -/
structure Reads (text : List Char) (raw : Raw) : Prop where
  starts : Starts text
  reads : ∀ fuel rest, 2 * text.length ≤ fuel → Stops rest →
    readValue fuel (text ++ rest) = (raw, some rest)

/-- A text is read as an entry of an object by `readEntry`, whatever follows it. -/
def ReadsEntry (text : List Char) (entry : Quoted × Raw) : Prop :=
  ∃ body, text = '"' :: body ∧ ∀ fuel rest done, 2 * text.length ≤ fuel → Stops rest →
    readEntry (fuel + 1) done (body ++ rest) = readEntries fuel (entry :: done) rest

theorem Starts.eq_cons {text : List Char} (h : Starts text) :
    ∃ c cs, text = c :: cs ∧ isBlank c = false ∧ c ≠ ']' := by
  obtain ⟨c, hc, hstart⟩ := h
  cases text with
  | nil => cases hc
  | cons d ds =>
    cases hc
    exact ⟨_, ds, rfl, hstart⟩

theorem Starts.append {text : List Char} (h : Starts text) (rest : List Char) :
    Starts (text ++ rest) := by
  obtain ⟨c, cs, rfl, hstart⟩ := h.eq_cons
  exact ⟨c, rfl, hstart⟩

theorem skipBlanks_cons {c : Char} (h : isBlank c = false) (cs : List Char) :
    skipBlanks (c :: cs) = c :: cs := by
  simp [skipBlanks, h]

/-- The break before an item and its indentation, `newLine`, do not count. -/
theorem skipBlanks_newLine (depth : Nat) (cs : List Char) :
    skipBlanks ((Value.newLine depth).toList ++ cs) = skipBlanks cs := by
  have hblanks : ∀ c ∈ (Value.newLine depth).toList, isBlank c = true := by
    intro c hc
    simp only [Value.newLine, String.toList_append, String.toList_ofList, List.mem_append,
      List.mem_replicate] at hc
    rcases hc with hc | ⟨_, rfl⟩
    · have hc : c = '\n' := by simpa using hc
      rw [hc]
      rfl
    · rfl
  exact List.dropWhile_append_of_pos hblanks

/-- A value is at its end before the end of a line. -/
theorem stops_newLine (depth : Nat) (cs : List Char) : Stops ((Value.newLine depth).toList ++ cs) := by
  intro c hc
  have hc : c = '\n' := by simpa [Value.newLine] using hc.symm
  exact .inr hc

/-- A value is at its end before a comma. -/
theorem stops_comma (cs : List Char) : Stops (',' :: cs) := by
  intro c hc
  exact .inl (by simpa using hc.symm)

/-- A blank before a value does not count. -/
theorem readValue_blank (fuel : Nat) (cs : List Char) :
    readValue fuel (' ' :: cs) = readValue fuel cs := by
  cases fuel with
  | zero => rfl
  | succ fuel => rfl

/-! ### Items -/

/-- The first item of an array is read on the line after the bracket. -/
theorem readItems_first {cs : List Char} (h : Starts cs) (fuel depth : Nat) :
    readItems (fuel + 1) [] ((Value.newLine depth).toList ++ cs) = readItem fuel [] cs := by
  obtain ⟨c, cs, rfl, hblank, hclose⟩ := h.eq_cons
  rw [readItems, skipBlanks_newLine, skipBlanks_cons hblank]
  split
  · next heq => cases heq
  · next heq => exact absurd (List.cons.inj heq).1 hclose
  · next heq =>
    cases heq
    rfl

/-- Any other item is read on the line after a comma. -/
theorem readItems_comma {cs : List Char} (h : Starts cs) (fuel depth : Nat) {done : List Raw}
    (hdone : done ≠ []) :
    readItems (fuel + 1) done (',' :: ((Value.newLine depth).toList ++ cs)) = readItem fuel done cs := by
  obtain ⟨c, cs, rfl, hblank, hclose⟩ := h.eq_cons
  obtain ⟨x, xs, rfl⟩ := List.exists_cons_of_ne_nil hdone
  rw [readItems, skipBlanks_cons rfl]
  -- the comma is not the end, and neither is what comes after it
  split
  · next heq => cases heq
  · next heq => exact absurd (List.cons.inj heq).1 (by decide)
  · next heq =>
    obtain ⟨rfl, rfl⟩ := List.cons.inj heq
    simp only [List.isEmpty_cons, Bool.false_eq_true, if_false, if_true, skipBlanks_newLine, skipBlanks_cons hblank]
    split
    · next heq => cases heq
    · next heq => exact absurd (List.cons.inj heq).1 hclose
    · rfl

theorem readItems_close (fuel depth : Nat) (done : List Raw) (rest : List Char) :
    readItems (fuel + 1) done ((Value.newLine depth).toList ++ ']' :: rest) =
      (.array done.reverse none, some rest) := by
  rw [readItems, skipBlanks_newLine, skipBlanks_cons rfl]
  rfl

theorem Reads.readItem {text : List Char} {raw : Raw} (h : Reads text raw) (fuel : Nat)
    {rest : List Char} (hfuel : 2 * text.length ≤ fuel) (hrest : Stops rest) (done : List Raw) :
    Json.readItem (fuel + 1) done (text ++ rest) = readItems fuel (raw :: done) rest := by
  rw [Json.readItem, h.reads fuel rest hfuel hrest]

theorem stops_items (texts : List (List Char)) (depth outer : Nat) (close : List Char) :
    Stops (texts.flatMap (fun t => ',' :: ((Value.newLine depth).toList ++ t))
      ++ ((Value.newLine outer).toList ++ close)) := by
  cases texts with
  | nil => exact stops_newLine outer close
  | cons t texts => exact stops_comma _

/-- The items after the first one are read to the end of the array. -/
theorem readItems_append {texts : List (List Char)} {raws : List Raw}
    (h : List.Forall₂ Reads texts raws) (depth outer : Nat) (rest : List Char) (done : List Raw)
    (fuel : Nat) (hdone : done ≠ []) (hfuel : 2 * (texts.flatMap (',' :: ·)).length + 1 ≤ fuel) :
    readItems fuel done (texts.flatMap (fun t => ',' :: ((Value.newLine depth).toList ++ t))
      ++ ((Value.newLine outer).toList ++ ']' :: rest)) =
        (.array (done.reverse ++ raws) none, some rest) := by
  induction h generalizing done fuel with
  | nil =>
    obtain ⟨fuel, rfl⟩ : ∃ n, fuel = n + 1 := ⟨fuel - 1, by omega⟩
    rw [List.append_nil]
    exact readItems_close fuel outer done rest
  -- the comma and the item take one of the fuel each
  | @cons t raw texts raws ht htexts ih =>
    obtain ⟨fuel, rfl⟩ : ∃ n, fuel = n + 2 := ⟨fuel - 2, by simp at hfuel; omega⟩
    simp only [List.flatMap_cons, List.length_append, List.length_cons] at hfuel
    have hstops := stops_items texts depth outer (']' :: rest)
    have hnext := ih (raw :: done) fuel (List.cons_ne_nil _ _) (by omega)
    rw [List.flatMap_cons, List.append_assoc, List.cons_append, List.append_assoc,
      readItems_comma (ht.starts.append _) (fuel + 1) depth hdone,
      ht.readItem fuel (by omega) hstops done, hnext]
    simp

/-! ### Entries -/

theorem readEntries_first (fuel depth : Nat) (cs : List Char) :
    readEntries (fuel + 1) [] ((Value.newLine depth).toList ++ '"' :: cs) = readEntry fuel [] cs := by
  rw [readEntries, skipBlanks_newLine, skipBlanks_cons rfl]
  rfl

theorem readEntries_comma (fuel depth : Nat) (cs : List Char) {done : List (Quoted × Raw)}
    (hdone : done ≠ []) :
    readEntries (fuel + 1) done (',' :: ((Value.newLine depth).toList ++ '"' :: cs)) =
      readEntry fuel done cs := by
  obtain ⟨x, xs, rfl⟩ := List.exists_cons_of_ne_nil hdone
  rw [readEntries, skipBlanks_cons rfl]
  simp only [List.isEmpty_cons, Bool.false_eq_true, if_false, skipBlanks_newLine]
  rw [skipBlanks_cons rfl]
  rfl

theorem readEntries_close (fuel depth : Nat) (done : List (Quoted × Raw)) (rest : List Char) :
    readEntries (fuel + 1) done ((Value.newLine depth).toList ++ '\x7d' :: rest) =
      (.object done.reverse none, some rest) := by
  rw [readEntries, skipBlanks_newLine, skipBlanks_cons rfl]
  rfl

/-- The entries after the first one are read to the end of the object. -/
theorem readEntries_append {texts : List (List Char)} {entries : List (Quoted × Raw)}
    (h : List.Forall₂ ReadsEntry texts entries) (depth outer : Nat) (rest : List Char)
    (done : List (Quoted × Raw)) (fuel : Nat) (hdone : done ≠ [])
    (hfuel : 2 * (texts.flatMap (',' :: ·)).length + 1 ≤ fuel) :
    readEntries fuel done (texts.flatMap (fun t => ',' :: ((Value.newLine depth).toList ++ t))
      ++ ((Value.newLine outer).toList ++ '\x7d' :: rest)) =
        (.object (done.reverse ++ entries) none, some rest) := by
  induction h generalizing done fuel with
  | nil =>
    obtain ⟨fuel, rfl⟩ : ∃ n, fuel = n + 1 := ⟨fuel - 1, by omega⟩
    rw [List.append_nil]
    exact readEntries_close fuel outer done rest
  | @cons t entry texts entries ht htexts ih =>
    obtain ⟨body, hbody, hentry⟩ := ht
    -- the comma and the entry take one of the fuel each
    obtain ⟨fuel, rfl⟩ : ∃ n, fuel = n + 2 := ⟨fuel - 2, by simp at hfuel; omega⟩
    simp only [List.flatMap_cons, List.length_append, List.length_cons] at hfuel
    have hstops := stops_items texts depth outer ('\x7d' :: rest)
    have hnext := ih (entry :: done) fuel (List.cons_ne_nil _ _) (by omega)
    rw [List.flatMap_cons, hbody, List.append_assoc, List.cons_append, List.append_assoc,
      List.cons_append, readEntries_comma (fuel + 1) depth _ hdone,
      hentry fuel _ done (by omega) hstops, hnext]
    simp

/-! ### Words, numbers and texts -/

/-- A word that has begun is read by `readWord` to its end. -/
theorem readWord_append (word : List Char) (raw : Raw) (rest : List Char) :
    readWord word raw (word ++ rest) = (raw, some rest) := by
  induction word with
  | nil => cases rest <;> rfl
  | cons c word ih =>
    rw [List.cons_append, readWord, if_pos rfl]
    exact ih

/-- A word is read as the value it stands for if its first letter is taken for the beginning of it. -/
theorem reads_word {text : String} {c : Char} {word : List Char} {raw : Raw}
    (htext : text.toList = c :: word) (hc : isBlank c = false ∧ c ≠ ']')
    (h : ∀ fuel rest, readValue (fuel + 1) (c :: word ++ rest) = readWord word raw (word ++ rest)) :
    Reads text.toList raw := by
  rw [htext]
  refine ⟨⟨c, rfl, hc⟩, fun fuel rest hfuel _ => ?_⟩
  obtain ⟨fuel, rfl⟩ : ∃ n, fuel = n + 1 := ⟨fuel - 1, by simp at hfuel; omega⟩
  rw [h, readWord_append]

theorem reads_null : Reads "null".toList .null :=
  reads_word rfl ⟨rfl, by decide⟩ fun _ _ => rfl

theorem reads_true : Reads "true".toList (.bool true) :=
  reads_word rfl ⟨rfl, by decide⟩ fun _ _ => rfl

theorem reads_false : Reads "false".toList (.bool false) :=
  reads_word rfl ⟨rfl, by decide⟩ fun _ _ => rfl

/-- A digit begins a number. -/
theorem readValue_digit {c : Char} (hc : c.isDigit = true) (fuel : Nat) (rest : List Char) :
    readValue (fuel + 1) (c :: rest) = readNumber false (c :: rest) := by
  have hblank : isBlank c = false := by
    simp only [isBlank, Bool.or_eq_false_iff, beq_eq_false_iff_ne]
    refine ⟨⟨⟨?_, ?_⟩, ?_⟩, ?_⟩ <;> (rintro rfl; cases hc)
  rw [readValue, skipBlanks_cons hblank]
  dsimp only
  split
  all_goals first
    | cases hc
    | rw [if_pos hc]

/-- A written number is read as `Number.reread?` says, whatever follows it. -/
theorem reads_number (n : Number) : Reads n.toText.toList (.number n.reread?) := by
  have hproper := n.isProper_literal
  obtain ⟨w, ws, hw⟩ := List.exists_cons_of_ne_nil hproper.whole.1
  have hdigit : w.isDigit = true := hproper.whole.2 w (by rw [hw]; exact List.mem_cons_self)
  rw [Number.toList_toText, NumberLiteral.chars]
  constructor
  · apply Starts.append
    -- it begins with a sign or a digit, neither of which is a blank or a bracket
    cases n.literal.negative with
    | true => exact ⟨'-', rfl, rfl, by decide⟩
    | false =>
      refine ⟨w, by rw [hw]; rfl, ?_, ?_⟩
      · simp only [isBlank, Bool.or_eq_false_iff, beq_eq_false_iff_ne]
        refine ⟨⟨⟨?_, ?_⟩, ?_⟩, ?_⟩ <;> (rintro rfl; cases hdigit)
      · rintro rfl
        cases hdigit
  · intro fuel rest hfuel hrest
    obtain ⟨fuel, rfl⟩ : ∃ n, fuel = n + 1 := ⟨fuel - 1, by simp [hw] at hfuel; omega⟩
    have hread := readNumber_append hproper hrest
    -- the sign is taken off before the digits are read
    cases hsign : n.literal.negative with
    | true =>
      rw [hsign] at hread
      exact hread
    | false =>
      rw [hsign] at hread
      rw [hw] at hread ⊢
      exact (readValue_digit hdigit fuel _).trans hread

theorem toList_quote (s : String) :
    (quote s).toList = '"' :: (s.toList.flatMap escapeChar ++ ['"']) := by
  simp [quote]

theorem length_le_flatMap (cs : List Char) : cs.length ≤ (cs.flatMap escapeChar).length := by
  induction cs with
  | nil => simp
  | cons c cs ih =>
    have hpos : 0 < (escapeChar c).length := by
      cases escaped c with
      | plain htext => simp [htext]
      | letter e htext => simp [htext]
      | number htext => simp [htext]
    rw [List.flatMap_cons, List.length_append, List.length_cons]
    omega

theorem readQuoted_quote (s : String) (rest : List Char) :
    let cs := s.toList.flatMap escapeChar ++ '"' :: rest
    readQuoted [] (cs.length + 1) cs = (.written s, some rest) := by
  have hlength := length_le_flatMap s.toList
  exact readQuoted_append s.toList rest (by rw [List.length_append]; omega)

/-- A text in quotes, by `quote`, is read as the characters that were written. -/
theorem reads_string (s : String) : Reads (quote s).toList (.string (.written s)) := by
  rw [toList_quote]
  refine ⟨⟨'"', rfl, rfl, by decide⟩, fun fuel rest hfuel _ => ?_⟩
  obtain ⟨fuel, rfl⟩ : ∃ n, fuel = n + 1 := ⟨fuel - 1, by simp at hfuel; omega⟩
  have hread := readQuoted_quote s rest
  rw [List.cons_append, List.append_assoc, List.cons_append, List.nil_append, readValue,
    skipBlanks_cons rfl]
  dsimp only at hread ⊢
  rw [hread]
  rfl

/-! ### Blocks -/

/-- A block puts each part on a line of its own, and commas between the parts. -/
theorem toList_block_cons (opening closing : String) (depth : Nat) (part : String)
    (parts : List String) :
    (Value.block opening closing depth (part :: parts)).toList =
      opening.toList ++ ((Value.newLine (depth + 1)).toList ++ (part.toList
        ++ ((parts.map String.toList).flatMap
              (fun t => ',' :: ((Value.newLine (depth + 1)).toList ++ t))
            ++ ((Value.newLine depth).toList ++ closing.toList)))) := by
  have hparts : ∀ (t : List Char) (ts : List (List Char)) (sep : List Char),
      sep.intercalate (t :: ts) = t ++ ts.flatMap (sep ++ ·) := by
    intro t ts sep
    induction ts generalizing t with
    | nil => simp
    | cons u us ih => rw [List.intercalate_cons_cons, ih, List.flatMap_cons]; simp
  simp [Value.block, String.toList_intercalate, hparts]

theorem length_parts_le (depth : Nat) (texts : List (List Char)) :
    (texts.flatMap (',' :: ·)).length ≤
      (texts.flatMap (fun t => ',' :: ((Value.newLine depth).toList ++ t))).length := by
  induction texts with
  | nil => simp
  | cons t texts ih =>
    simp only [List.flatMap_cons, List.length_append, List.length_cons]
    omega

/-- An array whose items are read is read itself: the bracket, the first item, and the others after commas. -/
theorem reads_items {parts : List String} {raws : List Raw}
    (h : List.Forall₂ Reads (parts.map String.toList) raws) (depth : Nat) :
    Reads (Value.block "[" "]" depth parts).toList (.array raws none) := by
  cases parts with
  | nil =>
    cases h
    have htext : (Value.block "[" "]" depth []).toList = ['[', ']'] := by simp [Value.block]
    rw [htext]
    refine ⟨⟨'[', rfl, rfl, by decide⟩, fun fuel rest hfuel _ => ?_⟩
    obtain ⟨fuel, rfl⟩ : ∃ n, fuel = n + 2 := ⟨fuel - 2, by simp at hfuel; omega⟩
    rfl
  | cons part parts =>
    obtain ⟨raw, raws, hpart, hparts, rfl⟩ : ∃ raw raws', Reads part.toList raw ∧
        List.Forall₂ Reads (parts.map String.toList) raws' ∧ raws = raw :: raws' := by
      cases h with
      | cons hpart hparts => exact ⟨_, _, hpart, hparts, rfl⟩
    rw [toList_block_cons]
    refine ⟨⟨'[', rfl, rfl, by decide⟩, fun fuel rest hfuel _ => ?_⟩
    have hlength := length_parts_le (depth + 1) (parts.map String.toList)
    have hone : "[".toList.length = 1 ∧ "]".toList.length = 1 := ⟨rfl, rfl⟩
    simp only [List.length_append] at hfuel
    -- one of the fuel each goes to the bracket, the first line and the first item
    obtain ⟨fuel, rfl⟩ : ∃ n, fuel = n + 3 := ⟨fuel - 3, by omega⟩
    have hopen : ∀ cs, readValue (fuel + 3) ("[".toList ++ cs) = readItems (fuel + 2) [] cs := by
      intro cs
      rfl
    have hstops := stops_items (parts.map String.toList) (depth + 1) depth (']' :: rest)
    have hrest := readItems_append hparts (depth + 1) depth rest [raw] fuel
      (List.cons_ne_nil _ _) (by omega)
    simp only [List.append_assoc]
    rw [hopen, readItems_first (hpart.starts.append _)]
    have hitem := hpart.readItem fuel (by omega) hstops []
    exact hitem.trans hrest

/-- An object whose entries are read is read itself, as `reads_items` says of an array. -/
theorem reads_entries {parts : List String} {entries : List (Quoted × Raw)}
    (h : List.Forall₂ ReadsEntry (parts.map String.toList) entries) (depth : Nat) :
    Reads (Value.block "\x7b" "\x7d" depth parts).toList (.object entries none) := by
  cases parts with
  | nil =>
    cases h
    have htext : (Value.block "\x7b" "\x7d" depth []).toList = ['\x7b', '\x7d'] := by
      simp [Value.block]
    rw [htext]
    refine ⟨⟨'\x7b', rfl, rfl, by decide⟩, fun fuel rest hfuel _ => ?_⟩
    obtain ⟨fuel, rfl⟩ : ∃ n, fuel = n + 2 := ⟨fuel - 2, by simp at hfuel; omega⟩
    rfl
  | cons part parts =>
    obtain ⟨entry, entries, hpart, hparts, rfl⟩ : ∃ entry entries', ReadsEntry part.toList entry ∧
        List.Forall₂ ReadsEntry (parts.map String.toList) entries' ∧ entries = entry :: entries' := by
      cases h with
      | cons hpart hparts => exact ⟨_, _, hpart, hparts, rfl⟩
    obtain ⟨body, hbody, hentry⟩ := hpart
    rw [toList_block_cons]
    refine ⟨⟨'\x7b', rfl, rfl, by decide⟩, fun fuel rest hfuel _ => ?_⟩
    have hlength := length_parts_le (depth + 1) (parts.map String.toList)
    have hone : "\x7b".toList.length = 1 ∧ "\x7d".toList.length = 1 := ⟨rfl, rfl⟩
    simp only [List.length_append] at hfuel
    -- one of the fuel each goes to the brace, the first line and the first entry
    obtain ⟨fuel, rfl⟩ : ∃ n, fuel = n + 3 := ⟨fuel - 3, by omega⟩
    have hopen : ∀ cs, readValue (fuel + 3) ("\x7b".toList ++ cs) = readEntries (fuel + 2) [] cs := by
      intro cs
      rfl
    have hstops := stops_items (parts.map String.toList) (depth + 1) depth ('\x7d' :: rest)
    have hrest := readEntries_append hparts (depth + 1) depth rest [entry] fuel
      (List.cons_ne_nil _ _) (by omega)
    simp only [List.append_assoc]
    rw [hopen, hbody, List.cons_append, readEntries_first]
    exact (hentry fuel _ [] (by omega) hstops).trans hrest

/-- A key in quotes, a colon, a blank and a value that is read are an entry. -/
theorem reads_member {k text : List Char} {s : String} {raw : Raw} (hk : k = (quote s).toList)
    (h : Reads text raw) : ReadsEntry (k ++ ':' :: ' ' :: text) (.written s, raw) := by
  rw [toList_quote] at hk
  refine ⟨s.toList.flatMap escapeChar ++ '"' :: ':' :: ' ' :: text, by simp [hk], ?_⟩
  intro fuel rest done hfuel hrest
  -- the key is read to its quote, the colon is next, and the blank before the value does not count
  have hread := readQuoted_quote s (':' :: ' ' :: (text ++ rest))
  have hvalue : readValue fuel (' ' :: (text ++ rest)) = (raw, some rest) := by
    rw [readValue_blank]
    exact h.reads fuel rest (by simp at hfuel; omega) hrest
  simp only [List.append_assoc, List.cons_append, readEntry]
  dsimp only at hread
  rw [hread]
  dsimp only
  rw [skipBlanks_cons rfl]
  simp only [hvalue]

/-! ### Whole values -/

mutual

/-- A value written by `prettyAt` is read, whatever comes before it and after it. -/
theorem reads_prettyAt (v : Value) (depth : Nat) : Reads (Value.prettyAt depth v).toList (.written v) :=
  match v with
  | .null => reads_null
  | .bool true => reads_true
  | .bool false => reads_false
  | .number n => reads_number n
  | .string s => reads_string s
  | .array xs => reads_items (reads_prettyItems xs (depth + 1)) depth
  | .object ms => reads_entries (reads_prettyMembers ms (depth + 1)) depth

/-- Each item is read, at any depth. -/
theorem reads_prettyItems (xs : List Value) (depth : Nat) :
    List.Forall₂ Reads ((Value.prettyItems depth xs).map String.toList) (Raw.writtenItems xs) :=
  match xs with
  | [] => .nil
  | x :: xs => .cons (reads_prettyAt x depth) (reads_prettyItems xs depth)

/-- Each member is read as an entry, at any depth. -/
theorem reads_prettyMembers (ms : List (String × Value)) (depth : Nat) :
    List.Forall₂ ReadsEntry ((Value.prettyMembers depth ms).map String.toList)
      (Raw.writtenMembers ms) :=
  match ms with
  | [] => .nil
  | (k, v) :: rest => by
    refine .cons ?_ (reads_prettyMembers rest depth)
    have h := reads_member (s := k) rfl (reads_prettyAt v depth)
    simpa using h

end

/-- A value written by `pretty` is read to its end. -/
theorem Document.read_pretty (v : Value) : Document.read v.pretty = ⟨.written v, false⟩ := by
  have hread := (reads_prettyAt v 0).reads (2 * v.pretty.toList.length + 2) [] (by
    rw [Value.pretty]
    omega) (by simp [Stops])
  rw [List.append_nil] at hread
  simp only [Document.read, Value.pretty] at hread ⊢
  rw [hread]
  rfl

end PayloadAtlas.Json
