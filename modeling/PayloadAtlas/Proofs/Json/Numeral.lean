import Mathlib.Data.List.TakeDrop
import PayloadAtlas.Json.Raw
import PayloadAtlas.Proofs.Decimal.Shortest

/-!
# Reading numerals

A literal is written as `NumberLiteral.chars`, and one whose parts are as they should be
(`NumberLiteral.IsProper`) is read as the number that it stands for, whatever follows it, as long as that
does not go on with it (`readNumber_append`). Every number is written as a proper literal
(`toList_toText`, `isProper_literal`), so what a written number is read as is a matter of its literal alone:
`Number.reread?`. An integer of 64 bits is read as itself (`reread?_integer`).
-/

namespace PayloadAtlas.Json

/-! ## Digits -/

/-- A list of digits, and at least one. -/
def IsDigits (cs : List Char) : Prop := cs ≠ [] ∧ ∀ c ∈ cs, c.isDigit = true

/-- The `digitsValue` by the library's own function, `Nat.ofDigitChars`. -/
theorem digitsValue_eq (cs : List Char) : digitsValue cs = Nat.ofDigitChars 10 cs 0 := by
  rw [Nat.ofDigitChars_eq_foldl]
  rfl

theorem isDigits_toDigits (n : Nat) : IsDigits (Nat.toDigits 10 n) :=
  ⟨Nat.toDigits_ne_nil, fun _ hc => Nat.isDigit_of_mem_toDigits (by omega) (by omega) hc⟩

/-- Only zero begins with the digit zero. -/
theorem head?_toDigits {n : Nat} (hn : n ≠ 0) : (Nat.toDigits 10 n).head? ≠ some '0' := by
  induction n using Nat.strongRecOn with
  | _ n ih =>
    rw [Nat.toDigits_eq_if (by omega)]
    split
    · next hlt =>
      have hall : ∀ m < 10, m ≠ 0 → m.digitChar ≠ '0' := by decide
      intro h
      exact hall n hlt hn (Option.some.inj h)
    · next hge =>
      have hne : n / 10 ≠ 0 := by omega
      obtain ⟨c, cs, hc⟩ := List.exists_cons_of_ne_nil (Nat.toDigits_ne_nil (b := 10) (n := n / 10))
      have hhead := ih (n / 10) (by omega) hne
      rw [hc] at hhead ⊢
      exact hhead

/-- The digits `ds` are read up to what follows them. -/
theorem readDigits_append {ds rest : List Char} (hds : ∀ c ∈ ds, c.isDigit = true)
    (hrest : ∀ c ∈ rest.head?, c.isDigit = false) : readDigits (ds ++ rest) = (ds, rest) := by
  have hstop : rest.takeWhile Char.isDigit = [] ∧ rest.dropWhile Char.isDigit = rest := by
    cases rest with
    | nil => exact ⟨rfl, rfl⟩
    | cons c cs =>
      have hc : c.isDigit = false := hrest c rfl
      simp [hc]
  rw [readDigits, List.span_eq_takeWhile_dropWhile, List.takeWhile_append_of_pos hds,
    List.dropWhile_append_of_pos hds, hstop.1, hstop.2, List.append_nil]

/-! ## Literals -/

namespace NumberLiteral

/-- The text of the exponent, from `e` on. -/
def exponentChars (l : NumberLiteral) : List Char :=
  match l.exponent with
  | some (down, ds) => 'e' :: (if down then '-' else '+') :: ds
  | none => []

/-- The text of what comes after the whole digits, from the point or from `e` on. -/
def tailChars (l : NumberLiteral) : List Char :=
  match l.fraction with
  | some ds => '.' :: ds ++ l.exponentChars
  | none => l.exponentChars

/-- The text of the literal `l`. -/
def chars (l : NumberLiteral) : List Char :=
  (if l.negative then ['-'] else []) ++ l.whole ++ l.tailChars

/-- The parts of a literal are digits, and a zero comes first only if it is alone. -/
structure IsProper (l : NumberLiteral) : Prop where
  whole : IsDigits l.whole
  noLeadingZero : l.whole.head? = some '0' → l.whole.length = 1
  fraction : ∀ ds ∈ l.fraction, IsDigits ds
  exponent : ∀ p ∈ l.exponent, IsDigits p.2

end NumberLiteral

/-- Whether `rest` may follow a number: nothing, a comma or a line end. -/
def Stops (rest : List Char) : Prop := ∀ c ∈ rest.head?, c = ',' ∨ c = '\n'

theorem Stops.not_isDigit {rest : List Char} (h : Stops rest) : ∀ c ∈ rest.head?, c.isDigit = false := by
  intro c hc
  rcases h c hc with rfl | rfl <;> rfl

/-- The exponent of a proper literal is read, if there is one, and what follows is left. -/
theorem readExponent_append {l : NumberLiteral} (hl : l.IsProper) {rest : List Char}
    (hrest : Stops rest) :
    readExponent { l with exponent := none } (l.exponentChars ++ rest) =
      (.number (Number.ofLiteral? l), some rest) := by
  cases he : l.exponent with
  | none =>
    have hl' : { l with exponent := none } = l := by rw [← he]
    rw [NumberLiteral.exponentChars, he, hl']
    cases rest with
    | nil => rfl
    | cons c cs =>
      have hc : ¬(c = 'e' ∨ c = 'E') := by
        rcases hrest c rfl with rfl | rfl <;> decide
      simp only [List.nil_append, readExponent, if_neg hc]
  | some p =>
    obtain ⟨down, ds⟩ := p
    have hds : IsDigits ds := hl.exponent (down, ds) he
    have hread : readDigits (ds ++ rest) = (ds, rest) := readDigits_append hds.2 hrest.not_isDigit
    have hl' : { l with exponent := some (down, ds) } = l := by rw [← he]
    obtain ⟨d, ds', rfl⟩ := List.exists_cons_of_ne_nil hds.1
    rw [NumberLiteral.exponentChars, he]
    cases down with
    | false =>
      simp only [List.cons_append, readExponent, true_or, if_true, Bool.false_eq_true, if_false]
      rw [← List.cons_append, hread]
      exact congrArg (fun x => (Raw.number (Number.ofLiteral? x), some rest)) hl'
    | true =>
      simp only [List.cons_append, readExponent, true_or, if_true]
      rw [← List.cons_append, hread]
      exact congrArg (fun x => (Raw.number (Number.ofLiteral? x), some rest)) hl'

/-- What comes after the whole digits does not go on with them. -/
theorem tailChars_append_head? {l : NumberLiteral} {rest : List Char} (hrest : Stops rest) :
    ∀ c ∈ (l.tailChars ++ rest).head?, c.isDigit = false := by
  rw [NumberLiteral.tailChars]
  cases hf : l.fraction with
  | some ds =>
    intro c hc
    have hc : c = '.' := by simpa using hc.symm
    rw [hc]
    rfl
  | none =>
    simp only [NumberLiteral.exponentChars]
    cases he : l.exponent with
    | some p =>
      intro c hc
      have hc : c = 'e' := by simpa using hc.symm
      rw [hc]
      rfl
    | none => exact hrest.not_isDigit

/-- Where there is no fraction, no point follows the whole digits. -/
theorem exponentChars_append_ne_dot {l : NumberLiteral} {rest : List Char} (hrest : Stops rest) (r : List Char) :
    l.exponentChars ++ rest ≠ '.' :: r := by
  intro hr
  rw [NumberLiteral.exponentChars] at hr
  cases he : l.exponent with
  | some p =>
    rw [he] at hr
    exact absurd (List.cons.inj hr).1 (by decide)
  | none =>
    rw [he] at hr
    have hdot := hrest '.' (by rw [show rest = '.' :: r from hr]; rfl)
    exact absurd hdot (by decide)

/-- A proper literal is read by `readNumber` as the number that it stands for; the sign has been read before. -/
theorem readNumber_append {l : NumberLiteral} (hl : l.IsProper) {rest : List Char}
    (hrest : Stops rest) :
    readNumber l.negative (l.whole ++ l.tailChars ++ rest) =
      (.number (Number.ofLiteral? l), some rest) := by
  have hwhole : readDigits (l.whole ++ (l.tailChars ++ rest)) = (l.whole, l.tailChars ++ rest) :=
    readDigits_append hl.whole.2 (tailChars_append_head? hrest)
  have hzero : ¬(l.whole.head? = some '0' ∧ 1 < l.whole.length) := by
    rintro ⟨hhead, hlength⟩
    have h1 := hl.noLeadingZero hhead
    omega
  have hexponent := readExponent_append hl hrest
  obtain ⟨w, ws, hw⟩ := List.exists_cons_of_ne_nil hl.whole.1
  rw [hw] at hwhole hzero
  rw [readNumber, List.append_assoc, hw, hwhole]
  simp only [if_neg hzero]
  rw [NumberLiteral.tailChars]
  cases hf : l.fraction with
  | some ds =>
    have hds : IsDigits ds := hl.fraction ds hf
    have hnodigit : ∀ c ∈ (l.exponentChars ++ rest).head?, c.isDigit = false := by
      intro c hc
      refine tailChars_append_head? (l := { l with fraction := none }) hrest c ?_
      exact hc
    have hread : readDigits (ds ++ (l.exponentChars ++ rest)) = (ds, l.exponentChars ++ rest) :=
      readDigits_append hds.2 hnodigit
    obtain ⟨d, ds', rfl⟩ := List.exists_cons_of_ne_nil hds.1
    simp only [List.cons_append, List.append_assoc]
    rw [← List.cons_append, hread]
    rw [hw, hf] at hexponent
    exact hexponent
  | none =>
    rw [hw, hf] at hexponent
    split
    · -- what ends a literal is no point
      next r hr => exact absurd hr (exponentChars_append_ne_dot hrest r)
    · exact hexponent

/-! ## Decimals -/

/-- The exponent of the first digit of `d`. -/
def leadingExponent (d : Decimal) : Int := d.exponent + (Nat.toDigits 10 d.digits).length - 1

/-- The literal of a decimal. -/
def decimalLiteral (d : Decimal) : NumberLiteral :=
  let digits := Nat.toDigits 10 d.digits
  let e := leadingExponent d
  if Number.isPositional e then
    if e < 0 then
      { negative := false, whole := ['0']
        fraction := some (List.replicate (-e - 1).toNat '0' ++ digits) }
    else
      let rest := digits.drop (e.toNat + 1)
      { negative := false
        whole := digits.take (e.toNat + 1) ++ List.replicate (e.toNat + 1 - digits.length) '0'
        fraction := some (if rest.isEmpty then ['0'] else rest) }
  else
    let rest := digits.drop 1
    let power := Nat.toDigits 10 e.natAbs
    { negative := false, whole := digits.take 1
      fraction := if rest.isEmpty then none else some rest
      exponent := some (e < 0, if power.length < 2 then '0' :: power else power) }

theorem toList_toString (n : Nat) : (toString n).toList = Nat.toDigits 10 n := by
  rw [Nat.toString_eq_ofList_toDigits, String.toList_ofList]

/-- An exponent is written with its sign and at least two digits. -/
theorem toList_exponentText (e : Int) :
    (Number.exponentText e).toList =
      'e' :: (if e < 0 then '-' else '+') ::
        (if (Nat.toDigits 10 e.natAbs).length < 2 then '0' :: Nat.toDigits 10 e.natAbs
          else Nat.toDigits 10 e.natAbs) := by
  have hlength : (toString e.natAbs).length = (Nat.toDigits 10 e.natAbs).length := by
    rw [← String.length_toList, toList_toString]
  rw [Number.exponentText]
  simp only [hlength]
  split <;> split <;> simp

/-- A decimal is written as its `decimalLiteral`. -/
theorem toList_decimalText (d : Decimal) :
    (Number.decimalText d).toList = (decimalLiteral d).chars := by
  rw [Number.decimalText, decimalLiteral, leadingExponent]
  simp only [toList_toString]
  split
  · split
    · simp [NumberLiteral.chars, NumberLiteral.tailChars, NumberLiteral.exponentChars]
    · split <;> simp [NumberLiteral.chars, NumberLiteral.tailChars, NumberLiteral.exponentChars]
  · split <;>
      simp [NumberLiteral.chars, NumberLiteral.tailChars, NumberLiteral.exponentChars,
        toList_exponentText]

/-- The literal of a decimal is proper, unless it is a zero with an exponent. -/
theorem isProper_decimalLiteral {d : Decimal} (hd : d.digits = 0 → d.exponent = 0) :
    (decimalLiteral d).IsProper := by
  have hdigits : IsDigits (Nat.toDigits 10 d.digits) := isDigits_toDigits d.digits
  have hzeros : ∀ n, ∀ c ∈ List.replicate n '0', c.isDigit = true := by
    intro n c hc
    rw [(List.mem_replicate.mp hc).2]
    rfl
  have htake : ∀ n, ∀ c ∈ (Nat.toDigits 10 d.digits).take n, c.isDigit = true :=
    fun n c hc => hdigits.2 c (List.mem_of_mem_take hc)
  have hdrop : ∀ n, ∀ c ∈ (Nat.toDigits 10 d.digits).drop n, c.isDigit = true :=
    fun n c hc => hdigits.2 c (List.mem_of_mem_drop hc)
  obtain ⟨c, cs, hcs⟩ := List.exists_cons_of_ne_nil hdigits.1
  rw [decimalLiteral]
  split
  · split
    · -- a zero, the point and zeros before the digits
      refine ⟨⟨by simp, by simp⟩, fun _ => rfl, ?_, by simp⟩
      rintro ds ⟨rfl⟩
      exact ⟨by simp [hdigits.1], fun c hc => (List.mem_append.mp hc).elim (hzeros _ c) (hdigits.2 c)⟩
    · -- the point among the digits, or zeros after them and the point
      refine ⟨⟨by simp [hdigits.1], ?_⟩, ?_, ?_, by simp⟩
      · exact fun c hc => (List.mem_append.mp hc).elim (htake _ c) (hzeros _ c)
      · intro hhead
        have hzero : d.digits = 0 := by
          by_contra hne
          have hfirst := head?_toDigits hne
          rw [hcs] at hhead hfirst
          exact hfirst (by simpa using hhead)
        simp [leadingExponent, hd hzero, hzero]
      · rintro ds ⟨rfl⟩
        split
        · exact ⟨by simp, by simp⟩
        · next hne => exact ⟨by simpa using hne, hdrop _⟩
  · -- one digit before the point, and a power of ten
    refine ⟨⟨by simp [hdigits.1], htake 1⟩, ?_, ?_, ?_⟩
    · intro _
      simp [hcs]
    · intro ds hds
      dsimp only at hds
      split at hds
      · simp at hds
      · next hne =>
        cases hds
        exact ⟨by simpa using hne, hdrop 1⟩
    · rintro p ⟨rfl⟩
      have hpower := isDigits_toDigits (leadingExponent d).natAbs
      split
      · exact ⟨by simp, fun c hc => (List.mem_cons.mp hc).elim (fun h => h ▸ rfl) (hpower.2 c)⟩
      · exact hpower

/-! ## Numbers -/

namespace Number

/-- The literal that a number is written as. -/
def literal : Number → NumberLiteral
  | .integer n => { negative := n < 0, whole := Nat.toDigits 10 n.natAbs }
  | .double x => { decimalLiteral (Decimal.shortest x) with negative := x.negative }

/-- A number is written as its `literal`. -/
theorem toList_toText (n : Number) : n.toText.toList = n.literal.chars := by
  cases n with
  | integer n =>
    cases n with
    | ofNat n =>
      show (Nat.repr n).toList = _
      rw [← Nat.toString_eq_repr, toList_toString]
      simp [literal, NumberLiteral.chars, NumberLiteral.tailChars, NumberLiteral.exponentChars]
    | negSucc n =>
      show ("-" ++ Nat.repr (n + 1)).toList = _
      rw [String.toList_append, ← Nat.toString_eq_repr, toList_toString]
      simp [literal, NumberLiteral.chars, NumberLiteral.tailChars, NumberLiteral.exponentChars]
  | double x =>
    show ((if x.negative then "-" else "") ++ decimalText (Decimal.shortest x)).toList = _
    rw [String.toList_append, toList_decimalText, literal, NumberLiteral.chars, NumberLiteral.chars]
    have hsign : (decimalLiteral (Decimal.shortest x)).negative = false := by
      rw [decimalLiteral]
      dsimp only
      split
      · split <;> rfl
      · rfl
    rw [hsign]
    cases x.negative <;> simp [NumberLiteral.tailChars, NumberLiteral.exponentChars]

/-- Every number is written as a proper literal. -/
theorem isProper_literal (n : Number) : n.literal.IsProper := by
  cases n with
  | integer n =>
    refine ⟨isDigits_toDigits _, fun hhead => ?_, by simp [literal], by simp [literal]⟩
    have hzero : n.natAbs = 0 := by
      by_contra hne
      exact head?_toDigits hne hhead
    simp [literal, hzero]
  | double x =>
    obtain ⟨hwhole, hzero, hfraction, hexponent⟩ :=
      isProper_decimalLiteral (Decimal.exponent_shortest (x := x))
    exact ⟨hwhole, hzero, hfraction, hexponent⟩

/-- What the written number `n` is read as, which is a matter of its `literal` alone. -/
def reread? (n : Number) : Option Number := ofLiteral? n.literal

end Number

/-! ## Integers -/

/-- Further digits only make a number greater. -/
theorem le_foldl_digits (cs : List Char) (v : Nat) :
    v ≤ cs.foldl (fun n c => 10 * n + digitValue c) v := by
  induction cs generalizing v with
  | nil => exact Nat.le_refl v
  | cons c cs ih => exact Nat.le_trans (by omega) (ih (10 * v + digitValue c))

/-- Digits that fit into 64 bits are taken by `takeWhole` as they are. -/
theorem takeWhole_of_lt {cs : List Char} {v : Nat} {e : Int}
    (h : cs.foldl (fun n c => 10 * n + digitValue c) v < wordLimit) :
    Significand.takeWhole ⟨v, e, false⟩ cs =
      ⟨cs.foldl (fun n c => 10 * n + digitValue c) v, e, false⟩ := by
  induction cs generalizing v with
  | nil => rfl
  | cons c cs ih =>
    have hfits : ¬wordLimit ≤ 10 * v + digitValue c := by
      have hle := le_foldl_digits cs (10 * v + digitValue c)
      exact Nat.not_le.mpr (Nat.lt_of_le_of_lt hle h)
    simp only [Significand.takeWhole, Bool.false_or, decide_eq_true_eq, if_neg hfits]
    exact ih h

/-- The integers of 64 bits, with or without a sign: from `-2 ^ 63` to below `2 ^ 64`. -/
def IsWord (n : Int) : Prop := -(wordLimit / 2 : Nat) ≤ n ∧ n < wordLimit

/-- An integer of 64 bits is read as itself. -/
theorem Number.reread?_integer {n : Int} (hn : IsWord n) : reread? (.integer n) = some (.integer n) := by
  obtain ⟨hlow, hhigh⟩ := hn
  have hlimit : wordLimit = 18446744073709551616 := rfl
  have hvalue : (Nat.toDigits 10 n.natAbs).foldl (fun n c => 10 * n + digitValue c) 0 = n.natAbs := by
    have h := digitsValue_eq (Nat.toDigits 10 n.natAbs)
    rwa [Nat.ofDigitChars_toDigits (by omega) (by omega)] at h
  have htake : Significand.takeWhole ⟨0, 0, false⟩ (Nat.toDigits 10 n.natAbs) = ⟨n.natAbs, 0, false⟩ := by
    rw [takeWhole_of_lt (by rw [hvalue]; omega), hvalue]
  rw [reread?, literal, ofLiteral?]
  simp only [htake, Bool.false_eq_true, if_false, Bool.not_eq_true', decide_eq_false_iff_not]
  by_cases hneg : n < 0
  · have hsmall : ¬(n.natAbs = 0 ∨ wordLimit / 2 < n.natAbs) := by omega
    rw [if_neg (not_not.mpr hneg), if_neg hsmall]
    exact congrArg (fun m => some (Number.integer m)) (by omega)
  · rw [if_pos hneg]
    exact congrArg (fun m => some (Number.integer m)) (by omega)

end PayloadAtlas.Json
