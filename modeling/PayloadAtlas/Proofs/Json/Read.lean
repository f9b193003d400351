import PayloadAtlas.Proofs.Json.Reread

/-!
# Values that were read

A value that was read from a text is well-formed (`wellFormed_of_ofText`): the last of repeated keys counts, so
that the keys of an object differ, and an integer that does not fit into 64 bits is read as a double. Each of
its numbers is the number of a literal (`sound_of_ofText`), as all numbers are that a text says anywhere
(`readsFor`).
-/

namespace PayloadAtlas.Json

/-! ## Numbers of a text -/

namespace Raw

mutual

/-- Whether all numbers satisfy `P`, also those of parts that are given up later. -/
def ForNumbers (P : Number → Prop) : Raw → Prop
  | .number (some n) => P n
  | .array xs _ => ForItems P xs
  | .object es _ => ForEntries P es
  | _ => True

/-- Whether all numbers of some items satisfy something. -/
def ForItems (P : Number → Prop) : List Raw → Prop
  | [] => True
  | x :: xs => ForNumbers P x ∧ ForItems P xs

/-- Whether all numbers of some entries satisfy something. -/
def ForEntries (P : Number → Prop) : List (Quoted × Raw) → Prop
  | [] => True
  | (_, x) :: rest => ForNumbers P x ∧ ForEntries P rest

end

variable {P : Number → Prop}

theorem forItems_iff {xs : List Raw} : ForItems P xs ↔ ∀ x ∈ xs, x.ForNumbers P := by
  induction xs with
  | nil => simp [ForItems]
  | cons x xs ih => simp [ForItems, ih]

theorem forEntries_iff {es : List (Quoted × Raw)} : ForEntries P es ↔ ∀ e ∈ es, e.2.ForNumbers P := by
  induction es with
  | nil => simp [ForEntries]
  | cons e es ih => simp [ForEntries, ih]

/-- Items are collected in reverse, so that they are turned around at the end of `array`. -/
theorem forNumbers_array {done : List Raw} (h : ∀ x ∈ done, x.ForNumbers P) (flaw : Option Flaw) :
    (Raw.array done.reverse flaw).ForNumbers P := by
  rw [ForNumbers, forItems_iff]
  exact fun x hx => h x (List.mem_reverse.mp hx)

theorem forNumbers_object {done : List (Quoted × Raw)} (h : ∀ e ∈ done, e.2.ForNumbers P)
    (flaw : Option Flaw) : (Raw.object done.reverse flaw).ForNumbers P := by
  rw [ForNumbers, forEntries_iff]
  exact fun e he => h e (List.mem_reverse.mp he)

end Raw

open Raw

variable {P : Number → Prop}

/-- A word stands for something without numbers, or breaks off. -/
theorem forNumbers_readWord {s : Raw} (hs : s.ForNumbers P) (word cs : List Char) :
    (readWord word s cs).1.ForNumbers P := by
  induction cs generalizing word with
  | nil =>
    rw [readWord]
    split
    · exact hs
    · trivial
  | cons c cs ih =>
    cases word with
    | nil => exact hs
    | cons w word =>
      rw [readWord]
      split
      · exact ih word
      · trivial

/-- The numbers that the five readers read with some fuel satisfy `P`. -/
structure ReadsFor (P : Number → Prop) (fuel : Nat) : Prop where
  value : ∀ cs, (readValue fuel cs).1.ForNumbers P
  items : ∀ done cs, (∀ x ∈ done, x.ForNumbers P) → (readItems fuel done cs).1.ForNumbers P
  item : ∀ done cs, (∀ x ∈ done, x.ForNumbers P) → (readItem fuel done cs).1.ForNumbers P
  entries : ∀ done cs, (∀ e ∈ done, e.2.ForNumbers P) → (readEntries fuel done cs).1.ForNumbers P
  entry : ∀ done cs, (∀ e ∈ done, e.2.ForNumbers P) → (readEntry fuel done cs).1.ForNumbers P

theorem readsFor_zero : ReadsFor P 0 where
  value _ := trivial
  items _ _ h := forNumbers_array h _
  item _ _ h := forNumbers_array h _
  entries _ _ h := forNumbers_object h _
  entry _ _ h := forNumbers_object h _

section Literals

variable (hP : ∀ (l : NumberLiteral) (n : Number), Number.ofLiteral? l = some n → P n)

include hP

/-- The number of a literal satisfies `P` if all such numbers do. -/
theorem forNumbers_literal (l : NumberLiteral) : (Raw.number (Number.ofLiteral? l)).ForNumbers P := by
  cases h : Number.ofLiteral? l with
  | none => trivial
  | some n => exact hP l n h

theorem forNumbers_readExponent (n : NumberLiteral) (cs : List Char) :
    (readExponent n cs).1.ForNumbers P := by
  rw [readExponent.eq_def]
  split
  · exact forNumbers_literal hP n
  · split
    · dsimp only
      split
      · trivial
      · exact forNumbers_literal hP _
    · exact forNumbers_literal hP n

/-- The number that is read satisfies `P`: it is that of a literal. -/
theorem forNumbers_readNumber (negative : Bool) (cs : List Char) :
    (readNumber negative cs).1.ForNumbers P := by
  rw [readNumber]
  split
  · trivial
  · split
    · trivial
    · split
      · split
        · trivial
        · exact forNumbers_readExponent hP _ _
      · exact forNumbers_readExponent hP _ _

section Step

variable {fuel : Nat}

/-- With one more step of fuel, a value is a word, a number, a text, or what the other readers read. -/
theorem forNumbers_readValue_succ (ih : ReadsFor P fuel) (cs : List Char) :
    (readValue (fuel + 1) cs).1.ForNumbers P := by
  rw [readValue]
  split
  · trivial
  · split
    · exact forNumbers_readWord (by simp [ForNumbers]) _ _
    · exact forNumbers_readWord (by simp [ForNumbers]) _ _
    · exact forNumbers_readWord (by simp [ForNumbers]) _ _
    · trivial
    · exact ih.items [] _ (by simp)
    · exact ih.entries [] _ (by simp)
    · exact forNumbers_readNumber hP true _
    · split
      · exact forNumbers_readNumber hP false _
      · trivial

omit hP

theorem forNumbers_readItems_succ (ih : ReadsFor P fuel) {done : List Raw} (cs : List Char)
    (h : ∀ x ∈ done, x.ForNumbers P) : (readItems (fuel + 1) done cs).1.ForNumbers P := by
  have hbroken (a b : Flaw) : ∀ x ∈ Raw.broken a b :: done, x.ForNumbers P :=
    List.forall_mem_cons.mpr ⟨trivial, h⟩
  rw [readItems]
  split
  · exact forNumbers_array h _
  · exact forNumbers_array h _
  · split
    · exact ih.item done _ h
    · split
      · split
        · exact forNumbers_array (hbroken _ _) _
        · exact forNumbers_array (hbroken _ _) _
        · exact ih.item done _ h
      · exact forNumbers_array h _

theorem forNumbers_readItem_succ (ih : ReadsFor P fuel) {done : List Raw} (cs : List Char)
    (h : ∀ x ∈ done, x.ForNumbers P) : (readItem (fuel + 1) done cs).1.ForNumbers P := by
  have hvalue := ih.value cs
  rw [readItem]
  split
  · next x rest hread =>
    rw [hread] at hvalue
    exact ih.items _ _ (List.forall_mem_cons.mpr ⟨hvalue, h⟩)
  · next x hread =>
    rw [hread] at hvalue
    exact forNumbers_array (List.forall_mem_cons.mpr ⟨hvalue, h⟩) _

theorem forNumbers_readEntries_succ (ih : ReadsFor P fuel) {done : List (Quoted × Raw)} (cs : List Char)
    (h : ∀ e ∈ done, e.2.ForNumbers P) : (readEntries (fuel + 1) done cs).1.ForNumbers P := by
  rw [readEntries]
  split
  · exact forNumbers_object h _
  · exact forNumbers_object h _
  · split
    · exact ih.entry done _ h
    · exact forNumbers_object h _
  · split
    · exact forNumbers_object h _
    · split
      · exact forNumbers_object h _
      · exact ih.entry done _ h
      · exact forNumbers_object h _
  · exact forNumbers_object h _

theorem forNumbers_readEntry_succ (ih : ReadsFor P fuel) {done : List (Quoted × Raw)} (cs : List Char)
    (h : ∀ e ∈ done, e.2.ForNumbers P) : (readEntry (fuel + 1) done cs).1.ForNumbers P := by
  have hbroken (key : Quoted) (a b : Flaw) : ∀ e ∈ (key, Raw.broken a b) :: done, e.2.ForNumbers P :=
    List.forall_mem_cons.mpr ⟨trivial, h⟩
  rw [readEntry]
  split
  · exact forNumbers_object (hbroken _ _ _) _
  · split
    · exact forNumbers_object (hbroken _ _ _) _
    · next rest _ =>
      have hvalue := ih.value rest
      split
      · next x rest hread =>
        rw [hread] at hvalue
        exact ih.entries _ _ (List.forall_mem_cons.mpr ⟨hvalue, h⟩)
      · next x hread =>
        rw [hread] at hvalue
        exact forNumbers_object (List.forall_mem_cons.mpr ⟨hvalue, h⟩) _
    · exact forNumbers_object (hbroken _ _ _) _

end Step

/-- What holds of the readers with some `fuel` holds with one more step. -/
theorem readsFor_succ {fuel : Nat} (ih : ReadsFor P fuel) : ReadsFor P (fuel + 1) where
  value cs := forNumbers_readValue_succ hP ih cs
  items _ cs h := forNumbers_readItems_succ ih cs h
  item _ cs h := forNumbers_readItem_succ ih cs h
  entries _ cs h := forNumbers_readEntries_succ ih cs h
  entry _ cs h := forNumbers_readEntry_succ ih cs h

/-- Whatever the fuel, all numbers that are read satisfy `P`. -/
theorem readsFor (fuel : Nat) : ReadsFor P fuel := by
  induction fuel with
  | zero => exact readsFor_zero
  | succ fuel ih => exact readsFor_succ hP ih

/-- All numbers of a text satisfy `P`. -/
theorem forNumbers_read (text : String) : (Document.read text).root.ForNumbers P := by
  have hvalue := (readsFor hP (2 * text.toList.length + 2)).value text.toList
  rw [Document.read]
  split <;> next hread => rwa [hread] at hvalue

end Literals

/-! ## Values -/

namespace Value

/-- Whether all numbers of a value satisfy `P`, and the keys of each object differ. -/
def Sound (P : Number → Prop) (v : Value) : Prop := (∀ n ∈ v.numbers, P n) ∧ v.keysDiffer

theorem sound_array {xs : List Value} : Sound P (.array xs) ↔ ∀ x ∈ xs, x.Sound P := by
  simp only [Sound, numbers, keysDiffer]
  induction xs with
  | nil => simp [numbersOfItems, itemsKeysDiffer]
  | cons x xs ih =>
    simp only [numbersOfItems, itemsKeysDiffer, List.mem_append, List.forall_mem_cons, or_imp,
      forall_and] at ih ⊢
    tauto

theorem sound_object {ms : List (String × Value)} :
    Sound P (.object ms) ↔ (ms.map Prod.fst).Nodup ∧ ∀ m ∈ ms, m.2.Sound P := by
  have hmembers : (∀ n ∈ numbersOfMembers ms, P n) ∧ membersKeysDiffer ms ↔ ∀ m ∈ ms, m.2.Sound P := by
    induction ms with
    | nil => simp [numbersOfMembers, membersKeysDiffer]
    | cons m ms ih =>
      simp only [Sound, numbersOfMembers, membersKeysDiffer, List.mem_append, List.forall_mem_cons, or_imp,
        forall_and] at ih ⊢
      tauto
  rw [← hmembers, Sound, numbers, keysDiffer]
  tauto

/-- Members that are set one after the other, by `membersOf`, have different keys. -/
theorem sound_membersOf {ms : List (String × Value)} (h : ∀ m ∈ ms, m.2.Sound P) :
    Sound P (.object (membersOf ms)) := by
  refine membersOf_induction (P := fun acc => Sound P (.object acc)) (sound_object.mpr (by simp)) ?_
  intro acc hacc m hm
  obtain ⟨hkeys, hvalues⟩ := sound_object.mp hacc
  exact sound_object.mpr ⟨Association.nodup_set hkeys _, Association.forall_mem_set hvalues (h m hm)⟩

end Value

open Value

theorem eq_of_closed {α : Type} {flaw : Option Flaw} {a b : α} (h : closed flaw a = .ok b) : a = b := by
  cases flaw with
  | none => exact Except.ok.inj h
  | some f => cases h

mutual

/-- A value that `toValue` makes of what was read has the numbers of it, and keys that differ. -/
theorem sound_toValue {r : Raw} {depth : Nat} {v : Value} (hr : r.ForNumbers P)
    (h : Raw.toValue depth r = .ok v) : v.Sound P := by
  match r, depth with
  | .null, _ => cases h; exact ⟨by simp [numbers], trivial⟩
  | .bool b, _ => cases h; exact ⟨by simp [numbers], trivial⟩
  | .number none, _ => cases h
  | .number (some n), _ => cases h; exact ⟨by simpa [numbers, ForNumbers] using hr, trivial⟩
  | .broken _ _, _ => cases h
  | .string q, _ =>
    rw [Raw.toValue] at h
    cases hq : q.toText with
    | error f => rw [hq] at h; cases h
    | ok s => rw [hq] at h; cases h; exact ⟨by simp [numbers], trivial⟩
  | .array xs flaw, 0 => cases h
  | .array xs flaw, depth + 1 =>
    rw [Raw.toValue] at h
    cases hitems : Raw.toValues depth xs with
    | error f => rw [hitems] at h; cases h
    | ok vs =>
      rw [hitems] at h
      have heq : Value.array vs = v := eq_of_closed h
      rw [← heq, sound_array]
      exact sound_toValues hr hitems
  | .object es flaw, 0 => cases h
  -- the last of repeated keys counts, so that keys differ whatever the text says
  | .object es flaw, depth + 1 =>
    rw [Raw.toValue] at h
    cases hmembers : Raw.toMembers depth es with
    | error f => rw [hmembers] at h; cases h
    | ok ms =>
      rw [hmembers] at h
      have heq : Value.object (membersOf ms) = v := eq_of_closed h
      rw [← heq]
      exact sound_membersOf (sound_toMembers hr hmembers)

theorem sound_toValues {xs : List Raw} {depth : Nat} {vs : List Value} (hxs : ForItems P xs)
    (h : Raw.toValues depth xs = .ok vs) : ∀ v ∈ vs, v.Sound P := by
  match xs with
  | [] => cases h; simp
  | x :: xs =>
    rw [Raw.toValues] at h
    cases hx : Raw.toValue depth x with
    | error f => rw [hx] at h; cases h
    | ok v =>
      cases hrest : Raw.toValues depth xs with
      | error f => rw [hx, hrest] at h; cases h
      | ok rest =>
        rw [hx, hrest] at h
        cases h
        exact List.forall_mem_cons.mpr ⟨sound_toValue hxs.1 hx, sound_toValues hxs.2 hrest⟩

theorem sound_toMembers {es : List (Quoted × Raw)} {depth : Nat} {ms : List (String × Value)}
    (hes : ForEntries P es) (h : Raw.toMembers depth es = .ok ms) : ∀ m ∈ ms, m.2.Sound P := by
  match es with
  | [] => cases h; simp
  | (k, x) :: rest =>
    rw [Raw.toMembers] at h
    cases hk : k.toText with
    | error f => rw [hk] at h; cases h
    | ok key =>
      cases hx : Raw.toValue depth x with
      | error f => rw [hk, hx] at h; cases h
      | ok v =>
        cases hrest : Raw.toMembers depth rest with
        | error f => rw [hk, hx, hrest] at h; cases h
        | ok ms =>
          rw [hk, hx, hrest] at h
          cases h
          exact List.forall_mem_cons.mpr ⟨sound_toValue hes.1 hx, sound_toMembers hes.2 hrest⟩

end

/-- The numbers of a value that was read are those of literals, and the keys of its objects differ. -/
theorem sound_of_ofText (hP : ∀ (l : NumberLiteral) (n : Number), Number.ofLiteral? l = some n → P n)
    {text : String} {v : Value} (h : Decoder.ofText Decoder.value text = .ok v) : v.Sound P := by
  rw [Decoder.ofText, Decoder.value] at h
  cases hroot : Raw.toValue Decoder.nestingLimit (Document.read text).root with
  | error f => rw [hroot] at h; cases h
  | ok w =>
    simp only [hroot, bind, Except.bind] at h
    split at h
    · cases h
    · cases h
      exact sound_toValue (forNumbers_read hP text) hroot

/-! ## Integers -/

/-- What is taken of the whole digits never goes beyond 64 bits. -/
theorem takeWhole_value_lt {s : Significand} (hs : s.value < wordLimit) (cs : List Char) :
    (s.takeWhole cs).value < wordLimit := by
  induction cs generalizing s with
  | nil => exact hs
  | cons c cs ih =>
    rw [Significand.takeWhole]
    split
    · exact ih hs
    · next hfits =>
      simp only [Bool.or_eq_true, decide_eq_true_eq, not_or, Nat.not_le] at hfits
      exact ih hfits.2

/-- A double is no integer. -/
theorem double?_ne_integer (negative : Bool) (s : Significand) (exponent : Option (Bool × List Char))
    (n : Int) : Number.double? negative s exponent ≠ some (.integer n) := by
  rw [Number.double?.eq_def]
  split
  · simp
  · next down digits =>
    by_cases hlarge : exponentLimit ≤ digitsValue digits
    · rw [if_pos hlarge]
      split <;> simp
    · rw [if_neg hlarge]
      simp

/-- An integer of a literal has 64 bits; one that is greater is read as a double. -/
theorem isWord_of_ofLiteral? {l : NumberLiteral} {n : Int} (h : Number.ofLiteral? l = some (.integer n)) :
    IsWord n := by
  have hvalue := takeWhole_value_lt (s := ⟨0, 0, false⟩) (by decide) l.whole
  have hlimit : wordLimit = 18446744073709551616 := rfl
  rw [Number.ofLiteral?] at h
  split at h
  · split at h
    · exact absurd h (double?_ne_integer _ _ _ n)
    · split at h
      · cases h
        exact ⟨by omega, by omega⟩
      · split at h
        · simp at h
        · next hlow =>
          cases h
          exact ⟨by omega, by omega⟩
  · exact absurd h (double?_ne_integer _ _ _ n)

/-- What an integer of a text may be, and nothing about doubles. -/
def Number.HasWord : Number → Prop
  | .integer n => IsWord n
  | .double _ => True

theorem hasWord_of_ofLiteral? (l : NumberLiteral) (n : Number) (h : Number.ofLiteral? l = some n) :
    n.HasWord := by
  cases n with
  | integer n => exact isWord_of_ofLiteral? h
  | double x => trivial

/-- A value that was read by `ofText` is well-formed. -/
theorem wellFormed_of_ofText {text : String} {v : Value}
    (h : Decoder.ofText Decoder.value text = .ok v) : v.WellFormed := by
  obtain ⟨hnumbers, hkeys⟩ := sound_of_ofText hasWord_of_ofLiteral? h
  exact ⟨hkeys, fun n hn => hnumbers (.integer n) hn⟩

end PayloadAtlas.Json
