import PayloadAtlas.Proofs.Json.Written

/-!
# Values that were written and read

A written value is read as a value again if it does not nest too deep and each of its numbers is read as some
number (`toValue_written`), and not at all if it nests too deep (`toValue_written_of_lt`). What it is read as
is `Value.reread`: the numbers are as they are read, and of repeated keys the last counts. A well-formed value
all of whose doubles come back is read as itself (`ComesBack.reread_eq`).
-/

namespace PayloadAtlas.Json

/-! ## Numbers and keys of a value -/

namespace Value

mutual

/-- The numbers of a value, in their order as `compact` writes them. -/
def numbers : Value → List Number
  | .number n => [n]
  | .array xs => numbersOfItems xs
  | .object ms => numbersOfMembers ms
  | _ => []

/-- The numbers of some values. -/
def numbersOfItems : List Value → List Number
  | [] => []
  | x :: xs => numbers x ++ numbersOfItems xs

/-- The numbers of some members. -/
def numbersOfMembers : List (String × Value) → List Number
  | [] => []
  | (_, v) :: rest => numbers v ++ numbersOfMembers rest

end

mutual

/-- Whether the keys of each object differ. -/
def keysDiffer : Value → Prop
  | .array xs => itemsKeysDiffer xs
  | .object ms => (ms.map Prod.fst).Nodup ∧ membersKeysDiffer ms
  | _ => True

/-- Whether the keys differ in each of some values. -/
def itemsKeysDiffer : List Value → Prop
  | [] => True
  | x :: xs => keysDiffer x ∧ itemsKeysDiffer xs

/-- Whether the keys differ in each of some members. -/
def membersKeysDiffer : List (String × Value) → Prop
  | [] => True
  | (_, v) :: rest => keysDiffer v ∧ membersKeysDiffer rest

end

mutual

/-- What a value comes back as, once it has been written: numbers as they are read, the last of repeated keys. -/
def reread : Value → Value
  | .number n => .number (n.reread?.getD n)
  | .array xs => .array (rereadItems xs)
  | .object ms => .object (membersOf (rereadMembers ms))
  | v => v

/-- What some values come back as. -/
def rereadItems : List Value → List Value
  | [] => []
  | x :: xs => reread x :: rereadItems xs

/-- What some members come back as. -/
def rereadMembers : List (String × Value) → List (String × Value)
  | [] => []
  | (k, v) :: rest => (k, reread v) :: rereadMembers rest

end

/-- The keys of each object differ, and integers have 64 bits. -/
structure WellFormed (v : Value) : Prop where
  keys : v.keysDiffer
  integers : ∀ n, Number.integer n ∈ v.numbers → IsWord n

/-- Each number of `v` is read as some number. -/
def Readable (v : Value) : Prop := ∀ n ∈ v.numbers, n.reread?.isSome

/-- The value `v` comes back as it was. -/
structure ComesBack (v : Value) : Prop where
  keys : v.keysDiffer
  numbers : ∀ n ∈ v.numbers, n.reread? = some n

/-- What comes back as it was is read. -/
theorem ComesBack.readable {v : Value} (h : v.ComesBack) : v.Readable := by
  intro n hn
  rw [h.numbers n hn]
  rfl

/-- If the doubles of a well-formed value come back, all of it does. -/
theorem WellFormed.comesBack {v : Value} (h : v.WellFormed)
    (hdoubles : ∀ x, Number.double x ∈ v.numbers → (Number.double x).reread? = some (.double x)) :
    v.ComesBack := by
  refine ⟨h.keys, fun n hn => ?_⟩
  cases n with
  | integer n => exact Number.reread?_integer (h.integers n hn)
  | double x => exact hdoubles x hn

/-! ## Members -/

/-- A new key is set at the end. -/
theorem set_of_notMem {k : String} {v : Value} {ms : List (String × Value)}
    (h : k ∉ ms.map Prod.fst) : Association.set k v ms = ms ++ [(k, v)] := by
  induction ms with
  | nil => rfl
  | cons m rest ih =>
    obtain ⟨j, w⟩ := m
    simp only [List.map_cons, List.mem_cons, not_or] at h
    rw [Association.set, if_neg (Ne.symm h.1), ih h.2]
    rfl

theorem membersOf_eq_foldl (ms : List (String × Value)) :
    membersOf ms = ms.foldl (fun acc m => Association.set m.1 m.2 acc) [] := rfl

/-- What setting any of the members keeps, setting all of them by `membersOf` keeps. -/
theorem membersOf_induction {P : List (String × Value) → Prop} {ms : List (String × Value)} (hnil : P [])
    (hset : ∀ acc, P acc → ∀ m ∈ ms, P (Association.set m.1 m.2 acc)) : P (membersOf ms) := by
  rw [membersOf_eq_foldl]
  exact List.foldlRecOn ms _ hnil hset

/-- Members with different keys stay as they are in `membersOf`. -/
theorem membersOf_eq_self {ms : List (String × Value)} (h : (ms.map Prod.fst).Nodup) :
    membersOf ms = ms := by
  have hgeneral : ∀ (rest done : List (String × Value)), ((done ++ rest).map Prod.fst).Nodup →
      rest.foldl (fun acc m => Association.set m.1 m.2 acc) done = done ++ rest := by
    intro rest
    induction rest with
    | nil => simp
    | cons m rest ih =>
      intro done hdone
      obtain ⟨k, v⟩ := m
      have hk : k ∉ done.map Prod.fst := by
        rw [List.map_append, List.nodup_append] at hdone
        exact fun hmem => hdone.2.2 k hmem k (by simp) rfl
      have hstep := ih (done ++ [(k, v)]) (by simpa using hdone)
      rw [← set_of_notMem hk] at hstep
      refine hstep.trans ?_
      rw [set_of_notMem hk, List.append_assoc]
      rfl
  exact hgeneral ms [] h

mutual

/-- A value whose keys differ is read as itself if its numbers are. -/
theorem reread_eq_of_numbers {v : Value} (hkeys : v.keysDiffer)
    (hnumbers : ∀ n ∈ v.numbers, n.reread? = some n) : v.reread = v := by
  match v with
  | .null => rfl
  | .bool _ => rfl
  | .string _ => rfl
  | .number n =>
    rw [reread, hnumbers n (by simp [numbers])]
    rfl
  | .array xs =>
    rw [reread, rereadItems_eq_of_numbers (by simpa [keysDiffer] using hkeys)
      (by simpa [numbers] using hnumbers)]
  | .object ms =>
    rw [keysDiffer] at hkeys
    rw [reread, rereadMembers_eq_of_numbers hkeys.2 (by simpa [numbers] using hnumbers),
      membersOf_eq_self hkeys.1]

theorem rereadItems_eq_of_numbers {xs : List Value} (hkeys : itemsKeysDiffer xs)
    (hnumbers : ∀ n ∈ numbersOfItems xs, n.reread? = some n) : rereadItems xs = xs := by
  match xs with
  | [] => rfl
  | x :: xs =>
    rw [itemsKeysDiffer] at hkeys
    simp only [numbersOfItems, List.mem_append] at hnumbers
    rw [rereadItems, reread_eq_of_numbers hkeys.1 (fun n hn => hnumbers n (.inl hn)),
      rereadItems_eq_of_numbers hkeys.2 (fun n hn => hnumbers n (.inr hn))]

theorem rereadMembers_eq_of_numbers {ms : List (String × Value)} (hkeys : membersKeysDiffer ms)
    (hnumbers : ∀ n ∈ numbersOfMembers ms, n.reread? = some n) : rereadMembers ms = ms := by
  match ms with
  | [] => rfl
  | (k, v) :: rest =>
    rw [membersKeysDiffer] at hkeys
    simp only [numbersOfMembers, List.mem_append] at hnumbers
    rw [rereadMembers, reread_eq_of_numbers hkeys.1 (fun n hn => hnumbers n (.inl hn)),
      rereadMembers_eq_of_numbers hkeys.2 (fun n hn => hnumbers n (.inr hn))]

end

/-- What comes back is read as itself. -/
theorem ComesBack.reread_eq {v : Value} (h : v.ComesBack) : v.reread = v :=
  reread_eq_of_numbers h.keys h.numbers

end Value

/-! ## Reading -/

open Value

/-- Whether nothing comes of a reading. -/
def Fails {ε α : Type} (x : Except ε α) : Prop := ∃ e, x = .error e

theorem Fails.bind {ε α β : Type} {x : Except ε α} (h : Fails x) (f : α → Except ε β) :
    Fails (x >>= f) := by
  obtain ⟨e, rfl⟩ := h
  exact ⟨e, rfl⟩

mutual

/-- A written value is read as `reread` says if it does not nest too deep. -/
theorem toValue_written {v : Value} {depth : Nat} (hdepth : v.depth ≤ depth) (h : v.Readable) :
    Raw.toValue depth (.written v) = .ok v.reread := by
  match v, depth with
  | .null, _ => rfl
  | .bool _, _ => rfl
  | .number n, _ =>
    obtain ⟨m, hm⟩ := Option.isSome_iff_exists.mp (h n (by simp [numbers]))
    simp only [Raw.written, Raw.toValue, reread, hm, Option.getD_some]
  | .string s, _ =>
    simp only [Raw.written, Raw.toValue, reread, Quoted.toText_written, Except.map]
  | .array xs, 0 => simp [Value.depth] at hdepth
  | .array xs, depth + 1 =>
    rw [Value.depth] at hdepth
    have hitems : Raw.toValues depth (Raw.writtenItems xs) = .ok (rereadItems xs) :=
      toValues_written (by omega) (by simpa [Readable, numbers] using h)
    simp only [Raw.written, Raw.toValue, hitems, reread]
    rfl
  | .object ms, 0 => simp [Value.depth] at hdepth
  | .object ms, depth + 1 =>
    rw [Value.depth] at hdepth
    have hmembers : Raw.toMembers depth (Raw.writtenMembers ms) = .ok (rereadMembers ms) :=
      toMembers_written (by omega) (by simpa [Readable, numbers] using h)
    simp only [Raw.written, Raw.toValue, hmembers, reread]
    rfl

theorem toValues_written {xs : List Value} {depth : Nat} (hdepth : depthOfItems xs ≤ depth)
    (h : ∀ n ∈ numbersOfItems xs, n.reread?.isSome) :
    Raw.toValues depth (Raw.writtenItems xs) = .ok (rereadItems xs) := by
  match xs with
  | [] => rfl
  | x :: xs =>
    simp only [numbersOfItems, List.mem_append] at h
    rw [depthOfItems] at hdepth
    have hfirst : Raw.toValue depth (.written x) = .ok x.reread :=
      toValue_written (by omega) (fun n hn => h n (.inl hn))
    have hrest : Raw.toValues depth (Raw.writtenItems xs) = .ok (rereadItems xs) :=
      toValues_written (by omega) (fun n hn => h n (.inr hn))
    simp only [Raw.writtenItems, Raw.toValues, hfirst, hrest, rereadItems]
    rfl

theorem toMembers_written {ms : List (String × Value)} {depth : Nat} (hdepth : depthOfMembers ms ≤ depth)
    (h : ∀ n ∈ numbersOfMembers ms, n.reread?.isSome) :
    Raw.toMembers depth (Raw.writtenMembers ms) = .ok (rereadMembers ms) := by
  match ms with
  | [] => rfl
  | (k, v) :: rest =>
    simp only [numbersOfMembers, List.mem_append] at h
    rw [depthOfMembers] at hdepth
    have hfirst : Raw.toValue depth (.written v) = .ok v.reread :=
      toValue_written (by omega) (fun n hn => h n (.inl hn))
    have hrest : Raw.toMembers depth (Raw.writtenMembers rest) = .ok (rereadMembers rest) :=
      toMembers_written (by omega) (fun n hn => h n (.inr hn))
    simp only [Raw.writtenMembers, Raw.toMembers, Quoted.toText_written, hfirst, hrest, rereadMembers]
    rfl

end

mutual

/-- A written value is not read by `toValue` if it nests deeper than `depth`. -/
theorem toValue_written_of_lt {v : Value} {depth : Nat} (hdepth : depth < v.depth) :
    Fails (Raw.toValue depth (.written v)) := by
  match v, depth with
  | .null, _ => simp [Value.depth] at hdepth
  | .bool _, _ => simp [Value.depth] at hdepth
  | .number _, _ => simp [Value.depth] at hdepth
  | .string _, _ => simp [Value.depth] at hdepth
  | .array xs, 0 => exact ⟨_, rfl⟩
  | .array xs, depth + 1 =>
    rw [Value.depth] at hdepth
    have hitems : Fails (Raw.toValues depth (Raw.writtenItems xs)) :=
      toValues_written_of_lt (by omega)
    simp only [Raw.written, Raw.toValue]
    exact hitems.bind _
  | .object ms, 0 => exact ⟨_, rfl⟩
  | .object ms, depth + 1 =>
    rw [Value.depth] at hdepth
    have hmembers : Fails (Raw.toMembers depth (Raw.writtenMembers ms)) :=
      toMembers_written_of_lt (by omega)
    simp only [Raw.written, Raw.toValue]
    exact hmembers.bind _

theorem toValues_written_of_lt {xs : List Value} {depth : Nat} (hdepth : depth < depthOfItems xs) :
    Fails (Raw.toValues depth (Raw.writtenItems xs)) := by
  match xs with
  | [] => simp [depthOfItems] at hdepth
  | x :: xs =>
    rw [depthOfItems] at hdepth
    simp only [Raw.writtenItems, Raw.toValues]
    by_cases hfirst : depth < x.depth
    · exact (toValue_written_of_lt hfirst).bind _
    · have hrest : Fails (Raw.toValues depth (Raw.writtenItems xs)) :=
        toValues_written_of_lt (by omega)
      cases Raw.toValue depth (Raw.written x) with
      | error f => exact ⟨f, rfl⟩
      | ok w => exact hrest.bind _

theorem toMembers_written_of_lt {ms : List (String × Value)} {depth : Nat}
    (hdepth : depth < depthOfMembers ms) : Fails (Raw.toMembers depth (Raw.writtenMembers ms)) := by
  match ms with
  | [] => simp [depthOfMembers] at hdepth
  | (k, v) :: rest =>
    rw [depthOfMembers] at hdepth
    simp only [Raw.writtenMembers, Raw.toMembers, Quoted.toText_written]
    by_cases hfirst : depth < v.depth
    · exact (toValue_written_of_lt hfirst).bind _
    · have hrest : Fails (Raw.toMembers depth (Raw.writtenMembers rest)) :=
        toMembers_written_of_lt (by omega)
      show Fails (Raw.toValue depth (Raw.written v) >>= _)
      cases Raw.toValue depth (Raw.written v) with
      | error f => exact ⟨f, rfl⟩
      | ok w => exact hrest.bind _

end

/-- A number is read back by itself as it is read within a text. -/
theorem ofText_toText (n : Number) :
    Value.ofText n.toText =
      match n.reread? with
      | some m => .ok (.number m)
      | none => .error .malformed := by
  have hread := (reads_number n).reads (2 * n.toText.toList.length + 2) [] (by omega) (by simp [Stops])
  rw [List.append_nil] at hread
  simp only [Value.ofText, Document.read, hread]
  cases n.reread? <;> rfl

/-- The printed double `x` reads back as itself. -/
def ReadsBack (x : Double) : Prop :=
  Value.ofText (Number.double x).toText = .ok (.number (.double x))

/-- A double reads back just if `ofLiteral?` reads its literal as it. -/
theorem readsBack_iff (x : Double) : ReadsBack x ↔ (Number.double x).reread? = some (.double x) := by
  rw [ReadsBack, ofText_toText]
  cases (Number.double x).reread? <;> simp

end PayloadAtlas.Json
