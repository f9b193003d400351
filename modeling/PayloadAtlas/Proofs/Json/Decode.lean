import PayloadAtlas.Proofs.Json.Reread
import PayloadAtlas.Summary.Codec

/-!
# Laws of decoders

A decoder gives back what was written as a value (`Decoder.Gives`) if it reads the written value as that,
unless it nests too deep, and fails if it does. The law is stated for each of the decoders, and for records
by way of their members (`Decoder.Fills`): a record comes back if each of its members sets a field
(`Gives.record`). Members that are left out leave the default of their field alone (`Fills.optional`).
-/

namespace PayloadAtlas.Json.Decoder

variable {α ρ : Type}

/-- A decoder `dec` gives `a` for the written value `v`, and fails if `v` nests deeper than it may. -/
structure Gives (dec : Decoder α) (v : Value) (a : α) : Prop where
  ok : ∀ depth, v.depth ≤ depth → dec depth (.written v) = .ok a
  deep : ∀ depth, depth < v.depth → Fails (dec depth (.written v))

/-- The data of a written text is there just if the value nests no deeper than `nestingLimit`. -/
theorem Gives.ofText {dec : Decoder α} {v : Value} {a : α} (h : Gives dec v a) :
    (v.depth ≤ nestingLimit → Decoder.ofText dec v.pretty = .ok a) ∧
      (nestingLimit < v.depth → Fails (Decoder.ofText dec v.pretty)) := by
  rw [Decoder.ofText, Document.read_pretty]
  constructor
  · intro hdepth
    rw [h.ok _ hdepth]
    rfl
  · intro hdepth
    exact (h.deep _ hdepth).bind _

/-! ## Single values -/

theorem gives_text (s : String) : Gives text (.string s) s where
  ok _ _ := Quoted.toText_written s
  deep _ hdepth := absurd hdepth (Nat.not_lt_zero _)

theorem gives_bool (b : Bool) : Gives bool (.bool b) b where
  ok _ _ := rfl
  deep _ hdepth := absurd hdepth (Nat.not_lt_zero _)

/-- A number below `bound` is read as itself. -/
theorem gives_natBelow {bound n : Nat} (hn : n < bound) (hbound : bound ≤ wordLimit) :
    Gives (natBelow bound) (.ofNat n) n where
  ok _ _ := by
    have hword : IsWord n := ⟨by omega, by omega⟩
    rw [Value.ofNat, Raw.written, Number.reread?_integer hword]
    simp only [natBelow]
    rw [if_pos ⟨Int.natCast_nonneg n, by omega⟩]
    rfl
  deep _ hdepth := absurd hdepth (Nat.not_lt_zero _)

/-- Any value is read as its `reread`: the last of repeated keys counts. -/
theorem gives_value {v : Value} (h : v.Readable) : Gives value v v.reread where
  ok _ hdepth := toValue_written hdepth h
  deep _ hdepth := toValue_written_of_lt hdepth

/-- The members of an object come back with the last value of each key. -/
theorem gives_members {ms : List (String × Value)} (h : (Value.object ms).Readable) :
    Gives members (.object ms) (Value.membersOf (Value.rereadMembers ms)) where
  ok depth hdepth := by
    have hvalue := toValue_written hdepth h
    rw [Value.reread, Raw.written] at hvalue
    simp only [Raw.written, members, hvalue]
    rfl
  deep depth hdepth := by
    have hvalue := toValue_written_of_lt hdepth
    rw [Raw.written] at hvalue ⊢
    exact hvalue.bind _

/-- What is not `null` is read as it is where a `null` may be. -/
theorem Gives.option {dec : Decoder α} {v : Value} {a : α} (h : Gives dec v a) (hv : v ≠ .null) :
    Gives (Decoder.option dec) v (some a) := by
  -- only `null` is treated apart
  have hread : ∀ depth, Decoder.option dec depth (.written v) = (dec depth (.written v)).map some := by
    intro depth
    cases v with
    | null => exact absurd rfl hv
    | bool b => rfl
    | number n => rfl
    | string s => rfl
    | array xs => rfl
    | object ms => rfl
  constructor
  · intro depth hdepth
    rw [hread, h.ok depth hdepth]
    rfl
  · intro depth hdepth
    obtain ⟨e, he⟩ := h.deep _ hdepth
    exact ⟨e, by rw [hread, he]; rfl⟩

/-! ## Lists -/

/-- The items of a written list come back one by one, as `back` says. -/
theorem items_written {dec : Decoder α} {write : α → Value} {back : α → α} {xs : List α}
    (h : ∀ x ∈ xs, Gives dec (write x) (back x)) {depth : Nat}
    (hdepth : Value.depthOfItems (xs.map write) ≤ depth) :
    items dec depth (Raw.writtenItems (xs.map write)) = .ok (xs.map back) := by
  induction xs with
  | nil => rfl
  | cons x xs ih =>
    rw [List.map_cons, Value.depthOfItems] at hdepth
    have hfirst := (h x List.mem_cons_self).ok depth (by omega)
    have hrest := ih (fun y hy => h y (List.mem_cons_of_mem x hy)) (by omega)
    simp only [List.map_cons, Raw.writtenItems, items, hfirst, hrest]
    rfl

/-- If one of the items nests deeper than `depth`, the list is not read. -/
theorem items_written_of_lt {dec : Decoder α} {write : α → Value} {back : α → α} {xs : List α}
    (h : ∀ x ∈ xs, Gives dec (write x) (back x)) {depth : Nat}
    (hdepth : depth < Value.depthOfItems (xs.map write)) :
    Fails (items dec depth (Raw.writtenItems (xs.map write))) := by
  induction xs with
  | nil => exact absurd hdepth (Nat.not_lt_zero _)
  | cons x xs ih =>
    have hx := h x List.mem_cons_self
    rw [List.map_cons, Value.depthOfItems] at hdepth
    simp only [List.map_cons, Raw.writtenItems, items]
    by_cases hfirst : depth < (write x).depth
    · exact (hx.deep depth hfirst).bind _
    · have hrest := ih (fun y hy => h y (List.mem_cons_of_mem x hy)) (by omega)
      rw [hx.ok depth (by omega)]
      exact hrest.bind _

/-- A list comes back as `back` makes of its items. -/
theorem gives_list {dec : Decoder α} {write : α → Value} {back : α → α} {xs : List α}
    (h : ∀ x ∈ xs, Gives dec (write x) (back x)) :
    Gives (list dec) (.array (xs.map write)) (xs.map back) where
  ok depth hdepth := by
    rw [Value.depth] at hdepth
    obtain ⟨depth, rfl⟩ : ∃ n, depth = n + 1 := ⟨depth - 1, by omega⟩
    have hitems : items dec depth (Raw.writtenItems (xs.map write)) = .ok (xs.map back) :=
      items_written h (by omega)
    simp only [Raw.written, list, hitems]
    rfl
  deep depth hdepth := by
    rw [Value.depth] at hdepth
    cases depth with
    | zero => exact ⟨_, rfl⟩
    | succ depth =>
      have hitems : Fails (items dec depth (Raw.writtenItems (xs.map write))) :=
        items_written_of_lt h (by omega)
      simp only [Raw.written, list]
      exact hitems.bind _

/-- A list comes back as it was if its items do. -/
theorem gives_list_self {dec : Decoder α} {write : α → Value} {xs : List α}
    (h : ∀ x ∈ xs, Gives dec (write x) x) : Gives (list dec) (.array (xs.map write)) xs := by
  have hlist : Gives (list dec) (.array (xs.map write)) (xs.map fun x => x) := gives_list h
  rwa [List.map_id'] at hlist

/-! ## Records -/

/-- A field takes the written value `v` by making `change r` of the record `r`, and fails if `v` nests too deep. -/
structure Takes (f : FieldOf ρ) (v : Value) (change : ρ → ρ) : Prop where
  ok : ∀ depth r, v.depth ≤ depth → f.read depth (.written v) r = .ok (change r)
  deep : ∀ depth r, depth < v.depth → Fails (f.read depth (.written v) r)

/-- A decoder that gives `a` makes a field that sets `a`. -/
theorem Gives.field {dec : Decoder α} {v : Value} {a : α} (h : Gives dec v a) (key : String)
    (set : α → ρ → ρ) : Takes (field key dec set) v (set a) where
  ok depth r hdepth := by
    show (dec _ _).map _ = _
    rw [h.ok _ hdepth]
    rfl
  deep depth r hdepth := by
    obtain ⟨e, he⟩ := h.deep _ hdepth
    refine ⟨e, ?_⟩
    show (dec _ _).map _ = _
    rw [he]
    rfl

/-- Members `ms` make one record of another: each sets a field that it names. -/
inductive Fills (fields : List (FieldOf ρ)) : ρ → List (String × Value) → ρ → Prop
  | nil {r} : Fills fields r [] r
  | cons {r k v f change ms a} (find : fields.find? (·.key = k) = some f) (takes : Takes f v change)
      (rest : Fills fields (change r) ms a) : Fills fields r ((k, v) :: ms) a

/-- A member that is left out changes nothing; one that is there changes the record as its field does. -/
theorem Fills.optional {fields : List (FieldOf ρ)} {key : String} {f : FieldOf ρ} {x : Option α}
    {write : α → Value} {change : α → ρ → ρ} {r a : ρ} {rest : List (String × Value)}
    (hfind : fields.find? (·.key = key) = some f) (htakes : ∀ b ∈ x, Takes f (write b) (change b))
    (hrest : Fills fields (match x with | some b => change b r | none => r) rest a) :
    Fills fields r (optionalMember key x write ++ rest) a := by
  cases x with
  | none => exact hrest
  | some b => exact .cons hfind (htakes b rfl) hrest

/-- Members with keys that differ are read one after the other, whatever keys of others are `seen` before. -/
theorem byKey_written {fields : List (FieldOf ρ)} {r a : ρ} {ms : List (String × Value)}
    (h : Fills fields r ms a) (hkeys : (ms.map Prod.fst).Nodup) {depth : Nat}
    (hdepth : Value.depthOfMembers ms ≤ depth) {seen : List String}
    (hseen : ∀ k ∈ ms.map Prod.fst, k ∉ seen) :
    byKey fields depth none seen (Raw.writtenMembers ms) r = .ok a := by
  induction h generalizing seen with
  | nil => rfl
  | @cons r k v f change ms a find takes _ ih =>
    rw [Value.depthOfMembers] at hdepth
    obtain ⟨hk, hkeys⟩ := List.nodup_cons.mp hkeys
    have hfirst := takes.ok depth r (by omega)
    have hrest : byKey fields depth none (k :: seen) (Raw.writtenMembers ms) (change r) = .ok a := by
      refine ih hkeys (by omega) ?_
      intro j hj hmem
      rcases List.mem_cons.mp hmem with rfl | hmem
      · exact hk hj
      · exact hseen j (List.mem_cons_of_mem _ hj) hmem
    have hnew : k ∉ seen := hseen k List.mem_cons_self
    simp only [Raw.writtenMembers, byKey, Quoted.toText_written, bind, Except.bind, find, if_neg hnew, hfirst]
    exact hrest

/-- If one of the members nests too deep, the record is not read. -/
theorem byKey_written_of_lt {fields : List (FieldOf ρ)} {r a : ρ} {ms : List (String × Value)}
    (h : Fills fields r ms a) {depth : Nat} (hdepth : depth < Value.depthOfMembers ms)
    (seen : List String) : Fails (byKey fields depth none seen (Raw.writtenMembers ms) r) := by
  induction h generalizing seen with
  | nil => exact absurd hdepth (Nat.not_lt_zero _)
  | @cons r k v f change ms a find takes _ ih =>
    rw [Value.depthOfMembers] at hdepth
    simp only [Raw.writtenMembers, byKey, Quoted.toText_written, bind, Except.bind, find]
    split
    · exact ⟨_, rfl⟩
    · by_cases hfirst : depth < v.depth
      · exact (takes.deep depth r hfirst).bind _
      · rw [takes.ok depth r (by omega)]
        exact ih (by omega) (k :: seen)

/-- A `record` comes back if each member sets a field. -/
theorem gives_record {fields : List (FieldOf ρ)} {start a : ρ} {ms : List (String × Value)}
    (h : Fills fields start ms a) (hkeys : (ms.map Prod.fst).Nodup) :
    Gives (record fields start) (.object ms) a where
  ok depth hdepth := by
    rw [Value.depth] at hdepth
    obtain ⟨depth, rfl⟩ : ∃ n, depth = n + 1 := ⟨depth - 1, by omega⟩
    exact byKey_written h hkeys (by omega) (by simp)
  deep depth hdepth := by
    rw [Value.depth] at hdepth
    cases depth with
    | zero => exact ⟨_, rfl⟩
    | succ depth => exact byKey_written_of_lt h (by omega) []

end PayloadAtlas.Json.Decoder
