import Mathlib.Data.Finset.Dedup
import PayloadAtlas.Proofs.Shape.Identity

/-!
# What a signature says

The tokens of a signature are made of names, annotations and types with a colon or a dot between two parts, and
both may stand in annotations and types as well. Where neither stands in the name of a parameter, and no colon in
the name of a field, a token still tells what it was made of: up to the first of the two it is the name of the
parameter, and which of the two comes first tells whether it is about the parameter itself or about a field. So
signatures are equal if and only if parameters and fields are the same (`Shape.signature_eq_iff_same`).
-/

namespace PayloadAtlas

/-! ## Tokens -/

namespace HandlerParameter

/-- What a parameter is: its annotation, or else its model, if that has a name. -/
def kind (p : HandlerParameter) : String :=
  if p.declaredType ≠ "" then p.declaredType else (p.model.filter (· ≠ "")).getD "any"

/-- The token for a parameter of a `kind`. -/
def kindToken (name kind : String) : String := name ++ ":" ++ kind

/-- The token for a `field` of a `type`. -/
def fieldToken (name field type : String) : String := name ++ "." ++ field ++ ":" ++ type

/-- Neither `.` nor `:` is in the name of a parameter. -/
def IsPlainName (name : String) : Prop := '.' ∉ name.toList ∧ ':' ∉ name.toList

instance (name : String) : Decidable (IsPlainName name) := inferInstanceAs (Decidable (_ ∧ _))

variable {name name' kind kind' field field' type type' : String}

/-- The `token` of a parameter is that of its name and its kind. -/
theorem token_eq_kindToken (p : HandlerParameter) : p.token = kindToken p.name p.kind := by
  unfold token kindToken HandlerParameter.kind
  by_cases hdeclared : p.declaredType = ""
  · cases hmodel : p.model with
    | none => simp [hdeclared]
    | some m => by_cases hm : m = "" <;> simp [hdeclared, hm, Option.filter_some]
  · simp [hdeclared]

theorem toList_kindToken (name kind : String) :
    (kindToken name kind).toList = name.toList ++ ':' :: kind.toList := by
  simp [kindToken]

theorem toList_fieldToken (name field type : String) :
    (fieldToken name field type).toList = name.toList ++ '.' :: (field.toList ++ ':' :: type.toList) := by
  simp [fieldToken]

/-- The token for a parameter tells its name and its kind, as no name has a colon. -/
theorem kindToken_inj (h : ':' ∉ name.toList) (h' : ':' ∉ name'.toList)
    (heq : kindToken name kind = kindToken name' kind') : name = name' ∧ kind = kind' := by
  have hlist := congrArg String.toList heq
  rw [toList_kindToken, toList_kindToken] at hlist
  obtain ⟨hname, hkind⟩ := Shape.append_cons_inj h h' hlist
  exact ⟨String.toList_inj.mp hname, String.toList_inj.mp hkind⟩

/-- The token for a field tells the name of the parameter, that of the field, and the type. -/
theorem fieldToken_inj (h : '.' ∉ name.toList) (h' : '.' ∉ name'.toList) (hfield : ':' ∉ field.toList)
    (hfield' : ':' ∉ field'.toList) (heq : fieldToken name field type = fieldToken name' field' type') :
    name = name' ∧ field = field' ∧ type = type' := by
  have hlist := congrArg String.toList heq
  rw [toList_fieldToken, toList_fieldToken] at hlist
  obtain ⟨hname, hrest⟩ := Shape.append_cons_inj h h' hlist
  obtain ⟨hfields, htypes⟩ := Shape.append_cons_inj hfield hfield' hrest
  exact ⟨String.toList_inj.mp hname, String.toList_inj.mp hfields, String.toList_inj.mp htypes⟩

/-- Of two separators that are in neither of two texts only one can come first. -/
theorem append_cons_ne {α : Type} {sep sep' : α} {a b x y : List α} (hne : sep ≠ sep') (ha : sep' ∉ a)
    (hb : sep ∉ b) : a ++ sep :: x ≠ b ++ sep' :: y := by
  intro h
  -- the first of the separators would be in the text before the other
  induction a generalizing b with
  | nil =>
    cases b with
    | nil => exact hne (List.cons.inj h).1
    | cons d b =>
      have hd : sep = d := (List.cons.inj h).1
      exact hb (List.mem_cons.mpr (.inl hd))
  | cons c a ih =>
    cases b with
    | nil =>
      have hc : c = sep' := (List.cons.inj h).1
      exact ha (List.mem_cons.mpr (.inl hc.symm))
    | cons d b =>
      have ha' : sep' ∉ a := fun hm => ha (List.mem_cons_of_mem c hm)
      have hb' : sep ∉ b := fun hm => hb (List.mem_cons_of_mem d hm)
      exact ih ha' hb' (List.cons.inj h).2

/-- No token is both for a parameter and for a field. -/
theorem kindToken_ne_fieldToken (h : '.' ∉ name.toList) (h' : ':' ∉ name'.toList) :
    kindToken name kind ≠ fieldToken name' field type := by
  intro heq
  have hlist := congrArg String.toList heq
  rw [toList_kindToken, toList_fieldToken] at hlist
  exact append_cons_ne (by decide) h h' hlist

end HandlerParameter

/-! ## Signatures -/

namespace Shape

open HandlerParameter

variable {s t : Shape}

/-- The parameters with what each is, as a set. -/
def kinds (s : Shape) : Finset (String × String) := (s.parameters.map fun p => (p.name, p.kind)).toFinset

/-- The fields of the parameters' models with their types, as a set. -/
def fieldTypes (s : Shape) : Finset (String × String × String) :=
  (s.parameters.flatMap fun p => (p.modelFields.getD []).map fun f => (p.name, f.name, f.typeText)).toFinset

/-- Neither `.` nor `:` is in the name of a parameter, and no `:` in that of a field. -/
structure HasPlainNames (s : Shape) : Prop where
  parameters : ∀ p ∈ s.parameters, IsPlainName p.name
  fields : ∀ p ∈ s.parameters, ∀ f ∈ p.modelFields.getD [], ':' ∉ f.name.toList

instance (s : Shape) : Decidable s.HasPlainNames :=
  decidable_of_iff (_ ∧ _) ⟨fun h => ⟨h.1, h.2⟩, fun h => ⟨h.parameters, h.fields⟩⟩

theorem mem_kinds {x : String × String} : x ∈ s.kinds ↔ ∃ p ∈ s.parameters, (p.name, p.kind) = x := by
  simp only [kinds, List.mem_toFinset, List.mem_map]

theorem mem_fieldTypes {x : String × String × String} :
    x ∈ s.fieldTypes ↔ ∃ p ∈ s.parameters, ∃ f ∈ p.modelFields.getD [], (p.name, f.name, f.typeText) = x := by
  simp only [fieldTypes, List.mem_toFinset, List.mem_flatMap, List.mem_map]

/-- A signature has a token for each of `kinds` and for each of `fieldTypes`. -/
theorem mem_signature_iff {token : String} :
    token ∈ s.signature ↔
      (∃ x ∈ s.kinds, kindToken x.1 x.2 = token) ∨ ∃ x ∈ s.fieldTypes, fieldToken x.1 x.2.1 x.2.2 = token := by
  have hkinds : (∃ p ∈ s.parameters, p.token = token) ↔ ∃ x ∈ s.kinds, kindToken x.1 x.2 = token := by
    constructor
    · rintro ⟨p, hp, rfl⟩
      exact ⟨_, mem_kinds.mpr ⟨p, hp, rfl⟩, (token_eq_kindToken p).symm⟩
    · rintro ⟨x, hx, rfl⟩
      obtain ⟨p, hp, rfl⟩ := mem_kinds.mp hx
      exact ⟨p, hp, token_eq_kindToken p⟩
  have hfields : (∃ p ∈ s.parameters, token ∈ p.fieldTokens) ↔
      ∃ x ∈ s.fieldTypes, fieldToken x.1 x.2.1 x.2.2 = token := by
    constructor
    · rintro ⟨p, hp, htoken⟩
      obtain ⟨f, hf, rfl⟩ := List.mem_map.mp htoken
      exact ⟨_, mem_fieldTypes.mpr ⟨p, hp, f, hf, rfl⟩, rfl⟩
    · rintro ⟨x, hx, rfl⟩
      obtain ⟨p, hp, f, hf, rfl⟩ := mem_fieldTypes.mp hx
      exact ⟨p, hp, List.mem_map.mpr ⟨f, hf, rfl⟩⟩
  rw [mem_signature, hkinds, hfields]

section Plain

variable {name kind field type : String}

theorem HasPlainNames.name_of_mem_kinds (h : s.HasPlainNames) {x : String × String} (hx : x ∈ s.kinds) :
    IsPlainName x.1 := by
  obtain ⟨p, hp, rfl⟩ := mem_kinds.mp hx
  exact h.parameters p hp

theorem HasPlainNames.names_of_mem_fieldTypes (h : s.HasPlainNames) {x : String × String × String}
    (hx : x ∈ s.fieldTypes) : IsPlainName x.1 ∧ ':' ∉ x.2.1.toList := by
  obtain ⟨p, hp, f, hf, rfl⟩ := mem_fieldTypes.mp hx
  exact ⟨h.parameters p hp, h.fields p hp f hf⟩

/-- A signature tells which parameters there are, as no token for a field is one for a parameter. -/
theorem kindToken_mem_signature_iff (h : s.HasPlainNames) (hname : IsPlainName name) :
    kindToken name kind ∈ s.signature ↔ (name, kind) ∈ s.kinds := by
  rw [mem_signature_iff]
  constructor
  · rintro (⟨x, hx, heq⟩ | ⟨x, hx, heq⟩)
    · obtain ⟨rfl, rfl⟩ := kindToken_inj (h.name_of_mem_kinds hx).2 hname.2 heq
      exact hx
    · exact absurd heq.symm (kindToken_ne_fieldToken hname.1 (h.names_of_mem_fieldTypes hx).1.2)
  · intro hmem
    exact .inl ⟨_, hmem, rfl⟩

/-- A signature tells which fields there are. -/
theorem fieldToken_mem_signature_iff (h : s.HasPlainNames) (hname : IsPlainName name) (hfield : ':' ∉ field.toList) :
    fieldToken name field type ∈ s.signature ↔ (name, field, type) ∈ s.fieldTypes := by
  rw [mem_signature_iff]
  constructor
  · rintro (⟨x, hx, heq⟩ | ⟨x, hx, heq⟩)
    · exact absurd heq (kindToken_ne_fieldToken (h.name_of_mem_kinds hx).1 hname.2)
    · obtain ⟨hplain, hcolon⟩ := h.names_of_mem_fieldTypes hx
      obtain ⟨rfl, rfl, rfl⟩ := fieldToken_inj hplain.1 hname.1 hcolon hfield heq
      exact hx
  · intro hmem
    exact .inr ⟨_, hmem, rfl⟩

theorem kinds_subset_of_signature_eq (hs : s.HasPlainNames) (ht : t.HasPlainNames) (h : s.signature = t.signature) :
    s.kinds ⊆ t.kinds := by
  intro x hx
  have hname := hs.name_of_mem_kinds hx
  have hmem := (kindToken_mem_signature_iff hs hname).mpr hx
  rw [h] at hmem
  exact (kindToken_mem_signature_iff ht hname).mp hmem

theorem fieldTypes_subset_of_signature_eq (hs : s.HasPlainNames) (ht : t.HasPlainNames)
    (h : s.signature = t.signature) : s.fieldTypes ⊆ t.fieldTypes := by
  intro x hx
  obtain ⟨hname, hfield⟩ := hs.names_of_mem_fieldTypes hx
  have hmem := (fieldToken_mem_signature_iff hs hname hfield).mpr hx
  rw [h] at hmem
  exact (fieldToken_mem_signature_iff ht hname hfield).mp hmem

end Plain

/-- Two shapes with plain names have the same signature if and only if they have the same parameters, of the same
kinds, and the same fields, of the same types; and no token of theirs is both for a parameter and for a field. -/
theorem signature_eq_iff_same (hs : s.HasPlainNames) (ht : t.HasPlainNames) :
    (s.signature = t.signature ↔ s.kinds = t.kinds ∧ s.fieldTypes = t.fieldTypes) ∧
      ∀ p ∈ s.parameters ++ t.parameters, ∀ q ∈ s.parameters ++ t.parameters, p.token ∉ q.fieldTokens := by
  refine ⟨⟨fun h => ⟨?_, ?_⟩, ?_⟩, ?_⟩
  · exact (kinds_subset_of_signature_eq hs ht h).antisymm (kinds_subset_of_signature_eq ht hs h.symm)
  · exact (fieldTypes_subset_of_signature_eq hs ht h).antisymm (fieldTypes_subset_of_signature_eq ht hs h.symm)
  · rintro ⟨hkinds, hfields⟩
    apply signature_eq_iff.mpr
    intro token
    rw [mem_signature_iff, mem_signature_iff, hkinds, hfields]
  · have hplain : ∀ p ∈ s.parameters ++ t.parameters, IsPlainName p.name :=
      List.forall_mem_append.mpr ⟨hs.parameters, ht.parameters⟩
    intro p hp q hq htoken
    obtain ⟨f, -, heq⟩ := List.mem_map.mp htoken
    rw [token_eq_kindToken] at heq
    exact kindToken_ne_fieldToken (hplain p hp).1 (hplain q hq).2 heq.symm

/-- A colon in the name of a parameter can be taken for the one behind the name. -/
example :
    ({ parameters := [{ name := "a:b", declaredType := "c" }] } : Shape).signature =
      ({ parameters := [{ name := "a", declaredType := "b:c" }] } : Shape).signature := by
  decide +kernel

/-- Separators in annotations, types and the names of fields, and parameters that are given twice. -/
theorem signature_eq_iff_same_update :
    let note : List Field := [{ name := "title", typeText := "a.b:c" }, { name := "meta.tags", typeText := "" }]
    let s : Shape :=
      { parameters := [{ name := "id", declaredType := "x.y:int" }, { name := "body", modelFields := some note },
          { name := "id", declaredType := "x.y:int" }] }
    let t : Shape :=
      { parameters := [{ name := "body", model := some "any", modelFields := some note.reverse },
          { name := "id", declaredType := "x.y:int" }] }
    s.HasPlainNames ∧ t.HasPlainNames ∧ s.signature = t.signature := by
  intro note s t
  have hs : s.HasPlainNames := by decide
  have ht : t.HasPlainNames := by decide
  obtain ⟨hiff, -⟩ := signature_eq_iff_same hs ht
  exact ⟨hs, ht, hiff.mpr ⟨by decide, by decide⟩⟩

end Shape

end PayloadAtlas
