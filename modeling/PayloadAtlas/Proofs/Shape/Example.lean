import Mathlib.Data.List.Infix
import PayloadAtlas.Proofs.Json.Members
import PayloadAtlas.Proofs.Text.LowerCase
import PayloadAtlas.Shape.Example

/-!
# What examples are made of

The example of a model has the names of its fields in the order in which they first occur, and for each the value
that the strategy makes of the last field of that name (`ExampleStrategy.keys_object`,
`ExampleStrategy.lookup_object`). Of the rules of the usual strategy (`ExampleRule`) the first one counts that fires
on an annotation (`ExampleStrategy.usual_eq_value`). What fires on an annotation fires on each longer one that it
stands in (`ExampleRule.Fires.append`), so that the rule for the longer one is the same or an earlier one.
-/

namespace PayloadAtlas

open Json (Value)

/-! ## Rules -/

/-- The rules of the strategy `usual`, the first ones first. -/
inductive ExampleRule where
  | numeric
  | boolean
  | sequence
  | mapping
  /-- Any annotation that is there. -/
  | text
  /-- No annotation. -/
  | nothing
  deriving DecidableEq, Repr

namespace ExampleRule

variable {r : ExampleRule} {s t : String}

/-- The place of a rule in `all`. -/
def rank : ExampleRule → Nat
  | .numeric => 0
  | .boolean => 1
  | .sequence => 2
  | .mapping => 3
  | .text => 4
  | .nothing => 5

/-- All rules in order. -/
def all : List ExampleRule := [.numeric, .boolean, .sequence, .mapping, .text, .nothing]

/-- The names of types that a rule looks for, in small letters. -/
def typeNames : ExampleRule → List String
  | .numeric => ["int", "float", "decimal"]
  | .boolean => ["bool"]
  | .sequence => ["list", "tuple"]
  | .mapping => ["dict", "mapping"]
  | .text | .nothing => []

/-- Whether the name of a type stands in an annotation, in whatever case. -/
def Within (name declaredType : String) : Prop := name.toList <:+: (Text.lowercase declaredType).toList

instance (name declaredType : String) : Decidable (Within name declaredType) :=
  inferInstanceAs (Decidable (_ <:+: _))

/-- A rule fires on an annotation that one of its `typeNames` stands in; `text` fires on all that are not empty, and
`nothing` on all. -/
def Fires (r : ExampleRule) (declaredType : String) : Prop :=
  (∃ name ∈ r.typeNames, Within name declaredType) ∨ (r = .text ∧ declaredType ≠ "") ∨ r = .nothing

instance (r : ExampleRule) (declaredType : String) : Decidable (Fires r declaredType) :=
  inferInstanceAs (Decidable (_ ∨ _))

/-- The rule that counts for an annotation: the first one that fires. -/
def ofText (declaredType : String) : ExampleRule := (all.find? (Fires · declaredType)).getD .nothing

/-- The value that a rule gives to a field; a text says its name. -/
def value (name : String) : ExampleRule → Value
  | .numeric => .ofNat 0
  | .boolean => .bool false
  | .sequence => .array []
  | .mapping => .object []
  | .text => .string ("example_" ++ name)
  | .nothing => .string "example"

theorem mem_all (r : ExampleRule) : r ∈ all := by cases r <;> decide

/-- No two rules give a field the same value. -/
theorem value_injective (name : String) : Function.Injective (value name) := by
  have hne : "example_" ++ name ≠ "example" := by
    intro h
    have hlength := congrArg String.length h
    rw [String.length_append] at hlength
    have hexample : "example_".length = 8 ∧ "example".length = 7 := by decide
    omega
  intro r r' h
  cases r <;> cases r' <;> simp_all [value, Value.ofNat, eq_comm]

/-! ## The first rule that fires -/

theorem fires_nothing (s : String) : Fires .nothing s := .inr (.inr rfl)

theorem fires_text_iff : Fires .text s ↔ s ≠ "" := by simp [Fires, typeNames]

theorem fires_numeric_iff : Fires .numeric s ↔ (Within "int" s ∨ Within "float" s) ∨ Within "decimal" s := by
  simp [Fires, typeNames, or_assoc]

theorem fires_boolean_iff : Fires .boolean s ↔ Within "bool" s := by simp [Fires, typeNames]

theorem fires_sequence_iff : Fires .sequence s ↔ Within "list" s ∨ Within "tuple" s := by simp [Fires, typeNames]

theorem fires_mapping_iff : Fires .mapping s ↔ Within "dict" s ∨ Within "mapping" s := by simp [Fires, typeNames]

/-- The rules are tried by `ofText` one after the other. -/
theorem ofText_eq (s : String) :
    ofText s = if Fires .numeric s then .numeric else if Fires .boolean s then .boolean
      else if Fires .sequence s then .sequence else if Fires .mapping s then .mapping
      else if Fires .text s then .text else .nothing := by
  unfold ofText all
  simp only [List.find?_cons]
  split_ifs <;> simp [*, fires_nothing]

theorem find?_all_eq (s : String) : all.find? (Fires · s) = some (ofText s) := by
  have hsome : (all.find? (Fires · s)).isSome = true := by
    rw [List.find?_isSome]
    exact ⟨.nothing, mem_all _, by simpa using fires_nothing s⟩
  obtain ⟨r, hr⟩ := Option.isSome_iff_exists.mp hsome
  rw [ofText, hr, Option.getD_some]

theorem fires_ofText (s : String) : Fires (ofText s) s := by
  simpa using List.find?_some (find?_all_eq s)

/-- No rule that fires comes before the one that counts, by `rank`. -/
theorem rank_ofText_le (h : Fires r s) : (ofText s).rank ≤ r.rank := by
  obtain ⟨-, before, after, hall, hbefore⟩ := List.find?_eq_some_iff_append.mp (find?_all_eq s)
  have hsorted : all.Pairwise fun r r' => r.rank ≤ r'.rank := by decide
  rw [hall, List.pairwise_append, List.pairwise_cons] at hsorted
  have hmem : r ∈ before ++ ofText s :: after := hall ▸ mem_all r
  rw [List.mem_append, List.mem_cons] at hmem
  rcases hmem with hmem | rfl | hmem
  · exact absurd h (by simpa using hbefore r hmem)
  · exact le_refl _
  · exact hsorted.2.1.1 r hmem

/-- Only an empty annotation means nothing. -/
theorem ofText_eq_nothing_iff : ofText s = .nothing ↔ s = "" := by
  constructor
  · intro h
    by_contra hne
    have hrank := rank_ofText_le (fires_text_iff.mpr hne)
    rw [h] at hrank
    exact absurd hrank (by decide)
  · rintro rfl
    decide

/-! ## Letters, and what stands around -/

/-- A rule fires on letters in whatever case. -/
theorem fires_congr (h : Text.SameLetters s t) : Fires r s ↔ Fires r t := by
  have hempty : s = "" ↔ t = "" := by
    rw [← String.toList_eq_nil_iff, ← String.toList_eq_nil_iff, ← List.length_eq_zero_iff, h.length_eq,
      List.length_eq_zero_iff]
  simp only [Fires, Within]
  rw [Text.lowercase_congr h, Ne, Ne, hempty]

theorem ofText_congr (h : Text.SameLetters s t) : ofText s = ofText t := by
  have hfires : (fun r => decide (Fires r s)) = fun r => decide (Fires r t) := by
    funext r
    exact decide_eq_decide.mpr (fires_congr h)
  rw [ofText, ofText, hfires]

/-- The names of types have no sigma in them, which has two small letters. -/
theorem sigma_notMem_typeNames :
    ∀ r : ExampleRule, ∀ name ∈ r.typeNames, 'σ' ∉ name.toList ∧ 'ς' ∉ name.toList := by
  intro r
  cases r <;> decide

/-- What fires on a text `t` fires on each text around it. -/
theorem Fires.append (h : Fires r t) (a b : String) : Fires r (a ++ t ++ b) := by
  rcases h with ⟨name, hname, hpart⟩ | ⟨rfl, hne⟩ | rfl
  · obtain ⟨hsigma, hfinal⟩ := sigma_notMem_typeNames r name hname
    refine .inl ⟨name, hname, ?_⟩
    rw [Within, Text.lowercase, String.toList_ofList] at hpart ⊢
    rw [String.toList_append, String.toList_append]
    exact Text.infix_lowerAll_append hsigma hfinal hpart _ _
  · exact fires_text_iff.mpr (by simp [hne])
  · exact fires_nothing _

/-- The rule that counts for a text around another comes no later, by `rank`. -/
theorem rank_ofText_append_le (a t b : String) : (ofText (a ++ t ++ b)).rank ≤ (ofText t).rank :=
  rank_ofText_le ((fires_ofText t).append a b)

end ExampleRule

/-! ## Strategies -/

namespace ExampleStrategy

open ExampleRule

/-- The usual strategy gives the value of the rule that counts, `ofText`. -/
theorem usual_eq_value (name declaredType : String) : usual name declaredType = (ofText declaredType).value name := by
  have hwithin (typeName : String) : Text.hasPart typeName.toList (Text.lowercase declaredType).toList = true ↔
      Within typeName declaredType := Text.hasPart_iff
  have htext : Text.lowercase declaredType = "" ↔ ¬Fires .text declaredType := by
    rw [Text.lowercase_eq_empty_iff, fires_text_iff, not_not]
  rw [ofText_eq]
  unfold usual
  simp only [Bool.or_eq_true, hwithin, htext, ← fires_numeric_iff, ← fires_boolean_iff, ← fires_sequence_iff,
    ← fires_mapping_iff]
  split_ifs <;> rfl

/-- The keys of an `object` are the names of the fields, each where it occurs first. -/
theorem keys_object (strategy : ExampleStrategy) (fields : List Field) :
    (strategy.object fields).map Prod.fst = (fields.map Field.name).eraseDups := by
  rw [object, Value.keys_membersOf, List.map_map]
  rfl

/-- Under each name an `object` has the value of the last field of that name. -/
theorem lookup_object (strategy : ExampleStrategy) (fields : List Field) (name : String) :
    (strategy.object fields).lookup name =
      (fields.findRev? (·.name = name)).map fun f => strategy name f.typeText := by
  rw [object, Value.lookup_membersOf, List.findRev?_eq_find?_reverse, List.findRev?_eq_find?_reverse,
    ← List.map_reverse, List.find?_map, Option.map_map]
  show (fields.reverse.find? (·.name = name)).map (fun f => strategy f.name f.typeText) = _
  apply Option.map_congr
  intro f hf
  have hname : f.name = name := by simpa using List.find?_some hf
  rw [hname]

/-- The example of a model has the distinct names of its fields, in the order in which they first occur, and for each
the value of the last field of that name. The usual strategy gives the value of the first rule that fires on the
annotation, which tells the rule; the case of ASCII letters does not matter to it, and for a longer annotation that
has another one in it it is the same rule or an earlier one. The last rule is for no annotation. -/
theorem object_lookup_last_and_ofText_rank_le :
    (∀ (strategy : ExampleStrategy) (fields : List Field),
      (strategy.object fields).map Prod.fst = (fields.map Field.name).eraseDups ∧
      ∀ name, (strategy.object fields).lookup name =
        (fields.findRev? (·.name = name)).map fun f => strategy name f.typeText) ∧
    (∀ name declaredType, usual name declaredType = (ofText declaredType).value name) ∧
    (∀ name, Function.Injective (ExampleRule.value name)) ∧
    (∀ s t, Text.SameLetters s t → ofText s = ofText t) ∧
    (∀ a t b, (ofText (a ++ t ++ b)).rank ≤ (ofText t).rank) ∧
    ∀ t, ofText t = .nothing ↔ t = "" := by
  refine ⟨fun strategy fields => ⟨keys_object strategy fields, lookup_object strategy fields⟩, usual_eq_value,
    value_injective, ?_, rank_ofText_append_le, ?_⟩
  · intro s t h
    exact ofText_congr h
  · intro t
    exact ofText_eq_nothing_iff

theorem ofText_listed :
    Text.SameLetters "List[str]" "LIST[STR]" ∧ ofText "List[str]" = ofText "LIST[STR]" := by
  have hletters : Text.SameLetters "List[str]" "LIST[STR]" := by simp [Text.SameLetters]
  obtain ⟨-, -, -, hcase, -⟩ := object_lookup_last_and_ofText_rank_le
  exact ⟨hletters, hcase _ _ hletters⟩

end ExampleStrategy

end PayloadAtlas
