import Mathlib.Data.List.Forall2
import Mathlib.Data.Option.Basic
import Mathlib.Data.String.Basic
import PayloadAtlas.Proofs.Json.Members
import PayloadAtlas.Proofs.Python.Extraction
import PayloadAtlas.Proofs.Text.Case
import PayloadAtlas.Shape.Build

/-!
# What shapes say of handlers

There is one shape for each decorator that declares a route, in the order of files, functions and decorators,
and each shape says what its decorator and its function say (`Shape.forall₂_shapes`). Of the parameters it
leaves out the receivers; each of the others has a model, with its fields and an example, just if its
annotation is resolved (`HandlerParameter.Resolves`). The example of the shape has the examples of those
parameters whose models have fields (`Shape.Exemplifies`).
-/

namespace PayloadAtlas

open Json (Value)
open Python (FunctionDefinition RouteDecorator)

/-! ## Declarations -/

/-- A decorator, with the function that it is written on and the file. -/
structure Declaration where
  file : SourceFile
  function : FunctionDefinition
  decorator : RouteDecorator

namespace Declaration

/-- The decorators of some files, file by file, function by function and top to bottom. -/
def ofFiles (files : List SourceFile) : List Declaration :=
  files.flatMap fun file => file.contents.functions.flatMap fun f => f.decorators.map fun d => ⟨file, f, d⟩

/-- A decorator declares a route: its attribute is one of `methods`, and its path is a text that is not empty. -/
structure IsRoute (methods : List String) (d : Declaration) : Prop where
  method : ∃ m ∈ methods, Text.SameLetters m d.decorator.callee
  path : ∃ path ∈ d.decorator.path, path ≠ ""

instance (methods : List String) (d : Declaration) : Decidable (d.IsRoute methods) :=
  decidable_of_iff (_ ∧ _) ⟨fun h => ⟨h.1, h.2⟩, fun h => ⟨h.method, h.path⟩⟩

variable {methods : List String} {d : Declaration}

/-- A method is looked for without regard to the case of its letters. -/
theorem any_methods_iff :
    methods.any (fun m => m.map Char.toLower = d.decorator.callee.map Char.toLower) = true ↔
      ∃ m ∈ methods, Text.SameLetters m d.decorator.callee := by
  simp only [List.any_eq_true, decide_eq_true_eq, Text.map_toLower_eq_iff]

/-- A decorator with `IsRoute` gives its method in capitals, and its path. -/
theorem route?_of_isRoute (h : d.IsRoute methods) :
    ∃ path, d.decorator.path = some path ∧
      d.decorator.route? methods = some (d.decorator.callee.map Char.toUpper, path) := by
  obtain ⟨path, hpath, hne⟩ := h.path
  have hpath : d.decorator.path = some path := hpath
  refine ⟨path, hpath, ?_⟩
  simp [RouteDecorator.route?, any_methods_iff.mpr h.method, hpath, hne]

/-- Any other decorator has no `route?`. -/
theorem route?_of_not_isRoute (h : ¬d.IsRoute methods) : d.decorator.route? methods = none := by
  rw [RouteDecorator.route?]
  by_cases hmethod : ∃ m ∈ methods, Text.SameLetters m d.decorator.callee
  · rw [any_methods_iff.mpr hmethod]
    cases hpath : d.decorator.path with
    | none => rfl
    | some path =>
      have hempty : path = "" := by
        by_contra hne
        exact h ⟨hmethod, path, hpath, hne⟩
      simp [hempty]
  · rw [Bool.eq_false_iff.mpr fun hany => hmethod (any_methods_iff.mp hany)]
    rfl

end Declaration

/-! ## Parameters -/

namespace HandlerParameter

/-- A parameter is said to have the model that its annotation is resolved to in a module, or none. -/
structure Resolves (c : Shape.Context) (module : String) (p : Python.Parameter) (q : HandlerParameter) : Prop where
  name : q.name = p.name
  declaredType : q.declaredType = p.declaredType
  resolved : ∀ m, c.registry.resolve module p.declaredType = some m →
    q.model = some m.name ∧ q.modelFields = some m.fields ∧ q.example? = some (c.strategy.object m.fields)
  unresolved : c.registry.resolve module p.declaredType = none →
    q.model = none ∧ q.modelFields = none ∧ q.example? = none

/-- Whether a parameter has a model with a field. -/
def HasFields (q : HandlerParameter) : Prop := ∃ fields ∈ q.modelFields, fields ≠ []

end HandlerParameter

namespace Shape

open HandlerParameter

/-- What the example of a shape says of its parameters: it is there if one of them has a model with a field, and
gives the example of each that has, under its name. Of two with one name the later counts. -/
structure Exemplifies (ps : List HandlerParameter) (example? : Option Members) : Prop where
  isSome : example?.isSome ↔ ∃ p ∈ ps, p.HasFields
  nodup : ∀ ms ∈ example?, (ms.map Prod.fst).Nodup
  keys : ∀ ms ∈ example?, ∀ k, k ∈ ms.map Prod.fst ↔ ∃ p ∈ ps, p.HasFields ∧ p.name = k
  lookup : ∀ before p after, ps = before ++ p :: after → p.HasFields →
    (∀ q ∈ after, q.HasFields → q.name ≠ p.name) →
    ∃ ms ∈ example?, ∃ x ∈ p.example?, ms.lookup p.name = some (.object x)

/-- What a shape says of the decorator that declares its route. -/
structure Describes (c : Context) (d : Declaration) (s : Shape) : Prop where
  method : s.method = d.decorator.callee.map Char.toUpper
  path : d.decorator.path = some s.path
  function : s.function = d.function.name
  module : s.module = d.file.module
  sourcePath : s.sourcePath = d.file.path
  parameters : List.Forall₂ (Resolves c d.file.module)
    (d.function.parameters.filter fun p => p.name ≠ "self" ∧ p.name ≠ "cls") s.parameters
  score : s.score = min 10 (1 + s.parameters.length)
  example? : Exemplifies s.parameters s.example?

variable {c : Context} {d : Declaration}

/-- What a shape says of a parameter is what its annotation resolves to, by `resolve`. -/
theorem resolves_parameter (c : Context) (module : String) (p : Python.Parameter) :
    Resolves c module p (c.parameter module p) := by
  unfold Context.parameter
  cases hm : c.registry.resolve module p.declaredType with
  | none => exact ⟨rfl, rfl, fun m h => by simp [hm] at h, fun _ => ⟨rfl, rfl, rfl⟩⟩
  | some m =>
    refine ⟨rfl, rfl, fun m' h => ?_, fun h => by simp [hm] at h⟩
    rw [hm] at h
    cases h
    exact ⟨rfl, rfl, rfl⟩

/-- The example of a model, by `object`, is empty if there are no fields. -/
theorem object_eq_nil_iff {strategy : ExampleStrategy} {fields : List Field} :
    strategy.object fields = [] ↔ fields = [] := by
  rw [ExampleStrategy.object, Value.membersOf_eq_nil_iff, List.map_eq_nil_iff]

/-! ## Examples -/

/-- What a parameter adds to the example of its shape. -/
def exampleOf? (p : HandlerParameter) : Option (String × Value) :=
  match p.example? with
  | some (m :: ms) => some (p.name, .object (m :: ms))
  | _ => none

theorem examples_eq_membersOf (ps : List HandlerParameter) :
    examples ps = Value.membersOf (ps.filterMap exampleOf?) := rfl

/-- A parameter whose model has a field adds its example. -/
theorem exampleOf?_of_hasFields {module : String} {p : Python.Parameter} {q : HandlerParameter}
    (h : Resolves c module p q) (hq : q.HasFields) :
    ∃ x ∈ q.example?, exampleOf? q = some (q.name, .object x) := by
  obtain ⟨fields, hfields, hne⟩ := hq
  cases hm : c.registry.resolve module p.declaredType with
  | none =>
    rw [(h.unresolved hm).2.1] at hfields
    cases hfields
  | some m =>
    obtain ⟨-, hown, hexample⟩ := h.resolved m hm
    rw [hown] at hfields
    cases hfields
    refine ⟨_, hexample, ?_⟩
    cases hobject : c.strategy.object m.fields with
    | nil => exact absurd (object_eq_nil_iff.mp hobject) hne
    | cons x xs => simp [exampleOf?, hexample, hobject]

/-- Any other parameter adds nothing. -/
theorem exampleOf?_of_not_hasFields {module : String} {p : Python.Parameter} {q : HandlerParameter}
    (h : Resolves c module p q) (hq : ¬q.HasFields) : exampleOf? q = none := by
  cases hm : c.registry.resolve module p.declaredType with
  | none => simp [exampleOf?, (h.unresolved hm).2.2]
  | some m =>
    obtain ⟨-, hown, hexample⟩ := h.resolved m hm
    have hnil : m.fields = [] := by
      by_contra hne
      exact hq ⟨m.fields, hown, hne⟩
    simp [exampleOf?, hexample, object_eq_nil_iff.mpr hnil]

section Examples

variable {module : String} {qs : List HandlerParameter} (h : ∀ q ∈ qs, ∃ p, Resolves c module p q)
include h

theorem exampleOf?_of_mem {q : HandlerParameter} (hq : q ∈ qs) (hfields : q.HasFields) :
    ∃ x ∈ q.example?, exampleOf? q = some (q.name, .object x) := by
  obtain ⟨p, hp⟩ := h q hq
  exact exampleOf?_of_hasFields hp hfields

/-- What is given as an example belongs to a parameter whose model has fields, and has its name. -/
theorem hasFields_of_exampleOf? {q : HandlerParameter} (hq : q ∈ qs) {m : String × Value}
    (hm : exampleOf? q = some m) : q.HasFields ∧ q.name = m.1 := by
  by_cases hfields : q.HasFields
  · obtain ⟨x, -, hx⟩ := exampleOf?_of_mem h hq hfields
    rw [hx, Option.some.injEq] at hm
    exact ⟨hfields, by rw [← hm]⟩
  · obtain ⟨p, hp⟩ := h q hq
    rw [exampleOf?_of_not_hasFields hp hfields] at hm
    cases hm

/-- The keys are the names of the parameters that have a model with a field. -/
theorem mem_keys_examples {k : String} :
    k ∈ (examples qs).map Prod.fst ↔ ∃ q ∈ qs, q.HasFields ∧ q.name = k := by
  rw [examples_eq_membersOf, Value.mem_keys_membersOf]
  constructor
  · intro hk
    obtain ⟨m, hm, rfl⟩ := List.mem_map.mp hk
    obtain ⟨q, hq, hqm⟩ := List.mem_filterMap.mp hm
    exact ⟨q, hq, hasFields_of_exampleOf? h hq hqm⟩
  · rintro ⟨q, hq, hfields, rfl⟩
    obtain ⟨x, -, hx⟩ := exampleOf?_of_mem h hq hfields
    exact List.mem_map.mpr ⟨_, List.mem_filterMap.mpr ⟨q, hq, hx⟩, rfl⟩

/-- There is something in the example if one of the parameters has a model with a field. -/
theorem examples_ne_nil_iff : examples qs ≠ [] ↔ ∃ q ∈ qs, q.HasFields := by
  constructor
  · intro hne
    obtain ⟨m, hm⟩ := List.exists_mem_of_ne_nil _ hne
    obtain ⟨q, hq, hfields, -⟩ := (mem_keys_examples h).mp (List.mem_map_of_mem hm)
    exact ⟨q, hq, hfields⟩
  · rintro ⟨q, hq, hfields⟩
    obtain ⟨m, hm, -⟩ := List.mem_map.mp ((mem_keys_examples h).mpr ⟨q, hq, hfields, rfl⟩)
    exact List.ne_nil_of_mem hm

/-- The last parameter `p` of a name that has an example has it under that name. -/
theorem lookup_examples {before after : List HandlerParameter} {p : HandlerParameter}
    (hqs : qs = before ++ p :: after) (hfields : p.HasFields)
    (hlast : ∀ q ∈ after, q.HasFields → q.name ≠ p.name) :
    ∃ x ∈ p.example?, (examples qs).lookup p.name = some (.object x) := by
  obtain ⟨x, hx, hgiven⟩ := exampleOf?_of_mem h (by simp [hqs]) hfields
  have hafter : (after.filterMap exampleOf?).reverse.find? (·.1 = p.name) = none := by
    rw [List.find?_eq_none]
    intro m hm hname
    obtain ⟨q, hq, hqm⟩ := List.mem_filterMap.mp (List.mem_reverse.mp hm)
    obtain ⟨hqfields, hqname⟩ := hasFields_of_exampleOf? h (by simp [hqs, hq]) hqm
    exact hlast q hq hqfields (hqname.trans (of_decide_eq_true hname))
  refine ⟨x, hx, ?_⟩
  rw [examples_eq_membersOf, Value.lookup_membersOf, List.findRev?_eq_find?_reverse, hqs, List.filterMap_append,
    List.filterMap_cons_some hgiven, List.reverse_append, List.reverse_cons, List.append_assoc,
    List.find?_append, hafter]
  simp

/-- The example of a shape is there as `Exemplifies` says. -/
theorem exemplifies_examples :
    Exemplifies qs (if (examples qs).isEmpty then none else some (examples qs)) := by
  -- without any member the example is left out
  by_cases hempty : examples qs = []
  · have hnone : ∀ q ∈ qs, ¬q.HasFields := fun q hq hfields =>
      (examples_ne_nil_iff h).mpr ⟨q, hq, hfields⟩ hempty
    rw [hempty, List.isEmpty_nil, if_pos rfl]
    refine ⟨by simpa using hnone, by simp, by simp, fun before p after hqs hfields _ => ?_⟩
    exact absurd hfields (hnone p (by simp [hqs]))
  · rw [if_neg (mt List.isEmpty_iff.mp hempty)]
    refine ⟨by simpa using (examples_ne_nil_iff h).mp hempty, ?_, ?_, fun before p after hqs hfields hlast => ?_⟩
    · rintro _ ⟨⟩
      exact Value.nodup_membersOf _
    · rintro _ ⟨⟩ k
      exact mem_keys_examples h
    · obtain ⟨x, hx, hlookup⟩ := lookup_examples h hqs hfields hlast
      exact ⟨examples qs, rfl, x, hx, hlookup⟩

end Examples

/-! ## Shapes -/

/-- The shape of the route that a decorator declares, if it declares one. -/
def Context.shapeOf? (c : Context) (d : Declaration) : Option Shape :=
  (d.decorator.route? c.methods).map (c.shape d.file d.function)

/-- The shapes of `shapes` are those of the declarations, one after the other. -/
theorem shapes_eq (c : Context) (files : List SourceFile) :
    c.shapes files = (Declaration.ofFiles files).filterMap c.shapeOf? := by
  simp only [Context.shapes, Declaration.ofFiles, List.filterMap_flatMap, List.filterMap_map,
    FunctionDefinition.routes, List.map_filterMap]
  rfl

/-- The shape of a decorator with a path says what is declared, as `Describes` asks. -/
theorem describes_shape (c : Context) (d : Declaration) {path : String} (hpath : d.decorator.path = some path) :
    Describes c d (c.shape d.file d.function (d.decorator.callee.map Char.toUpper, path)) := by
  have hparameters : List.Forall₂ (Resolves c d.file.module)
      (d.function.parameters.filter fun p => p.name ≠ "self" ∧ p.name ≠ "cls")
      ((d.function.parameters.filter (·.name ∉ receivers)).map (c.parameter d.file.module)) := by
    have hreceivers : (fun p : Python.Parameter => decide (p.name ∉ receivers)) =
        fun p => decide (p.name ≠ "self" ∧ p.name ≠ "cls") := by
      funext p
      simp [receivers]
    rw [hreceivers, List.forall₂_map_right_iff, List.forall₂_same]
    intro p _
    exact resolves_parameter c d.file.module p
  have hresolves : ∀ q ∈ (d.function.parameters.filter (·.name ∉ receivers)).map (c.parameter d.file.module),
      ∃ p, Resolves c d.file.module p q := by
    intro q hq
    obtain ⟨p, _, rfl⟩ := List.mem_map.mp hq
    exact ⟨p, resolves_parameter c d.file.module p⟩
  refine ⟨rfl, hpath, rfl, rfl, rfl, hparameters, ?_, exemplifies_examples hresolves⟩
  show min maxScore (_ + 1) = min 10 (1 + _)
  rw [Nat.add_comm]
  rfl

/-- The shapes are those of the decorators that declare a route, in their order. -/
theorem forall₂_shapes_of (c : Context) (files : List SourceFile) {R : Declaration → Shape → Prop}
    (h : ∀ d path, d.decorator.path = some path →
      R d (c.shape d.file d.function (d.decorator.callee.map Char.toUpper, path))) :
    List.Forall₂ R ((Declaration.ofFiles files).filter fun d => d.IsRoute c.methods) (c.shapes files) := by
  rw [shapes_eq]
  apply Python.forall₂_filterMap
  · intro d _ hroute
    obtain ⟨path, hpath, hgives⟩ := Declaration.route?_of_isRoute (of_decide_eq_true hroute)
    refine ⟨_, ?_, h d path hpath⟩
    rw [Context.shapeOf?, hgives, Option.map_some]
  · intro d _ hnone
    rw [Context.shapeOf?, Declaration.route?_of_not_isRoute (of_decide_eq_false hnone), Option.map_none]

/-- There is one shape for each decorator that declares a route, in order, and it says what is declared. -/
theorem forall₂_shapes (c : Context) (files : List SourceFile) :
    List.Forall₂ (Describes c) ((Declaration.ofFiles files).filter fun d => d.IsRoute c.methods)
      (c.shapes files) :=
  forall₂_shapes_of c files fun d _ hpath => describes_shape c d hpath

end Shape

end PayloadAtlas
