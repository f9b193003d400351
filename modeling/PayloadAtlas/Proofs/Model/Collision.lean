import Mathlib.Data.List.Basic
import Mathlib.Order.Preorder.Chain
import PayloadAtlas.Proofs.Model.History
import PayloadAtlas.Shape.Build

/-!
# Which names collide

A registry reports a name each time that a model of that name follows another one, so that the modules that it names
are those of each two consecutive models (`Registry.collisions_ofFiles`). A name that is defined in two modules is
always reported; but so is one that is defined in one module twice. Reports tell names of several modules just if no
model is followed by one of the same name in the same module (`Registry.tellsModules_iff`).
-/

namespace PayloadAtlas

open Python (ModelRules)

/-! ## Models of a name -/

/-- What is told of the models of `name` in a file without their kinds is told of its classes of that name. -/
theorem SourceFile.map_filter_models {α : Type} (rules : ModelRules) (name : String) (f : SourceFile)
    {ofModel : Model → α} {ofClass : Python.ClassDefinition → α}
    (h : ∀ c kind, ofModel ⟨c.name, f.module, c.fields, kind⟩ = ofClass c) :
    ((f.models rules).filter (·.name = name)).map ofModel =
      (f.contents.classes.filter fun c => c.name = name ∧ (c.kind? rules).isSome).map ofClass := by
  rw [models]
  induction f.contents.classes with
  | nil => rfl
  | cons c cs ih =>
    rw [List.filterMap_cons, List.filter_cons]
    cases hkind : c.kind? rules with
    | none => simpa [hkind] using ih
    | some kind =>
      by_cases hname : c.name = name
      · have hc := h c kind
        rw [hname] at hc
        simpa [hkind, hname, hc] using ih
      · simpa [hkind, hname] using ih

/-- A class of that `name` in that `module` is a model. -/
def DefinesModel (rules : ModelRules) (files : List SourceFile) (name module : String) : Prop :=
  ∃ f ∈ files, f.module = module ∧ ∃ c ∈ f.contents.classes, c.name = name ∧ (c.kind? rules).isSome

/-- The modules of the classes of `name` that are models, in order. -/
def definingModules (rules : ModelRules) (name : String) (files : List SourceFile) : List String :=
  files.flatMap fun f =>
    (f.contents.classes.filter fun c => c.name = name ∧ (c.kind? rules).isSome).map fun _ => f.module

/-- A module is among the `definingModules` just if it defines a model of the name. -/
theorem mem_definingModules {rules : ModelRules} {name module : String} {files : List SourceFile} :
    module ∈ definingModules rules name files ↔ DefinesModel rules files name module := by
  simp only [definingModules, DefinesModel, List.mem_flatMap, List.mem_map, List.mem_filter, decide_eq_true_eq]
  constructor
  · rintro ⟨f, hf, c, ⟨hc, hmodel⟩, hmodule⟩
    exact ⟨f, hf, hmodule, c, hc, hmodel⟩
  · rintro ⟨f, hf, hmodule, c, hc, hmodel⟩
    exact ⟨f, hf, c, ⟨hc, hmodel⟩, hmodule⟩

namespace Registry

/-- The modules of the models of `name`, in order. -/
def modulesOf (name : String) (ms : List Model) : List String := (ms.filter (·.name = name)).map Model.module

variable {name : String} {ms : List Model} {rules : ModelRules} {files : List SourceFile}

theorem modulesOf_models (rules : ModelRules) (name : String) (files : List SourceFile) :
    modulesOf name (files.flatMap (SourceFile.models rules)) = definingModules rules name files := by
  rw [modulesOf, definingModules, List.filter_flatMap, List.map_flatMap]
  refine List.flatMap_congr fun f _ => ?_
  exact SourceFile.map_filter_models rules name f fun _ _ => rfl

/-- A model adds its module for its own name. -/
theorem modulesOf_concat (name : String) (ms : List Model) (m : Model) :
    modulesOf name (ms ++ [m]) = modulesOf name ms ++ if m.name = name then [m.module] else [] := by
  rw [modulesOf, List.filter_append, List.map_append, modulesOf]
  split <;> simp [*]

/-- The module of the last model of `name` is the last of its modules. -/
theorem map_lastWith_name (name : String) (ms : List Model) :
    (lastWith Model.name name ms).map Model.module = (modulesOf name ms).getLast? := by
  rw [lastWith_eq_getLast?, modulesOf, List.getLast?_map]

/-! ## Pairs -/

/-- One more element makes one more pair of neighbours, if there was one before. -/
theorem zip_tail_concat {α : Type} (l : List α) (a : α) :
    (l ++ [a]).zip (l ++ [a]).tail = l.zip l.tail ++ (l.getLast?.map (·, a)).toList := by
  -- from the front, where the pairs begin
  induction l with
  | nil => rfl
  | cons b l ih =>
    cases l with
    | nil => rfl
    | cons c l =>
      simp only [List.cons_append, List.tail_cons, List.zip_cons_cons, List.getLast?_cons_cons] at ih ⊢
      rw [ih]

/-- A relation holds along a list just if it holds of each pair of neighbours. -/
theorem isChain_iff_zip_tail {α : Type} {R : α → α → Prop} {l : List α} :
    l.IsChain R ↔ ∀ p ∈ l.zip l.tail, R p.1 p.2 := by
  induction l with
  | nil => simp
  | cons a l ih =>
    cases l with
    | nil => simp
    | cons b l =>
      rw [List.isChain_cons_cons, ih, List.tail_cons, List.tail_cons, List.zip_cons_cons, List.forall_mem_cons]

/-- What is reported of `name`: each two consecutive modules of its models. -/
theorem collisions_name (name : String) (ms : List Model) :
    ((ofList ms).collisions.filter (·.name = name)).map (fun c => (c.replacedModule, c.module)) =
      (modulesOf name ms).zip (modulesOf name ms).tail := by
  induction ms using List.reverseRecOn with
  | nil => rfl
  | append_singleton ms m ih =>
    rw [ofList_concat, register, List.filter_append, List.map_append, ih, modulesOf_concat]
    split
    · next hname =>
      rw [zip_tail_concat, ← map_lastWith_name, collision?, getLatest_ofList, hname]
      cases lastWith Model.name name ms <;> simp
    · next hname =>
      rw [List.append_nil, collision?]
      cases (ofList ms).getLatest m.name <;> simp [hname]

/-! ## What reports tell -/

theorem collisions_name_ofFiles (rules : ModelRules) (files : List SourceFile) (name : String) :
    ((ofFiles rules files).collisions.filter (·.name = name)).map (fun c => (c.replacedModule, c.module)) =
      (definingModules rules name files).zip (definingModules rules name files).tail := by
  rw [ofFiles, collisions_name, modulesOf_models]

/-- A name is reported in `collisions` just if it is defined at least twice. -/
theorem reported_iff (rules : ModelRules) (files : List SourceFile) (name : String) :
    name ∈ (ofFiles rules files).collisions.map Collision.name ↔ 2 ≤ (definingModules rules name files).length := by
  have hpairs := congrArg List.length (collisions_name_ofFiles rules files name)
  rw [List.length_map, List.length_zip, List.length_tail] at hpairs
  have hreported : name ∈ (ofFiles rules files).collisions.map Collision.name ↔
      0 < ((ofFiles rules files).collisions.filter (·.name = name)).length := by
    rw [List.length_filter_pos_iff, List.mem_map]
    simp only [decide_eq_true_eq]
  rw [hreported, hpairs]
  omega

theorem two_le_length {α : Type} {a b : α} {l : List α} (ha : a ∈ l) (hb : b ∈ l) (hne : a ≠ b) : 2 ≤ l.length := by
  match l, ha, hb with
  | [c], ha, hb => exact absurd ((List.mem_singleton.mp ha).trans (List.mem_singleton.mp hb).symm) hne
  | _ :: _ :: _, _, _ => simp

/-- A name that is defined in two modules is reported. -/
theorem reported_of_ne {module module' : String} (hne : module ≠ module')
    (h : DefinesModel rules files name module) (h' : DefinesModel rules files name module') :
    name ∈ (ofFiles rules files).collisions.map Collision.name :=
  (reported_iff rules files name).mpr
    (two_le_length (mem_definingModules.mpr h) (mem_definingModules.mpr h') hne)

/-- The reports of `collisions` tell names of several modules, all of them and no others, and each names two modules.
-/
structure TellsModules (rules : ModelRules) (files : List SourceFile) : Prop where
  reported : ∀ name, name ∈ (ofFiles rules files).collisions.map Collision.name ↔
    ∃ module module', module ≠ module' ∧ DefinesModel rules files name module ∧ DefinesModel rules files name module'
  differ : ∀ c ∈ (ofFiles rules files).collisions, c.replacedModule ≠ c.module

/-- Reports name two modules each just if no module follows itself in `modulesOf` a name. -/
theorem differ_iff (rules : ModelRules) (files : List SourceFile) :
    (∀ c ∈ (ofFiles rules files).collisions, c.replacedModule ≠ c.module) ↔
      ∀ name, (definingModules rules name files).IsChain (· ≠ ·) := by
  simp only [isChain_iff_zip_tail, ← collisions_name_ofFiles, List.forall_mem_map, List.mem_filter,
    decide_eq_true_eq, and_imp]
  exact ⟨fun h _ c hc _ => h c hc, fun h c hc => h c.name c hc rfl⟩

/-- Reports tell names of several modules just if no module follows itself among those of a name. -/
theorem tellsModules_iff (rules : ModelRules) (files : List SourceFile) :
    TellsModules rules files ↔ ∀ name, (definingModules rules name files).IsChain (· ≠ ·) := by
  rw [← differ_iff]
  refine ⟨TellsModules.differ, fun h => ⟨fun name => ⟨fun hreported => ?_, ?_⟩, h⟩⟩
  · obtain ⟨c, hc, rfl⟩ := List.mem_map.mp hreported
    refine ⟨c.replacedModule, c.module, h c hc, ?_⟩
    have hpair : (c.replacedModule, c.module) ∈
        (definingModules rules c.name files).zip (definingModules rules c.name files).tail := by
      rw [← collisions_name_ofFiles]
      exact List.mem_map_of_mem (List.mem_filter.mpr ⟨hc, decide_eq_true rfl⟩)
    obtain ⟨hold, hnew⟩ := List.of_mem_zip hpair
    exact ⟨mem_definingModules.mp hold, mem_definingModules.mp (List.mem_of_mem_tail hnew)⟩
  · rintro ⟨module, module', hne, hdefines, hdefines'⟩
    exact reported_of_ne hne hdefines hdefines'

/-- The reports of a name are the pairs of consecutive modules that define it, so that it is reported just if it is
defined twice, and always if it is defined in two modules. Only those that are in two modules are reported, and each
report names two, just if no model is followed by one of the same name in the same module. -/
theorem collisions_ofFiles (rules : ModelRules) (files : List SourceFile) :
    (∀ name, ((ofFiles rules files).collisions.filter (·.name = name)).map (fun c => (c.replacedModule, c.module)) =
        (definingModules rules name files).zip (definingModules rules name files).tail) ∧
      (∀ name, name ∈ (ofFiles rules files).collisions.map Collision.name ↔
        2 ≤ (definingModules rules name files).length) ∧
      (∀ name module module', module ≠ module' → DefinesModel rules files name module →
        DefinesModel rules files name module' → name ∈ (ofFiles rules files).collisions.map Collision.name) ∧
      (TellsModules rules files ↔ ∀ name, (definingModules rules name files).IsChain (· ≠ ·)) :=
  ⟨collisions_name_ofFiles rules files, reported_iff rules files, fun _ _ _ => reported_of_ne,
    tellsModules_iff rules files⟩

namespace Sample

/-- A file that defines a model twice. -/
def twice : SourceFile where
  path := "app.py"
  module := "app"
  contents :=
    { classes :=
        [⟨"Note", ["BaseModel"], [], [⟨"a", "int", ""⟩], 1⟩, ⟨"Note", ["BaseModel"], [], [⟨"b", "int", ""⟩], 3⟩]
      functions := [] }

/-- The classes with the base `BaseModel` are models. -/
def schemaRules : ModelRules := ⟨["BaseModel"], []⟩

end Sample

/-- A model that is defined twice in one module is reported. -/
theorem not_tellsModules_twice :
    (ofFiles Sample.schemaRules [Sample.twice]).collisions = [⟨"Note", "app", "app"⟩] ∧
      ¬TellsModules Sample.schemaRules [Sample.twice] := by
  have hcollisions : (ofFiles Sample.schemaRules [Sample.twice]).collisions = [⟨"Note", "app", "app"⟩] := by
    decide
  refine ⟨hcollisions, fun h => h.differ ⟨"Note", "app", "app"⟩ ?_ rfl⟩
  rw [hcollisions]
  exact List.mem_singleton_self _

end Registry

end PayloadAtlas
