import PayloadAtlas.Proofs.Json.Members
import PayloadAtlas.Proofs.Shape.Own

/-!
# The order of files

Where no two files have one name of the module, what an annotation means is told from the order of the files only if
it is ambiguous (`SourceFile.IsAmbiguous`): it ends with the name of a model of two files or more, and not of its own.
So the shapes of a file stay what they are, in whatever order the files come, but for the fields and examples of such
parameters, and for these examples in the example of the shape (`Shape.shapes_perm`).
-/

namespace PayloadAtlas

open Json (Value)
open Python (ModelRules)

/-! ## Names that files define -/

namespace SourceFile

/-- Whether a file has a model of `name`. -/
def Defines (rules : ModelRules) (name : String) (f : SourceFile) : Prop := f.modelsNamed rules name ≠ []

instance (rules : ModelRules) (name : String) : DecidablePred (Defines rules name) := fun f =>
  inferInstanceAs (Decidable (f.modelsNamed rules name ≠ []))

/-- An annotation in the file `f` ends with the name of a model of two files or more, and not of `f` itself. -/
def IsAmbiguous (rules : ModelRules) (files : List SourceFile) (f : SourceFile) (a : String) : Prop :=
  2 ≤ (files.filter (Defines rules (Registry.lastComponent a) ·)).length ∧
    ¬f.Defines rules (Registry.lastComponent a)

instance (rules : ModelRules) (files : List SourceFile) (f : SourceFile) : DecidablePred (f.IsAmbiguous rules files) :=
  fun _ => inferInstanceAs (Decidable (_ ∧ _))

variable {rules : ModelRules} {files files' : List SourceFile} {name : String} {f : SourceFile}

theorem filter_models_eq_nil_iff : (f.models rules).filter (·.name = name) = [] ↔ ¬f.Defines rules name := by
  have hmap := map_models_named rules name f
  rw [Defines, ne_eq, not_not, ← List.map_eq_nil_iff (f := fun m : Model => (m.name, m.fields)), hmap,
    List.map_eq_nil_iff]

/-- In a module with one file the models are those of the file. -/
theorem filter_qualified_of_mem (hmodules : (files.map SourceFile.module).Nodup) (hf : f ∈ files) (name : String) :
    (files.flatMap (models rules)).filter (Registry.qualifiedKey · = (f.module, name)) =
      (f.models rules).filter (·.name = name) := by
  obtain ⟨before, after, rfl⟩ := List.append_of_mem hf
  rw [List.map_append, List.map_cons, List.nodup_middle, List.nodup_cons, ← List.map_append] at hmodules
  have hnone : ∀ g ∈ before ++ after, (g.models rules).filter (Registry.qualifiedKey · = (f.module, name)) = [] := by
    intro g hg
    rw [filter_models_qualified, if_neg fun hmodule => hmodules.1 (List.mem_map.mpr ⟨g, hg, hmodule⟩)]
  rw [List.filter_flatMap, List.flatMap_append, List.flatMap_cons, filter_models_qualified, if_pos rfl,
    List.flatMap_eq_nil_iff.mpr fun g hg => hnone g (List.mem_append_left _ hg),
    List.flatMap_eq_nil_iff.mpr fun g hg => hnone g (List.mem_append_right _ hg), List.nil_append, List.append_nil]

/-- Only the files that define a name have models of it. -/
theorem filter_models_named (rules : ModelRules) (files : List SourceFile) (name : String) :
    (files.flatMap (models rules)).filter (·.name = name) =
      (files.filter (Defines rules name ·)).flatMap fun f => (f.models rules).filter (·.name = name) := by
  rw [List.filter_flatMap]
  induction files with
  | nil => rfl
  | cons f files ih =>
    rw [List.flatMap_cons, ih, List.filter_cons]
    split
    · rw [List.flatMap_cons]
    · next hf => rw [filter_models_eq_nil_iff.mpr (by simpa using hf), List.nil_append]

theorem perm_eq_of_length_lt {α : Type} {xs ys : List α} (h : xs.Perm ys) (hlength : ys.length < 2) : xs = ys := by
  match ys, hlength with
  | [], _ => exact h.eq_nil
  | [y], _ => exact List.perm_singleton.mp h

end SourceFile

/-! ## Resolution in another order -/

namespace Registry

variable {rules : ModelRules} {files files' : List SourceFile} {f : SourceFile}

/-- The model that an annotation means has the name that `lastComponent` cuts off; there is one if there is any of
that name. -/
theorem map_name_resolve (ms : List Model) (module a : String) :
    ((ofList ms).resolve module a).map Model.name =
      if a ≠ "" ∧ lastComponent a ∈ ms.map Model.name then some (lastComponent a) else none := by
  rw [resolve_ofList, getQualified_ofList]
  by_cases ha : a = ""
  · simp [ha]
  rw [if_neg ha]
  -- the model of the module itself comes first, but the name is the same
  cases hown : lastWith qualifiedKey (module, lastComponent a) ms with
  | some m =>
    obtain ⟨hm, hkey⟩ := of_lastWith_eq_some hown
    have hname : m.name = lastComponent a := congrArg Prod.snd hkey
    rw [Option.some_or, Option.map_some, hname, if_pos ⟨ha, hname ▸ List.mem_map_of_mem hm⟩]
  | none =>
    rw [Option.none_or]
    cases hlast : lastWith Model.name (lastComponent a) ms with
    | some m =>
      obtain ⟨hm, hname⟩ := of_lastWith_eq_some hlast
      rw [Option.map_some, hname, if_pos ⟨ha, hname ▸ List.mem_map_of_mem hm⟩]
    | none =>
      have hnone : lastComponent a ∉ ms.map Model.name := by
        rw [← isSome_lastWith_iff, hlast]
        exact Bool.false_ne_true
      rw [Option.map_none, if_neg fun h => hnone h.2]

theorem map_name_resolve_perm (rules : ModelRules) (hperm : files'.Perm files) (module a : String) :
    ((ofFiles rules files').resolve module a).map Model.name =
      ((ofFiles rules files).resolve module a).map Model.name := by
  have hmem := ((hperm.flatMap_right (SourceFile.models rules)).map Model.name).mem_iff (a := lastComponent a)
  rw [ofFiles, ofFiles, map_name_resolve, map_name_resolve]
  simp only [hmem]

/-- What a name means in a module, by `getQualified`, does not depend on the order of the files, if each has a module
of its own. -/
theorem getQualified_perm (rules : ModelRules) (hperm : files'.Perm files)
    (hmodules : (files.map SourceFile.module).Nodup) (hf : f ∈ files) (name : String) :
    (ofFiles rules files').getQualified f.module name = (ofFiles rules files).getQualified f.module name := by
  have hmodules' : (files'.map SourceFile.module).Nodup := (hperm.map SourceFile.module).nodup_iff.mpr hmodules
  rw [ofFiles, ofFiles, getQualified_ofList, getQualified_ofList, lastWith_eq_getLast?, lastWith_eq_getLast?,
    SourceFile.filter_qualified_of_mem hmodules hf, SourceFile.filter_qualified_of_mem hmodules' (hperm.mem_iff.mpr hf)]

theorem isSome_getQualified {name : String} (hmodules : (files.map SourceFile.module).Nodup) (hf : f ∈ files)
    (hdefines : f.Defines rules name) : ((ofFiles rules files).getQualified f.module name).isSome := by
  rw [ofFiles, getQualified_ofList, lastWith_eq_getLast?, SourceFile.filter_qualified_of_mem hmodules hf,
    List.getLast?_isSome]
  intro hnil
  exact SourceFile.filter_models_eq_nil_iff.mp hnil hdefines

theorem lastWith_name_perm {name : String} (hperm : files'.Perm files)
    (hone : (files.filter (SourceFile.Defines rules name ·)).length < 2) :
    lastWith Model.name name (files'.flatMap (SourceFile.models rules)) =
      lastWith Model.name name (files.flatMap (SourceFile.models rules)) := by
  rw [lastWith_eq_getLast?, lastWith_eq_getLast?, SourceFile.filter_models_named, SourceFile.filter_models_named,
    SourceFile.perm_eq_of_length_lt (hperm.filter _) hone]

/-- An annotation that is not ambiguous means the same, by `resolve`, in any order. -/
theorem resolve_perm (hperm : files'.Perm files) (hmodules : (files.map SourceFile.module).Nodup) (hf : f ∈ files)
    {a : String} (h : ¬f.IsAmbiguous rules files a) :
    (ofFiles rules files').resolve f.module a = (ofFiles rules files).resolve f.module a := by
  have hqualified := getQualified_perm rules hperm hmodules hf (lastComponent a)
  rw [ofFiles, ofFiles] at hqualified
  rw [ofFiles, ofFiles, resolve_ofList, resolve_ofList, hqualified]
  by_cases hdefines : f.Defines rules (lastComponent a)
  · -- the file's own model answers, and nothing else is looked at
    obtain ⟨m, hm⟩ := Option.isSome_iff_exists.mp (isSome_getQualified hmodules hf hdefines)
    rw [ofFiles] at hm
    rw [hm, Option.some_or, Option.some_or]
  · have hone : (files.filter (SourceFile.Defines rules (lastComponent a) ·)).length < 2 := by
      apply Nat.lt_of_not_le
      intro htwo
      exact h ⟨htwo, hdefines⟩
    rw [lastWith_name_perm hperm hone]

end Registry

/-! ## Shapes in another order -/

/-- Parameters differ in no more than the fields and the example of their model, and this only if the annotation is
`ambiguous`. -/
structure HandlerParameter.Alike (ambiguous : String → Prop) (q q' : HandlerParameter) : Prop where
  rest : q' = { q with modelFields := q'.modelFields, example? := q'.example? }
  same : ¬ambiguous q.declaredType → q' = q

namespace Shape

variable {rules : ModelRules} {files files' : List SourceFile} {f : SourceFile} {c : Context}

/-- Shapes differ in no more than their parameters and their example, and this only if a parameter has an annotation of
some: then in such parameters, and in the members of the example under the names of such parameters. -/
structure Alike (ambiguous : String → Prop) [DecidablePred ambiguous] (s s' : Shape) : Prop where
  rest : s' = { s with parameters := s'.parameters, example? := s'.example? }
  parameters : List.Forall₂ (HandlerParameter.Alike ambiguous) s.parameters s'.parameters
  members : (s'.example?.getD []).filter (fun m => ∀ q ∈ s.parameters, q.name = m.1 → ¬ambiguous q.declaredType) =
    (s.example?.getD []).filter fun m => ∀ q ∈ s.parameters, q.name = m.1 → ¬ambiguous q.declaredType
  same : (∀ q ∈ s.parameters, ¬ambiguous q.declaredType) → s' = s

theorem declaredType_parameter (c : Context) (module : String) (p : Python.Parameter) :
    (c.parameter module p).declaredType = p.declaredType :=
  (resolves_parameter c module p).declaredType

/-- A parameter in another order of the files is `Alike`. -/
theorem alike_parameter (hperm : files'.Perm files) (hmodules : (files.map SourceFile.module).Nodup) (hf : f ∈ files)
    (p : Python.Parameter) :
    HandlerParameter.Alike (f.IsAmbiguous rules files) ((c.over rules files).parameter f.module p)
      ((c.over rules files').parameter f.module p) := by
  constructor
  · -- the name of the model does not depend on the order even if the model does
    have hname := Registry.map_name_resolve_perm rules hperm f.module p.declaredType
    rw [Context.parameter, Context.parameter, Context.over, Context.over]
    dsimp only
    cases hm : (Registry.ofFiles rules files).resolve f.module p.declaredType with
    | none =>
      rw [hm, Option.map_none, Option.map_eq_none_iff] at hname
      rw [hname]
    | some m =>
      rw [hm, Option.map_some, Option.map_eq_some_iff] at hname
      obtain ⟨m', hm', hname⟩ := hname
      rw [hm']
      dsimp only
      rw [hname]
  · intro hclear
    rw [declaredType_parameter] at hclear
    rw [Context.parameter, Context.parameter, Context.over, Context.over]
    dsimp only
    rw [Registry.resolve_perm hperm hmodules hf hclear]

theorem example?_shape (c : Context) (f : SourceFile) (g : Python.FunctionDefinition) (route : String × String) :
    (c.shape f g route).example? =
      if (examples (c.shape f g route).parameters).isEmpty then none
      else some (examples (c.shape f g route).parameters) := rfl

theorem getD_example?_shape (c : Context) (f : SourceFile) (g : Python.FunctionDefinition) (route : String × String) :
    (c.shape f g route).example?.getD [] = examples (c.shape f g route).parameters := by
  rw [example?_shape]
  split
  · next hempty => rw [Option.getD_none, List.isEmpty_iff.mp hempty]
  · rw [Option.getD_some]

theorem exampleOf?_name {q : HandlerParameter} {m : String × Value} (h : exampleOf? q = some m) : m.1 = q.name := by
  rw [exampleOf?] at h
  split at h
  · cases h
    rfl
  · cases h

/-- A parameter adds nothing under other names than its own. -/
theorem filter_exampleOf?_cons {p : String → Bool} {q : HandlerParameter} (h : ¬p q.name = true)
    (qs : List HandlerParameter) :
    ((q :: qs).filterMap exampleOf?).filter (fun m => p m.1) = (qs.filterMap exampleOf?).filter fun m => p m.1 := by
  rw [List.filterMap_cons]
  cases hm : exampleOf? q with
  | none => rfl
  | some m =>
    have hdropped : ¬p m.1 = true := by
      rw [exampleOf?_name hm]
      exact h
    rw [List.filter_cons, if_neg hdropped]

/-- Examples have the same members under the names with `p`, if these are of parameters that are the same. -/
theorem filter_examples {qs qs' : List HandlerParameter} {ambiguous : String → Prop} (p : String → Bool)
    (h : List.Forall₂ (HandlerParameter.Alike ambiguous) qs qs')
    (hp : ∀ q ∈ qs, p q.name = true → ¬ambiguous q.declaredType) :
    (examples qs').filter (fun m => p m.1) = (examples qs).filter fun m => p m.1 := by
  rw [examples_eq_membersOf, examples_eq_membersOf, Value.filter_membersOf, Value.filter_membersOf]
  congr 1
  -- parameter by parameter: one with `p` adds the same to both, and any other adds nothing that counts
  induction h with
  | nil => rfl
  | @cons q q' qs qs' hq _ ih =>
    obtain ⟨hfirst, hrest⟩ := List.forall_mem_cons.mp hp
    by_cases hname : p q.name = true
    · rw [hq.same (hfirst hname), List.filterMap_cons, List.filterMap_cons]
      cases exampleOf? q with
      | none => exact ih hrest
      | some m => rw [List.filter_cons, List.filter_cons, ih hrest]
    · have hname' : ¬p q'.name = true := by
        rw [hq.rest]
        exact hname
      rw [filter_exampleOf?_cons hname', filter_exampleOf?_cons hname, ih hrest]

/-- A shape in another order of the files is `Alike`. -/
theorem alike_shape (hperm : files'.Perm files) (hmodules : (files.map SourceFile.module).Nodup) (hf : f ∈ files)
    (g : Python.FunctionDefinition) (route : String × String) :
    Alike (f.IsAmbiguous rules files) ((c.over rules files).shape f g route)
      ((c.over rules files').shape f g route) := by
  have hparameters : List.Forall₂ (HandlerParameter.Alike (f.IsAmbiguous rules files))
      ((c.over rules files).shape f g route).parameters ((c.over rules files').shape f g route).parameters := by
    rw [Context.shape, Context.shape, List.forall₂_map_left_iff, List.forall₂_map_right_iff, List.forall₂_same]
    intro p _
    exact alike_parameter hperm hmodules hf p
  -- all but the parameters and the example is told from the function and the route
  have hrest : (c.over rules files').shape f g route =
      { (c.over rules files).shape f g route with
        parameters := ((c.over rules files').shape f g route).parameters
        example? := ((c.over rules files').shape f g route).example? } := by
    simp only [Context.shape, List.length_map]
    rfl
  refine ⟨hrest, hparameters, ?_, ?_⟩
  · rw [getD_example?_shape, getD_example?_shape]
    apply filter_examples (fun k => decide (∀ q ∈ ((c.over rules files).shape f g route).parameters,
      q.name = k → ¬f.IsAmbiguous rules files q.declaredType)) hparameters
    intro q hq hkept
    exact of_decide_eq_true hkept q hq rfl
  · intro hclear
    have hsame : ((c.over rules files').shape f g route).parameters =
        ((c.over rules files).shape f g route).parameters := by
      rw [Context.shape, Context.shape]
      apply List.map_congr_left
      intro p hp
      exact (alike_parameter hperm hmodules hf p).same (hclear _ (List.mem_map_of_mem hp))
    -- the rest of a shape, and its example, are told from what is the same
    rw [hrest, example?_shape _ f g route, hsame, ← example?_shape]

/-- The shapes of a file, one for each route of each function. -/
theorem shapes_singleton (c : Context) (f : SourceFile) :
    c.shapes [f] = (f.contents.functions.flatMap fun g => (g.routes c.methods).map (g, ·)).map
      fun r => c.shape f r.1 r.2 := by
  simp [Context.shapes, List.map_flatMap, Function.comp_def]

/-- The shapes of `shapes` are those of the files, one after the other. -/
theorem shapes_flatMap (c : Context) (files : List SourceFile) :
    c.shapes files = files.flatMap fun f => c.shapes [f] := by
  simp [Context.shapes]

/-- In another order of the files the shapes are those of the same files in that order, and for each file they differ at
most in parameters whose annotations are ambiguous, and under the names of such parameters in the example. -/
theorem shapes_perm (c : Context) (rules : ModelRules) {files files' : List SourceFile} (hperm : files'.Perm files)
    (hmodules : (files.map SourceFile.module).Nodup) :
    (c.over rules files).shapes files = files.flatMap (fun f => (c.over rules files).shapes [f]) ∧
      (c.over rules files').shapes files' = files'.flatMap (fun f => (c.over rules files').shapes [f]) ∧
      ∀ f ∈ files, List.Forall₂ (Alike (f.IsAmbiguous rules files)) ((c.over rules files).shapes [f])
        ((c.over rules files').shapes [f]) := by
  refine ⟨shapes_flatMap _ files, shapes_flatMap _ files', ?_⟩
  intro f hf
  rw [shapes_singleton, shapes_singleton, List.forall₂_map_left_iff, List.forall₂_map_right_iff]
  apply List.forall₂_same.mpr
  intro r _
  exact alike_shape hperm hmodules hf r.1 r.2

namespace Sample

/-- A file with a model of the name `Note`, with some fields. -/
def noteFile (path : String) (fields : List Field) : SourceFile :=
  ⟨path, Path.moduleName path, { classes := [⟨"Note", ["BaseModel"], [], fields, 1⟩], functions := [] }⟩

/-- A file with a handler that takes such a model. -/
def notesFile : SourceFile :=
  ⟨"c.py", Path.moduleName "c.py",
    { classes := [], functions := [⟨"add", false, [⟨"note", "Note"⟩], [⟨"post", some "/notes"⟩], 1⟩] }⟩

/-- Two files with models of one name, of which one has no fields, and the handler's. -/
def notesInOrder : List SourceFile := [noteFile "a.py" [], noteFile "b.py" [⟨"b", "str", ""⟩], notesFile]

/-- The other way round. -/
def notesReordered : List SourceFile := [noteFile "b.py" [⟨"b", "str", ""⟩], noteFile "a.py" [], notesFile]

theorem notesReordered_perm : notesReordered.Perm notesInOrder := List.Perm.swap _ _ _

theorem nodup_notesInOrder : (notesInOrder.map SourceFile.module).Nodup := by decide

end Sample

/-- In both orders there is the shape of the one handler, and its parameter is ambiguous. -/
theorem shapes_perm_notes :
    Sample.notesReordered.Perm Sample.notesInOrder ∧ (Sample.notesInOrder.map SourceFile.module).Nodup ∧
      Sample.notesFile.IsAmbiguous Sample.baseRules Sample.notesInOrder "Note" ∧
      ((Sample.posts.over Sample.baseRules Sample.notesInOrder).shapes [Sample.notesFile]).length = 1 ∧
      List.Forall₂ (Alike (Sample.notesFile.IsAmbiguous Sample.baseRules Sample.notesInOrder))
        ((Sample.posts.over Sample.baseRules Sample.notesInOrder).shapes [Sample.notesFile])
        ((Sample.posts.over Sample.baseRules Sample.notesReordered).shapes [Sample.notesFile]) := by
  obtain ⟨-, -, halike⟩ :=
    shapes_perm Sample.posts Sample.baseRules Sample.notesReordered_perm Sample.nodup_notesInOrder
  exact ⟨Sample.notesReordered_perm, Sample.nodup_notesInOrder, by decide, by decide +kernel,
    halike _ (by simp [Sample.notesInOrder])⟩

/-- The example of the handler's shape is not there in the other order, so that more differs than its parameters. -/
theorem not_shapes_perm_notes :
    Sample.notesReordered.Perm Sample.notesInOrder ∧ (Sample.notesInOrder.map SourceFile.module).Nodup ∧
      ¬∀ f ∈ Sample.notesInOrder, List.Forall₂ (fun s s' => s' = { s with parameters := s'.parameters })
        ((Sample.posts.over Sample.baseRules Sample.notesInOrder).shapes [f])
        ((Sample.posts.over Sample.baseRules Sample.notesReordered).shapes [f]) := by
  refine ⟨Sample.notesReordered_perm, Sample.nodup_notesInOrder, ?_⟩
  intro h
  have hsame := h Sample.notesFile (by simp [Sample.notesInOrder])
  have hexamples := hsame.imp fun _ _ => congrArg fun s => s.example?.isSome
  exact absurd hexamples (by decide +kernel)

end Shape

end PayloadAtlas
