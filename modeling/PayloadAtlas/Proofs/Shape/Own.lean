import PayloadAtlas.Proofs.Model.Collision
import PayloadAtlas.Proofs.Path.Module
import PayloadAtlas.Proofs.Shape.Build
import PayloadAtlas.Scan.Analysis

/-!
# A file's own models

An annotation means, before all others, the last model of its name in the module of its file
(`Registry.resolve_ofFiles`). Files with one name of the module count as one there, so that a file is sure of its own
models only if no later one has both that name and a model of the name that is meant (`SourceFile.IsLastWith`). This
cannot fail among files with one extension and no other dots in their paths, for then the name of the module tells the
path (`Shape.own_models`).
-/

namespace PayloadAtlas

open Python (ModelRules ClassDefinition)

/-! ## Models of a name -/

namespace SourceFile

/-- The classes of the name in the file `f` that are models, in order. -/
def modelsNamed (rules : ModelRules) (name : String) (f : SourceFile) : List ClassDefinition :=
  f.contents.classes.filter fun c => c.name = name ∧ (c.kind? rules).isSome

/-- The classes of the name in the files of a module that are models, in order. -/
def modelsIn (rules : ModelRules) (files : List SourceFile) (module name : String) : List ClassDefinition :=
  (files.filter (·.module = module)).flatMap (modelsNamed rules name)

/-- No file that is listed later than `f` has both the name of the module and a model of the name. -/
def IsLastWith (rules : ModelRules) (files : List SourceFile) (name : String) (f : SourceFile) : Prop :=
  ∃ before after, files = before ++ f :: after ∧ ∀ g ∈ after, g.module = f.module → g.modelsNamed rules name = []

variable {rules : ModelRules} {files : List SourceFile} {name : String} {f : SourceFile}

theorem module_of_mem_models {m : Model} (h : m ∈ f.models rules) : m.module = f.module := by
  obtain ⟨c, -, hc⟩ := List.mem_filterMap.mp h
  cases hkind : c.kind? rules with
  | none => simp [hkind] at hc
  | some kind =>
    rw [hkind, Option.map_some, Option.some.injEq] at hc
    rw [← hc]

/-- The models of a name that a file registers, by `models`, are its classes of that name. -/
theorem map_models_named (rules : ModelRules) (name : String) (f : SourceFile) :
    ((f.models rules).filter (·.name = name)).map (fun m => (m.name, m.fields)) =
      (f.modelsNamed rules name).map fun c => (c.name, c.fields) :=
  map_filter_models rules name f fun _ _ => rfl

/-- A file has models under a module's name only if it is that module's. -/
theorem filter_models_qualified (rules : ModelRules) (module name : String) (f : SourceFile) :
    (f.models rules).filter (Registry.qualifiedKey · = (module, name)) =
      if f.module = module then (f.models rules).filter (·.name = name) else [] := by
  split
  · next hmodule =>
    apply List.filter_congr
    intro m hm
    simp [Registry.qualifiedKey, module_of_mem_models hm, hmodule]
  · next hmodule =>
    apply List.filter_eq_nil_iff.mpr
    intro m hm
    simp [Registry.qualifiedKey, module_of_mem_models hm, hmodule]

/-- What is registered under a name in a module are the classes of that name in its files. -/
theorem map_qualified_models (rules : ModelRules) (module name : String) (files : List SourceFile) :
    ((files.flatMap (models rules)).filter (Registry.qualifiedKey · = (module, name))).map
        (fun m => (m.name, m.fields)) =
      (modelsIn rules files module name).map fun c => (c.name, c.fields) := by
  rw [List.filter_flatMap, modelsIn]
  induction files with
  | nil => rfl
  | cons f files ih =>
    rw [List.flatMap_cons, List.map_append, ih, filter_models_qualified, List.filter_cons]
    split
    · next hmodule => rw [if_pos (decide_eq_true hmodule), List.flatMap_cons, List.map_append, map_models_named]
    · next hmodule => rw [if_neg (by simpa using hmodule), List.map_nil, List.nil_append]

/-- The models of the last file are the last models of the module. -/
theorem IsLastWith.getLast?_eq (h : f.IsLastWith rules files name) (hown : f.modelsNamed rules name ≠ []) :
    (modelsIn rules files f.module name).getLast? = (f.modelsNamed rules name).getLast? := by
  obtain ⟨before, after, rfl, hafter⟩ := h
  have hnone : (after.filter (·.module = f.module)).flatMap (modelsNamed rules name) = [] := by
    apply List.flatMap_eq_nil_iff.mpr
    intro g hg
    obtain ⟨hg, hmodule⟩ := List.mem_filter.mp hg
    exact hafter g hg (of_decide_eq_true hmodule)
  rw [modelsIn, List.filter_append, List.filter_cons, if_pos (decide_eq_true rfl), List.flatMap_append,
    List.flatMap_cons, hnone, List.append_nil, List.getLast?_append_of_ne_nil _ hown]

end SourceFile

/-! ## Resolution -/

namespace Registry

/-- An annotation means the last model of `modelsIn`, if there is one. -/
theorem resolve_ofFiles {rules : ModelRules} {files : List SourceFile} {module a : String} {c : ClassDefinition}
    (ha : a ≠ "") (hlast : (SourceFile.modelsIn rules files module (lastComponent a)).getLast? = some c) :
    ∃ m, (ofFiles rules files).resolve module a = some m ∧ m.name = c.name ∧ m.fields = c.fields := by
  have hmap := congrArg List.getLast? (SourceFile.map_qualified_models rules module (lastComponent a) files)
  rw [List.getLast?_map, List.getLast?_map, hlast, ← lastWith_eq_getLast?, ← getQualified_ofList] at hmap
  obtain ⟨m, hm, heq⟩ := Option.map_eq_some_iff.mp hmap
  obtain ⟨hname, hfields⟩ := Prod.mk.inj heq
  refine ⟨m, ?_, hname, hfields⟩
  rw [ofFiles, resolve_ofList, if_neg ha, hm, Option.some_or]

end Registry

namespace HandlerParameter

/-- A parameter has a class as its model: its name, its fields and an example of them. -/
structure Shows (strategy : ExampleStrategy) (c : ClassDefinition) (q : HandlerParameter) : Prop where
  model : q.model = some c.name
  modelFields : q.modelFields = some c.fields
  example? : q.example? = some (strategy.object c.fields)

/-- A parameter whose annotation ends with the name of a model of its own file has the last one of that name there. -/
def ShowsOwn (rules : ModelRules) (strategy : ExampleStrategy) (f : SourceFile) (p : Python.Parameter)
    (q : HandlerParameter) : Prop :=
  p.declaredType ≠ "" → ∀ c ∈ (f.modelsNamed rules (Registry.lastComponent p.declaredType)).getLast?, q.Shows strategy c

/-- A parameter whose annotation ends with the name of a model of its module has the last one of that name there, which
is one of its own file unless a later one of the module has one. -/
structure ShowsLast (rules : ModelRules) (strategy : ExampleStrategy) (files : List SourceFile) (f : SourceFile)
    (p : Python.Parameter) (q : HandlerParameter) : Prop where
  last : p.declaredType ≠ "" →
    ∀ c ∈ (SourceFile.modelsIn rules files f.module (Registry.lastComponent p.declaredType)).getLast?,
      q.Shows strategy c
  own : f.IsLastWith rules files (Registry.lastComponent p.declaredType) → q.ShowsOwn rules strategy f p

variable {rules : ModelRules} {strategy : ExampleStrategy} {files : List SourceFile} {f : SourceFile}
  {c : Shape.Context} {p : Python.Parameter} {q : HandlerParameter}

/-- What an annotation resolves to, by `Resolves`, is the last model of the module, and the file's own if no later
file has one. -/
theorem Resolves.showsLast (h : Resolves c f.module p q) (hregistry : c.registry = .ofFiles rules files) :
    q.ShowsLast rules c.strategy files f p := by
  have hlast : p.declaredType ≠ "" →
      ∀ d ∈ (SourceFile.modelsIn rules files f.module (Registry.lastComponent p.declaredType)).getLast?,
        q.Shows c.strategy d := by
    intro hdeclared d hd
    obtain ⟨m, hm, hname, hfields⟩ := Registry.resolve_ofFiles hdeclared hd
    rw [← hregistry] at hm
    obtain ⟨hmodel, hown, hexample⟩ := h.resolved m hm
    exact ⟨by rw [hmodel, hname], by rw [hown, hfields], by rw [hexample, hfields]⟩
  refine ⟨hlast, ?_⟩
  intro hfile hdeclared d hd
  apply hlast hdeclared
  rw [hfile.getLast?_eq (List.ne_nil_of_mem (List.mem_of_getLast? hd))]
  exact hd

/-- A parameter that shows a model of its own file has the fields of that model. -/
theorem ShowsOwn.fields (h : q.ShowsOwn rules strategy f p) : p.declaredType ≠ "" →
    (f.modelsNamed rules (Registry.lastComponent p.declaredType)).getLast?.all
      (fun c => q.modelFields = some c.fields) = true := by
  intro hdeclared
  cases hlast : (f.modelsNamed rules (Registry.lastComponent p.declaredType)).getLast? with
  | none => rfl
  | some c => exact decide_eq_true (h hdeclared c hlast).modelFields

end HandlerParameter

/-! ## Files of one extension -/

/-- Whether the name of the module is told from the path, by `moduleName`. -/
def SourceFile.IsNamed (f : SourceFile) : Prop := f.module = Path.moduleName f.path

namespace Analysed

/-- The files of a scan are so named. -/
theorem isNamed_of_mem_files {d : Disk} {root : String} {paths : List String} {f : SourceFile}
    (h : f ∈ files (ofPaths d root paths)) : f.IsNamed := by
  obtain ⟨a, ha, hfile⟩ := List.mem_filterMap.mp h
  obtain ⟨p, -, rfl⟩ := List.mem_map.mp ha
  rw [SourceFile.analyze] at hfile
  -- a file that was read and parsed has the name of its path
  split at hfile
  · next g hg =>
    cases hfile
    split at hg
    · cases hg
    · split at hg
      · cases hg
      · cases hg
        rfl
  · cases hfile

end Analysed

/-- The path leads to a file with an extension, and has no other dots. -/
def Path.IsPlainPath (ext path : String) : Prop :=
  ∃ directories stem, Path.IsPlain ext directories stem ∧ path = Path.withExtension directories stem ext

theorem SourceFile.isLastWith_of_nodup {rules : ModelRules} {files : List SourceFile} {f : SourceFile} (hf : f ∈ files)
    (h : (files.map SourceFile.module).Nodup) (name : String) : f.IsLastWith rules files name := by
  obtain ⟨before, after, rfl⟩ := List.append_of_mem hf
  refine ⟨before, after, rfl, ?_⟩
  intro g hg hmodule
  rw [List.map_append, List.map_cons] at h
  have hnotin := (List.nodup_cons.mp (List.Nodup.of_append_right h)).1
  exact absurd (List.mem_map.mpr ⟨g, hg, hmodule⟩) hnotin

/-- Among plain paths with one extension no two files have one module. -/
theorem SourceFile.nodup_modules {ext : String} {files : List SourceFile} (hpaths : (files.map SourceFile.path).Nodup)
    (hnamed : ∀ f ∈ files, f.IsNamed) (hplain : ∀ f ∈ files, Path.IsPlainPath ext f.path) :
    (files.map SourceFile.module).Nodup := by
  rw [List.Nodup, List.pairwise_map] at hpaths ⊢
  refine hpaths.imp_of_mem fun {f g} hf hg hne heq => hne ?_
  obtain ⟨directories, stem, hplain₁, hpath₁⟩ := hplain f hf
  obtain ⟨directories', stem', hplain₂, hpath₂⟩ := hplain g hg
  rw [hnamed f hf, hnamed g hg, hpath₁, hpath₂] at heq
  rw [hpath₁, hpath₂]
  exact Path.eq_of_moduleName_eq hplain₁ hplain₂ heq

namespace Shape

/-- The parameters of a handler are, one after the other, as a relation has them; receivers are left out. -/
def ForParameters (R : Python.Parameter → HandlerParameter → Prop) (d : Declaration) (s : Shape) : Prop :=
  List.Forall₂ R (d.function.parameters.filter fun p => p.name ≠ "self" ∧ p.name ≠ "cls") s.parameters

/-- What shapes are made with, where the registry is that of some files. -/
def Context.over (c : Context) (rules : ModelRules) (files : List SourceFile) : Context :=
  { c with registry := .ofFiles rules files }

/-- A parameter has the last model of its name in its module, and that of its own file if no later file of the module
has one. The files of a scan have the names of their modules from their paths. Among files that have, with different
paths, of one extension and without other dots, each is the last with all its names. -/
theorem own_models (c : Context) (rules : ModelRules) (files : List SourceFile) :
    List.Forall₂ (fun e s => Describes (c.over rules files) e s ∧
          ForParameters (HandlerParameter.ShowsLast rules c.strategy files e.file) e s)
        ((Declaration.ofFiles files).filter fun e => e.IsRoute c.methods) ((c.over rules files).shapes files) ∧
      (∀ d root paths, ∀ f ∈ Analysed.files (Analysed.ofPaths d root paths), f.IsNamed) ∧
      ∀ ext, (∀ f ∈ files, f.IsNamed) → (files.map SourceFile.path).Nodup →
        (∀ f ∈ files, Path.IsPlainPath ext f.path) → ∀ f ∈ files, ∀ name, f.IsLastWith rules files name := by
  refine ⟨?_, fun _ _ _ _ => Analysed.isNamed_of_mem_files, ?_⟩
  · refine forall₂_shapes_of (c.over rules files) files fun e path hpath => ?_
    have hs := describes_shape (c.over rules files) e hpath
    refine ⟨hs, hs.parameters.imp ?_⟩
    intro p q hq
    exact hq.showsLast rfl
  · intro ext hnamed hpaths hplain f hf
    exact SourceFile.isLastWith_of_nodup hf (SourceFile.nodup_modules hpaths hnamed hplain)

namespace Sample

/-- A file with a handler that takes a model of the file, and another one with a model of that name. -/
def beside (path : String) : List SourceFile :=
  [⟨"app.py", Path.moduleName "app.py",
      { classes := [⟨"Note", ["BaseModel"], [], [⟨"a", "int", ""⟩], 1⟩]
        functions := [⟨"add", false, [⟨"note", "Note"⟩], [⟨"post", some "/notes"⟩], 5⟩] }⟩,
    ⟨path, Path.moduleName path,
      { classes := [⟨"Note", ["BaseModel"], [], [⟨"b", "str", ""⟩], 1⟩], functions := [] }⟩]

/-- The classes with the base `BaseModel` are models. -/
def baseRules : ModelRules := ⟨["BaseModel"], []⟩

/-- What shapes are made with, for the method `post`, before there are any files. -/
def posts : Context := ⟨{}, .usual, ["post"], []⟩

/-- Both files have the names of their paths. -/
theorem isNamed_beside (path : String) : ∀ f ∈ beside path, f.IsNamed := by
  simp [beside, SourceFile.IsNamed]

theorem isPlainPath_beside : ∀ f ∈ beside "b.py", Path.IsPlainPath "py" f.path := by
  have happ : Path.IsPlainPath "py" "app.py" := ⟨[], "app", ⟨by decide, by decide, by decide⟩, by decide⟩
  have hb : Path.IsPlainPath "py" "b.py" := ⟨[], "b", ⟨by decide, by decide, by decide⟩, by decide⟩
  simp [beside, happ, hb]

end Sample

/-- Of `app.py` and `b.py` each is the last with its names, and the parameter in the former has the model there. -/
theorem own_models_beside :
    (∀ f ∈ Sample.beside "b.py", ∀ name, f.IsLastWith Sample.baseRules (Sample.beside "b.py") name) ∧
      List.Forall₂ (fun e s => Describes (Sample.posts.over Sample.baseRules (Sample.beside "b.py")) e s ∧
          ForParameters (HandlerParameter.ShowsLast Sample.baseRules .usual (Sample.beside "b.py") e.file) e s)
        ((Declaration.ofFiles (Sample.beside "b.py")).filter fun e => e.IsRoute ["post"])
        ((Sample.posts.over Sample.baseRules (Sample.beside "b.py")).shapes (Sample.beside "b.py")) ∧
      ((Sample.posts.over Sample.baseRules (Sample.beside "b.py")).shapes (Sample.beside "b.py")).map
        (fun s => (s.module, s.parameters.map HandlerParameter.modelFields)) =
          [("app", [some [⟨"a", "int", ""⟩]])] := by
  obtain ⟨hshapes, -, hplain⟩ := own_models Sample.posts Sample.baseRules (Sample.beside "b.py")
  have hpaths : ((Sample.beside "b.py").map SourceFile.path).Nodup := by decide
  exact ⟨hplain "py" (Sample.isNamed_beside "b.py") hpaths Sample.isPlainPath_beside, hshapes, by decide +kernel⟩

/-- A later `app.pyi` has the same name of the module, so that the parameter in `app.py` has its model. -/
theorem not_showsOwn_beside :
    (∀ f ∈ Sample.beside "app.pyi", f.IsNamed) ∧ ((Sample.beside "app.pyi").map SourceFile.path).Nodup ∧
      ¬List.Forall₂ (fun e s => ForParameters (HandlerParameter.ShowsOwn Sample.baseRules .usual e.file) e s)
        ((Declaration.ofFiles (Sample.beside "app.pyi")).filter fun e => e.IsRoute ["post"])
        ((Sample.posts.over Sample.baseRules (Sample.beside "app.pyi")).shapes (Sample.beside "app.pyi")) := by
  refine ⟨Sample.isNamed_beside "app.pyi", by decide, ?_⟩
  intro h
  have hfields := h.imp fun _ _ hes => List.Forall₂.imp (fun _ _ => HandlerParameter.ShowsOwn.fields) hes
  exact absurd hfields (by decide +kernel)

end Shape

end PayloadAtlas
