import PayloadAtlas.Proofs.Path.Module
import PayloadAtlas.Proofs.Scan.Visits

/-!
# The files that a walk meets

A walk that follows no links meets its files in the order of their names, each once (`Walk.pairwise_visits`): those that
no excluded directory is on the way to (`Walk.mem_metFiles_iff`). What it finds are the paths of those that have an
extension it looks for (`Walk.wants_iff`), and it ends at the first file whose path is no text (`Walk.files_eq_gather`).
-/

namespace PayloadAtlas

namespace Walk

open Disk

variable {w : Walk} {d : Disk} {s : Standing} {n : Nat} {l : Location} {name : Bytes} {x : List Bytes × Location}

/-! ## In order -/

/-- What is met under a `name` is met under its names and more. -/
theorem exists_of_mem_visitsUnder {below : Standing → List (List Bytes × Location)}
    (hbelow : ∀ s', ∀ x ∈ below s', ∃ more, x.1 = s'.names ++ more) (hx : x ∈ w.visitsUnder d below s name) :
    ∃ more, x.1 = s.names ++ name :: more := by
  rw [visitsUnder] at hx
  split at hx
  · split at hx
    · cases hx
    · split at hx
      · obtain rfl := List.mem_singleton.mp hx
        exact ⟨[], rfl⟩
      · cases hx
  · split at hx
    · cases hx
    · obtain ⟨more, hmore⟩ := hbelow _ x hx
      exact ⟨more, by rw [hmore, enter, List.append_assoc, List.singleton_append]⟩
  · cases hx

/-- What is met below a directory is met under the names that lead there and more. -/
theorem exists_of_mem_visits (hx : x ∈ w.visits d n s) : ∃ more, x.1 = s.names ++ more := by
  induction n generalizing s x with
  | zero =>
    obtain rfl := List.mem_singleton.mp hx
    exact ⟨[], (List.append_nil _).symm⟩
  | succ n ih =>
    rw [visits, List.mem_cons, List.mem_flatMap] at hx
    rcases hx with rfl | ⟨name, -, hx⟩
    · exact ⟨[], (List.append_nil _).symm⟩
    · obtain ⟨more, hmore⟩ := exists_of_mem_visitsUnder (fun s' x hx => ih hx) hx
      exact ⟨name :: more, hmore⟩

/-- What is met under one name is in the order that holds further down. -/
theorem pairwise_visitsUnder {R : List Bytes × Location → List Bytes × Location → Prop}
    {below : Standing → List (List Bytes × Location)} (hbelow : ∀ s', (below s').Pairwise R) (name : Bytes) :
    (w.visitsUnder d below s name).Pairwise R := by
  unfold visitsUnder
  split
  · split
    · exact .nil
    · split
      · exact List.pairwise_singleton _ _
      · exact .nil
  · split
    · exact .nil
    · exact hbelow _
  · exact .nil

/-- A walk meets what there is in the order of the names that lead there, so that nothing in `visits` is twice. -/
theorem pairwise_visits (hd : d.Sound) (w : Walk) (n : Nat) (s : Standing) :
    (w.visits d n s).Pairwise fun x y => x.1 < y.1 := by
  induction n generalizing s with
  | zero => exact List.pairwise_singleton _ _
  | succ n ih =>
    have hnames : (d.names s.location).Pairwise (· < ·) := by
      refine ((pairwise_names d s.location).and (nodup_names hd s.location)).imp fun {a b} h => ?_
      by_contra hnot
      exact h.2 (List.le_antisymm h.1 (List.not_lt.mp hnot))
    have hunder {name : Bytes} {x : List Bytes × Location} (hx : x ∈ w.visitsUnder d (w.visits d n) s name) :
        ∃ more, x.1 = s.names ++ name :: more := exists_of_mem_visitsUnder (fun _ _ => exists_of_mem_visits) hx
    rw [visits, List.pairwise_cons, List.pairwise_flatMap]
    -- the directory comes before what is in it, and of two names in it the first comes with all that is below it
    refine ⟨fun x hx => ?_, fun name _ => ?_, hnames.imp fun hlt x hx y hy => ?_⟩
    · obtain ⟨name, -, hx⟩ := List.mem_flatMap.mp hx
      obtain ⟨more, hmore⟩ := hunder hx
      have hlt : s.names ++ [] < s.names ++ name :: more := List.append_left_lt (List.nil_lt_cons name more)
      rw [List.append_nil] at hlt
      rwa [hmore]
    · exact pairwise_visitsUnder ih name
    · obtain ⟨more, hmore⟩ := hunder hx
      obtain ⟨more', hmore'⟩ := hunder hy
      rw [hmore, hmore']
      exact List.append_left_lt (List.cons_lt_cons_iff.mpr (.inl hlt))

/-! ## Files -/

/-- A walk that follows no links and heeds no ignore files. -/
structure Plain (w : Walk) : Prop where
  links : w.followLinks = false
  rules : w.heedsIgnoreFiles = false

theorem Plain.leavesOut_eq (hw : w.Plain) (s : Standing) (name : Bytes) (b : Bool) : w.leavesOut s name b = false := by
  rw [leavesOut, hw.rules, Bool.false_and]

/-- The files that a walk meets, in the order of `visits`. -/
def metBelow (w : Walk) (d : Disk) (n : Nat) (s : Standing) : List (List Bytes × Location) :=
  (w.visits d n s).filter fun x => d.isFile x.2

/-- The files that a walk meets under a `name`. -/
def metUnder (w : Walk) (d : Disk) (n : Nat) (s : Standing) (name : Bytes) : List (List Bytes × Location) :=
  match d.nodeAt (s.location ++ [name]) with
  | some (.file _) => [(s.names ++ [name], s.location ++ [name])]
  | some .directory => if w.excludes name then [] else w.metBelow d n (w.enter d s name (s.location ++ [name]))
  | _ => []

/-- A walk with `0` levels to go meets no file. -/
theorem metBelow_zero (hlocation : d.nodeAt s.location = some .directory) : w.metBelow d 0 s = [] := by
  have hself : d.isFile s.location = false := by rw [isFile, hlocation]
  rw [metBelow, visits, List.filter_cons_of_neg (by simp [hself]), List.filter_nil]

/-- The files in a directory are met name by name. -/
theorem metBelow_succ (hw : w.Plain) (hd : d.Sound) (hlocation : d.nodeAt s.location = some .directory) :
    w.metBelow d (n + 1) s = (d.names s.location).flatMap (w.metUnder d n s) := by
  have hself : d.isFile s.location = false := by rw [isFile, hlocation]
  rw [metBelow, visits, List.filter_cons_of_neg (by simp [hself]), List.filter_flatMap]
  refine congrArg (fun f => (d.names s.location).flatMap f) (funext fun name => ?_)
  rw [visitsUnder, metUnder, met?_direct hw.links]
  cases hnode : d.nodeAt (s.location ++ [name]) with
  | none => rfl
  | some node =>
    have hname := (hd.name (by simp [hnode] : d.nodeAt (s.location ++ [name]) ≠ none)).1
    -- a plain walk meets files and directories, and passes links over
    cases node with
    | link t => rfl
    | file c =>
      have hfile : d.isFile (s.location ++ [name]) = true := by rw [isFile, hnode]
      simp [hw.leavesOut_eq, walkOver_name hlocation hname (.inr ⟨c, hnode⟩), hfile]
    | directory =>
      dsimp only
      rw [hw.leavesOut_eq, Bool.false_or]
      split
      · rfl
      · rfl

/-- What a walk finds is what `collect` takes of the files that it meets. -/
theorem below_eq_gather (hw : w.Plain) (hd : d.Sound) (hlocation : d.nodeAt s.location = some .directory) :
    w.below d n s = gather (fun x => w.collect x.1) (w.metBelow d n s) := by
  -- level by level, as far down as the walk goes
  induction n generalizing s with
  | zero => rw [metBelow_zero hlocation, below, gather]
  | succ n ih =>
    rw [below_succ hd, metBelow_succ hw hd hlocation, gather_flatMap]
    refine gather_congr fun name hname => ?_
    rw [found, metUnder, met?_direct hw.links]
    cases hnode : d.nodeAt (s.location ++ [name]) with
    | none => exact absurd hnode ((mem_names hd).mp hname)
    | some node =>
      cases node with
      | link t => rfl
      | file c =>
        dsimp only
        rw [hw.leavesOut_eq, gather_singleton]
        rfl
      | directory =>
        dsimp only
        rw [hw.leavesOut_eq, Bool.false_or]
        split
        · rfl
        · exact ih hnode

/-- A walk from the directory at `l` on comes to the file `name`: it lies in the directories `dirs`, none of which is
excluded. -/
structure Meets (w : Walk) (d : Disk) (l : Location) (dirs : List Bytes) (name : Bytes) : Prop where
  file : ∃ c, d.nodeAt (l ++ (dirs ++ [name])) = some (.file c)
  kept : ∀ dir ∈ dirs, dir ∉ w.excluded.map Text.bytesOf

theorem excludes_iff {name : Bytes} : w.excludes name = true ↔ name ∈ w.excluded.map Text.bytesOf := by
  rw [excludes, List.mem_map]
  constructor
  · intro h
    cases htext : Text.ofBytes? name with
    | none => simp [htext] at h
    | some s => exact ⟨s, by simpa [htext] using h, Text.bytesOf_of_ofBytes? htext⟩
  · rintro ⟨s, hs, rfl⟩
    rw [Text.ofBytes?_bytesOf]
    exact decide_eq_true hs

/-- A file is met below a directory if that is not excluded and the file is met from there on. -/
theorem meets_cons_iff {dir : Bytes} {dirs : List Bytes} (hd : d.Sound) :
    w.Meets d l (dir :: dirs) name ↔
      d.nodeAt (l ++ [dir]) = some .directory ∧ w.excludes dir = false ∧ w.Meets d (l ++ [dir]) dirs name := by
  have hlocation : l ++ (dir :: dirs ++ [name]) = l ++ [dir] ++ (dirs ++ [name]) := by simp
  have hkept : w.excludes dir = false ↔ dir ∉ w.excluded.map Text.bytesOf := by
    rw [← excludes_iff, Bool.not_eq_true]
  rw [hkept]
  constructor
  · rintro ⟨⟨c, hc⟩, hdirs⟩
    rw [hlocation] at hc
    obtain ⟨hdir, hdirs⟩ := List.forall_mem_cons.mp hdirs
    have hbelow : dirs ++ [name] ≠ [] := by simp
    exact ⟨hd.directory_above hbelow (by rw [hc]; simp), hdir, ⟨c, hc⟩, hdirs⟩
  · rintro ⟨-, hdir, ⟨c, hc⟩, hdirs⟩
    exact ⟨⟨c, hlocation ▸ hc⟩, List.forall_mem_cons.mpr ⟨hdir, hdirs⟩⟩

/-- Under a name there is the file itself, or what is met below the directory of that name. -/
theorem mem_metUnder_iff : x ∈ w.metUnder d n s name ↔
    w.Meets d s.location [] name ∧ x = (s.names ++ [name], s.location ++ [name]) ∨
      d.nodeAt (s.location ++ [name]) = some .directory ∧ w.excludes name = false ∧
        x ∈ w.metBelow d n (w.enter d s name (s.location ++ [name])) := by
  have hmeets : w.Meets d s.location [] name ↔ ∃ c, d.nodeAt (s.location ++ [name]) = some (.file c) :=
    ⟨fun h => h.file, fun h => ⟨h, by simp⟩⟩
  rw [hmeets, metUnder]
  cases d.nodeAt (s.location ++ [name]) with
  | none => simp
  | some node =>
    cases node with
    | link t => simp
    | file c => simp
    | directory => cases w.excludes name <;> simp

/-- A walk meets the files that lie in directories none of which is excluded, as deep as it goes. -/
theorem mem_metBelow_iff (hw : w.Plain) (hd : d.Sound) (hlocation : d.nodeAt s.location = some .directory) :
    x ∈ w.metBelow d n s ↔ ∃ dirs name, dirs.length < n ∧ w.Meets d s.location dirs name ∧
      x = (s.names ++ (dirs ++ [name]), s.location ++ (dirs ++ [name])) := by
  induction n generalizing s x with
  | zero => simp [metBelow_zero hlocation]
  | succ n ih =>
    rw [metBelow_succ hw hd hlocation, List.mem_flatMap]
    constructor
    · rintro ⟨name, -, hx⟩
      -- under a name there is the file itself, or a directory on the way to it
      rcases mem_metUnder_iff.mp hx with ⟨hmeets, rfl⟩ | ⟨hdir, hkept, hx⟩
      · exact ⟨[], name, Nat.succ_pos n, hmeets, rfl⟩
      · obtain ⟨dirs, name', hlength, hmeets, rfl⟩ := (ih hdir).mp hx
        refine ⟨name :: dirs, name', Nat.succ_lt_succ hlength, ?_, by simp [enter]⟩
        exact (meets_cons_iff hd).mpr ⟨hdir, hkept, hmeets⟩
    · rintro ⟨dirs, name, hlength, hmeets, rfl⟩
      cases dirs with
      | nil =>
        obtain ⟨c, hc⟩ := hmeets.file
        have hthere : d.nodeAt (s.location ++ [name]) ≠ none := fun hnone => by
          rw [List.nil_append, hnone] at hc
          cases hc
        exact ⟨name, (mem_names hd).mpr hthere, mem_metUnder_iff.mpr (.inl ⟨hmeets, rfl⟩)⟩
      | cons dir dirs =>
        obtain ⟨hdir, hkept, hmeets⟩ := (meets_cons_iff hd).mp hmeets
        have hthere : d.nodeAt (s.location ++ [dir]) ≠ none := by simp [hdir]
        refine ⟨dir, (mem_names hd).mpr hthere, mem_metUnder_iff.mpr (.inr ⟨hdir, hkept, ?_⟩)⟩
        exact (ih hdir).mpr ⟨dirs, name, Nat.lt_of_succ_lt_succ hlength, hmeets, by simp [enter]⟩

/-! ## Names and extensions -/

/-- The extension of a name is what comes after its last dot, unless nothing is before that. -/
def HasExtension (name ext : Bytes) : Prop := ∃ stem, stem ≠ [] ∧ dot ∉ ext ∧ name = stem ++ dot :: ext

/-- Whether a walk looks for files with the extension of `name`. -/
def LooksFor (w : Walk) (name : Bytes) : Prop := ∃ ext ∈ w.extensions, HasExtension name (Text.bytesOf ext)

/-- For names that are texts this is the extension that `splitName` cuts off. -/
theorem hasExtension_bytesOf_iff {t ext : String} :
    HasExtension (Text.bytesOf t) (Text.bytesOf ext) ↔ (Path.splitName t).2 = some ext := by
  rw [Path.splitName_eq_some_iff]
  constructor
  · rintro ⟨stem, hstem, hext, h⟩
    obtain ⟨a, b, rfl, rfl, hb⟩ := Text.exists_cut_at_dot h
    obtain rfl := Text.eq_of_bytesOf_eq hb
    refine ⟨a, ?_, fun hmem => hext (Text.dot_mem_bytesOf.mpr hmem), rfl⟩
    rintro rfl
    exact hstem rfl
  · rintro ⟨stem, hstem, hext, rfl⟩
    refine ⟨Text.bytesOf stem, fun hnil => hstem (Text.eq_empty_of_bytesOf hnil), ?_, ?_⟩
    · exact fun hmem => hext (Text.dot_mem_bytesOf.mp hmem)
    · rw [Text.bytesOf_append, Text.bytesOf_append, List.append_assoc]
      rfl

/-- A path goes on with a name after a slash, whether it ends in one or not. -/
theorem exists_into_eq (path name : Bytes) : ∃ before, into path name = before ++ slash :: name := by
  rw [into]
  split
  · next hopen =>
    obtain ⟨before, rfl⟩ := List.getLast?_eq_some_iff.mp hopen
    exact ⟨before, by rw [List.append_assoc, List.singleton_append]⟩
  · exact ⟨path, rfl⟩

theorem exists_fileName_of_into {path : Bytes} {p : String} (hname : IsName name)
    (hslash : slash ∉ name) (h : Text.bytesOf p = into path name) :
    ∃ t, Text.bytesOf t = name ∧ Path.fileName? p = some t := by
  obtain ⟨before, hbefore⟩ := exists_into_eq path name
  obtain ⟨a, t, rfl, -, rfl⟩ := Text.exists_cut_at_slash (h.trans hbefore)
  obtain ⟨hchars, hcounts, hisName⟩ := hname.text hslash
  obtain ⟨init, hcomponents⟩ := Path.exists_components_slash a hchars hcounts
  refine ⟨t, rfl, ?_⟩
  rw [Path.fileName?, hcomponents, List.getLast?_concat, Option.bind_some, if_pos hisName]

/-- Whether a path is wanted depends on the `name` that it ends with. -/
theorem wants_iff {path : Bytes} {p : String} (hname : IsName name) (hslash : slash ∉ name)
    (h : Text.bytesOf p = into path name) : w.wants p = true ↔ w.LooksFor name := by
  obtain ⟨t, rfl, hfile⟩ := exists_fileName_of_into hname hslash h
  rw [LooksFor, wants, Path.extension?, hfile, Option.bind_some]
  simp only [hasExtension_bytesOf_iff]
  cases (Path.splitName t).2 with
  | none => simp
  | some ext => simp

/-- A path that is a text is taken by `collect` if it is wanted. -/
theorem collect_of_bytesOf {names : List Bytes} {p : String} (h : Text.bytesOf p = w.pathOf names) :
    w.collect names = .ok (if w.wants p then [p] else []) := by
  rw [collect, ← h, Text.ofBytes?_bytesOf]

/-- A path that is no text is an error in `collect`, wanted or not. -/
theorem collect_of_not_text {names : List Bytes} (h : ¬∃ p, Text.bytesOf p = w.pathOf names) :
    w.collect names = .error (.notUtf8 (Text.lossy (w.pathOf names))) := by
  rw [collect]
  cases htext : Text.ofBytes? (w.pathOf names) with
  | none => rfl
  | some p => exact absurd ⟨p, Text.bytesOf_of_ofBytes? htext⟩ h

/-! ## Whole walks -/

/-- The files that a walk meets from its root on: the names from there, and where they are. -/
def metFiles (w : Walk) (d : Disk) (root : Location) : List (List Bytes × Location) :=
  w.metBelow d (deepest d) (w.begin d root)

/-- A walk goes by `deepest` as deep as locations are long. -/
theorem length_lt_deepest (h : d.nodeAt l ≠ none) : l.length < deepest d := by
  have hlength := length_le_of_mem_locationsOf (mem_locationsOf h)
  rw [deepest]
  generalize (d.entries.map fun e => e.1.length).foldr max 0 = longest at hlength ⊢
  have hmul : longest + 1 ≤ (d.entries.length + 2) * (longest + 1) := Nat.le_mul_of_pos_left _ (by omega)
  omega

section Whole

variable {root : Location} (hw : w.Plain) (hd : d.Sound) (hdirectory : d.nodeAt root = some .directory)

include hd in
theorem pairwise_metFiles (w : Walk) (root : Location) : (w.metFiles d root).Pairwise fun x y => x.1 < y.1 :=
  (pairwise_visits hd w _ _).filter _

include hw hd hdirectory

/-- A whole walk meets all files that `Meets` says. -/
theorem mem_metFiles_iff : x ∈ w.metFiles d root ↔
    ∃ dirs name, w.Meets d root dirs name ∧ x = (dirs ++ [name], root ++ (dirs ++ [name])) := by
  rw [metFiles, mem_metBelow_iff hw hd hdirectory]
  constructor
  · rintro ⟨dirs, name, -, hmeets, hx⟩
    exact ⟨dirs, name, hmeets, hx⟩
  · rintro ⟨dirs, name, hmeets, hx⟩
    refine ⟨dirs, name, ?_, hmeets, hx⟩
    obtain ⟨c, hc⟩ := hmeets.file
    have hlength := length_lt_deepest (by rw [hc]; simp : d.nodeAt (root ++ (dirs ++ [name])) ≠ none)
    rw [List.length_append, List.length_append, List.length_singleton] at hlength
    omega

/-- What a walk finds it takes from `metFiles`, up to the first whose path is no text. -/
theorem files_eq_gather (hroot : d.locate true (Text.bytesOf w.root) = .ok (.found root)) : w.files d =
    if Path.components w.root = [standardInput] then .ok []
    else (gather (fun x => w.collect x.1) (w.metFiles d root)).map Path.sorted := by
  rw [files_eq hroot hdirectory, below_eq_gather hw hd hdirectory, hw.rules, Bool.false_and, if_neg Bool.false_ne_true]
  rfl

end Whole

end Walk

end PayloadAtlas
