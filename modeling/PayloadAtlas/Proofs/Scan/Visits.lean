import PayloadAtlas.Proofs.Disk.Directory
import PayloadAtlas.Proofs.Disk.Reading
import PayloadAtlas.Proofs.Scan.Walk
import PayloadAtlas.Proofs.Text.Utf8

/-!
# What a walk meets

A walk meets files and directories (`Walk.visits`), each by names that lead there (`Walk.exists_entry`). It
finds nothing else on a disk that grew, if the rules of the directories that it meets are as they were, and if
no file that was written is a source where it is met (`Walk.files_of_grown`). A source that was found is read
as before.
-/

namespace PayloadAtlas

/-! ## Rules -/

namespace Ignore

open Disk

variable {written : List Location} {d d' : Disk} {l : Location} {names : List String}

/-- The path of the file with rules that `names` lead to from `l`. -/
def rulePath (l : Location) (names : List String) : Bytes :=
  slash :: [slash].intercalate (l ++ names.map Text.bytesOf)

/-- Whether the rules of the directory at `l` are the same on two disks. -/
def SameRules (d d' : Disk) (l : Location) : Prop :=
  ∀ names ∈ Layer.files, contentAt d' l names = contentAt d l names

/-- The same rules are read. -/
theorem SameRules.ofDirectory (h : SameRules d d' l) (path : Location) :
    Layer.ofDirectory d' l path = Layer.ofDirectory d l path := by
  rw [Layer.ofDirectory, Layer.ofDirectory, h [".ignore"] (by simp [Layer.files]),
    h [".gitignore"] (by simp [Layer.files]), h [".git", "info", "exclude"] (by simp [Layer.files])]

theorem SameRules.isFlawed (h : SameRules d d' l) : Layer.isFlawed d' l = Layer.isFlawed d l := by
  have hall : ∀ names ∈ Layer.files,
      Ignore.isFlawed (contentAt d' l names) = Ignore.isFlawed (contentAt d l names) :=
    fun names hnames => by rw [h names hnames]
  rw [Layer.isFlawed, Layer.isFlawed, Bool.eq_iff_iff, List.any_eq_true, List.any_eq_true]
  exact exists_congr fun names => and_congr_right fun hnames => by rw [hall names hnames]

theorem contentAt_eq (d : Disk) (l : Location) (names : List String) :
    contentAt d l names =
      match d.readBytes (rulePath l names) with
      | .ok content => content.data.toList
      | .error _ => [] := rfl

/-- The rules are the same if a file that is there now was there before and was not `written`. -/
theorem sameRules_of_grown (h : Grown written d d') (hd : d.Sound)
    (hkept : ∀ names ∈ Layer.files, ∀ m c, d'.HoldsFile (rulePath l names) m c →
      m ∉ written ∧ d.locate true (rulePath l names) = .ok (.found m)) : SameRules d d' l := by
  intro names hnames
  have hkept := hkept names hnames
  -- a file of rules is read on the one disk as on the other, or on neither
  have hsame : ∀ c, d'.readBytes (rulePath l names) = .ok c ↔ d.readBytes (rulePath l names) = .ok c := by
    intro c
    rw [readBytes_eq_ok_iff, readBytes_eq_ok_iff]
    constructor
    · rintro ⟨m, hm⟩
      obtain ⟨hnot, hbefore⟩ := hkept m c hm
      obtain ⟨n, hn⟩ := Option.ne_none_iff_exists'.mp (hd.locate_found hbefore)
      obtain ⟨n', hn', _, hsame⟩ := h.kept hn
      rw [hsame hnot, hm.2] at hn'
      cases hn'
      exact ⟨m, hbefore, hn⟩
    · rintro ⟨m, hlocate, hm⟩
      obtain ⟨c', hc', hsame⟩ := h.retains.bytes hm
      have hlocate' := (locate_of_grown h (hlocate ▸ settles_found m)).trans hlocate
      obtain ⟨hnot, _⟩ := hkept m c' ⟨hlocate', hc'⟩
      exact ⟨m, hlocate', hsame hnot ▸ hc'⟩
  rw [contentAt_eq, contentAt_eq]
  cases hr : d.readBytes (rulePath l names) with
  | ok c => rw [(hsame c).mpr hr]
  | error e =>
    cases hr' : d'.readBytes (rulePath l names) with
    | ok c =>
      rw [hsame, hr] at hr'
      cases hr'
    | error e' => rfl

end Ignore

namespace Walk

open Disk Ignore

variable {w : Walk} {written written' : List Location} {d d' : Disk} {s : Standing} {n : Nat}
  {name : Bytes} {ps : List String} {p : String} {root : Location}

/-! ## What is met -/

/-- What is met under a `name`, by what is met `below` directories. -/
def visitsUnder (w : Walk) (d : Disk) (below : Standing → List (List Bytes × Location)) (s : Standing)
    (name : Bytes) : List (List Bytes × Location) :=
  match w.met? d s name with
  | some .file =>
    if w.leavesOut s name false then []
    else
      match d.walkOver true mostLinks s.location [name] with
      | .ok (.found l) => [(s.names ++ [name], l)]
      | _ => []
  | some (.directory l) =>
    if w.leavesOut s name true || w.excludes name then [] else below (w.enter d s name l)
  | _ => []

/-- The directory where the walk stands, `s`, and the files and directories below that it does not leave out: the
names that lead there, and where it is. -/
def visits (w : Walk) (d : Disk) : Nat → Standing → List (List Bytes × Location)
  | 0, s => [(s.names, s.location)]
  | n + 1, s => (s.names, s.location) :: (d.names s.location).flatMap (w.visitsUnder d (w.visits d n) s)

theorem standing_mem_visits (w : Walk) (d : Disk) (n : Nat) (s : Standing) :
    (s.names, s.location) ∈ w.visits d n s := by
  cases n <;> exact List.mem_cons_self

theorem file_mem_visits (hname : name ∈ d.names s.location) (hmet : w.met? d s name = some .file)
    (hkept : ¬w.leavesOut s name false = true) {l : Location}
    (hl : d.walkOver true mostLinks s.location [name] = .ok (.found l)) :
    (s.names ++ [name], l) ∈ w.visits d (n + 1) s := by
  rw [visits, List.mem_cons, List.mem_flatMap]
  refine .inr ⟨name, hname, ?_⟩
  rw [visitsUnder, hmet]
  simp [hkept, hl]

/-- A walk meets what there is below a directory that it enters by `enter`. -/
theorem visits_enter_subset (hname : name ∈ d.names s.location) {l : Location}
    (hmet : w.met? d s name = some (.directory l))
    (hkept : ¬(w.leavesOut s name true || w.excludes name) = true) {x : List Bytes × Location}
    (hx : x ∈ w.visits d n (w.enter d s name l)) : x ∈ w.visits d (n + 1) s := by
  rw [visits, List.mem_cons, List.mem_flatMap]
  refine .inr ⟨name, hname, ?_⟩
  rw [visitsUnder, hmet]
  simpa only [if_neg hkept] using hx

/-! ## Disks that grew -/

/-- What is met under a name that was there is met under it again, by `MetAs`. -/
theorem met?_of_retains (h : Retains written d d') (hd : d.Sound) {met : Met}
    (hmet : w.met? d s name = some met) : w.met? d' s name = some met := by
  have hwalked {l : Location} (hwalk : d.walkOver true mostLinks s.location [name] = .ok (.found l)) :
      d'.walkOver true mostLinks s.location [name] = .ok (.found l) :=
    (walkOver_of_retains h (hwalk ▸ settles_found l)).trans hwalk
  rw [met?_eq_some_iff] at hmet ⊢
  cases hmet with
  | file hnext =>
    obtain ⟨c', hc', _⟩ := h.file hnext
    exact .file hc'
  | directory hnext => exact .directory (h.directory hnext)
  | link hnext hfollow => exact .link (h.link hnext) hfollow
  | linkedFile hnext hfollow hwalk hl =>
    obtain ⟨c', hc', _⟩ := h.file hl
    exact .linkedFile (h.link hnext) hfollow (hwalked hwalk) hc'
  | linkedDirectory hnext hfollow hwalk hl hinside =>
    exact .linkedDirectory (h.link hnext) hfollow (hwalked hwalk) (h.directory hl) hinside
  | linkedOther hnext hfollow hwalk hl =>
    rcases hl with hnone | ⟨t', hl⟩
    · exact absurd hnone (hd.walkOver_found (by simp) hwalk)
    · exact .linkedOther (h.link hnext) hfollow (hwalked hwalk) (.inr ⟨t', h.link hl⟩)

theorem met?_of_grown (h : Grown written d d') (hd : d.Sound) {met : Met}
    (hmet : w.met? d s name = some met) : w.met? d' s name = some met := met?_of_retains h.retains hd hmet

/-- A walk enters a directory with the rules that it had before. -/
theorem enter_of_sameRules {l : Location} (h : w.heedsIgnoreFiles = true → SameRules d d' l) :
    w.enter d' s name l = w.enter d s name l := by
  rw [enter, enter]
  cases hheeds : w.heedsIgnoreFiles with
  | false => rfl
  | true => simp only [(h hheeds).ofDirectory]

/-- Under a new `name`, or in a new directory, there are new directories and files that were `written`. -/
theorem found_new (h : Grown written d d') (hd : d.Sound)
    (hlocation : d'.nodeAt s.location = some .directory) (hname : name ∈ d'.names s.location)
    (hnew : d.nodeAt (s.location ++ [name]) = none)
    (hsources : ∀ x ∈ w.visits d' (n + 1) s, x.2 ∈ written → w.collect x.1 = .ok [])
    (hbelow : ∀ s', d'.nodeAt s'.location = some .directory → d.nodeAt s'.location = none →
      (∀ x ∈ w.visits d' n s', x.2 ∈ written → w.collect x.1 = .ok []) → w.below d' n s' = .ok []) :
    w.found d' (w.below d' n) s name = .ok [] := by
  obtain ⟨node, hnode⟩ := Option.ne_none_iff_exists'.mp ((mem_names (h.sound hd)).mp hname)
  rcases h.fresh hnode hnew with rfl | ⟨hwritten, c, rfl⟩
  · -- a new directory, in which the walk takes nothing
    have hmet : w.met? d' s name = some (.directory (s.location ++ [name])) := by
      rw [met?, hnode]
    rw [found, hmet]
    dsimp only
    split
    · rfl
    · next hkept =>
      apply hbelow _ hnode hnew
      intro x hx
      exact hsources x (visits_enter_subset hname hmet hkept hx)
  · -- a new file, which was written
    have hmet : w.met? d' s name = some .file := by
      rw [met?, hnode]
    rw [found, hmet]
    dsimp only
    split
    · rfl
    · next hkept =>
      have hisName := (name_of_met? (h.sound hd) (by rw [hmet]; simp)).1
      have hwalk := walkOver_name hlocation hisName (.inr ⟨_, hnode⟩) mostLinks
      exact hsources _ (file_mem_visits hname hmet hkept hwalk) hwritten

/-- In a new directory `below` finds nothing. -/
theorem below_new (h : Grown written d d') (hd : d.Sound)
    (hlocation : d'.nodeAt s.location = some .directory) (hnew : d.nodeAt s.location = none)
    (hsources : ∀ x ∈ w.visits d' n s, x.2 ∈ written → w.collect x.1 = .ok []) :
    w.below d' n s = .ok [] := by
  -- all that is below it is new, too
  induction n generalizing s with
  | zero => rfl
  | succ n ih =>
    rw [below_succ (h.sound hd)]
    apply gather_of_filter (f := w.found d' (w.below d' n) s) (p := fun _ => false)
    · intro name _ hfalse
      cases hfalse
    · intro name hname _
      refine found_new h hd hlocation hname ?_ hsources fun s' hs' hnew' hsources' => ih hs' hnew' hsources'
      by_contra hthere
      rw [hd.parent hthere] at hnew
      cases hnew
    · rw [List.filter_false, gather]

/-- On a disk that grew `below` finds nothing else. -/
theorem below_of_grown (h : Grown written d d') (hd : d.Sound)
    (hlocation : d.nodeAt s.location = some .directory)
    (hrules : w.heedsIgnoreFiles = true → ∀ x ∈ w.visits d' n s, SameRules d d' x.2)
    (hsources : ∀ x ∈ w.visits d' n s, x.2 ∈ written → w.collect x.1 = .ok [])
    (hbelow : w.below d n s = .ok ps) : w.below d' n s = .ok ps := by
  -- what was there is met again, with the same rules, and nothing is taken of what is new
  induction n generalizing s ps with
  | zero => exact hbelow
  | succ n ih =>
    rw [below_succ hd, names_of_grown h hd] at hbelow
    rw [below_succ (h.sound hd)]
    refine gather_of_filter ?_ ?_ hbelow
    · -- names that were there
      intro name hname _ us hus
      rw [found_eq_ok_iff] at hus ⊢
      cases hus with
      | other hmet => exact .other (met?_of_grown h hd hmet)
      | leftFile hmet hleft => exact .leftFile (met?_of_grown h hd hmet) hleft
      | file hmet hkept hcollect => exact .file (met?_of_grown h hd hmet) hkept hcollect
      | leftDirectory hmet hleft => exact .leftDirectory (met?_of_grown h hd hmet) hleft
      | @directory l _ hmet hkept hus =>
        have hmet' := met?_of_grown h hd hmet
        have hsub {x} (hx : x ∈ w.visits d' n (w.enter d' s name l)) : x ∈ w.visits d' (n + 1) s :=
          visits_enter_subset hname hmet' hkept hx
        have henter : w.enter d' s name l = w.enter d s name l :=
          enter_of_sameRules fun hheeds => hrules hheeds _ (hsub (standing_mem_visits w d' n _))
        rw [henter] at hsub
        refine .directory hmet' hkept ?_
        rw [henter]
        exact ih (met?_directory hd hlocation hmet).1 (fun hheeds x hx => hrules hheeds x (hsub hx))
          (fun x hx => hsources x (hsub hx)) hus
    · intro name hname hnew
      have hlocation' := h.directory hlocation
      refine found_new h hd hlocation' hname (by simpa using hnew) hsources ?_
      exact fun s' hs' hnew' hsources' => below_new h hd hs' hnew' hsources'

/-! ## Disks that differ in what was written -/

/-- What is met under a name is the same where each disk grew from the other. -/
theorem met?_alike (h : Grown written d d') (h' : Grown written' d' d) (hd : d.Sound) :
    w.met? d' s name = w.met? d s name := by
  cases hmet : w.met? d s name with
  | some met => exact met?_of_grown h hd hmet
  | none =>
    cases hmet' : w.met? d' s name with
    | none => rfl
    | some met =>
      rw [met?_of_grown h' (h.sound hd) hmet'] at hmet
      cases hmet

/-- By `below` a walk finds the same if nothing but files is written over. -/
theorem below_alike (h : Grown written d d') (h' : Grown written' d' d) (hd : d.Sound)
    (hrules : w.heedsIgnoreFiles = true → ∀ x ∈ w.visits d n s, SameRules d d' x.2) :
    w.below d' n s = w.below d n s := by
  induction n generalizing s with
  | zero => rfl
  | succ n ih =>
    rw [below_succ hd, below_succ (h.sound hd), names_alike h h' hd]
    apply gather_congr
    intro name hname
    refine found_congr (met?_alike h h' hd) fun l hmet hkept => ?_
    have hsub {x} (hx : x ∈ w.visits d n (w.enter d s name l)) : x ∈ w.visits d (n + 1) s :=
      visits_enter_subset hname hmet hkept hx
    have henter : w.enter d' s name l = w.enter d s name l :=
      enter_of_sameRules fun hheeds => hrules hheeds _ (hsub (standing_mem_visits w d n _))
    rw [henter]
    exact ih fun hheeds x hx => hrules hheeds x (hsub hx)

/-! ## Where the sources are -/

/-- A walk stands in a directory, and the names from its root lead there. -/
structure Stands (w : Walk) (d : Disk) (s : Standing) : Prop where
  directory : d.nodeAt s.location = some .directory
  leads : d.Leads (w.pathOf s.names) s.location

/-- The path under one more name, by `pathOf`, goes on with it. -/
theorem pathOf_concat (w : Walk) (names : List Bytes) (name : Bytes) :
    w.pathOf (names ++ [name]) = into (w.pathOf names) name := by
  rw [pathOf, List.foldl_append]
  rfl

/-- A walk stands in the directory that it enters. -/
theorem Stands.enter (hs : w.Stands d s) (hd : d.Sound) {l : Location}
    (hmet : w.met? d s name = some (.directory l)) : w.Stands d (w.enter d s name l) := by
  obtain ⟨hdirectory, hwalk, _⟩ := met?_directory hd hs.directory hmet
  have hname := (name_of_met? hd (by rw [hmet]; simp)).2
  refine ⟨hdirectory, ?_⟩
  show d.Leads (w.pathOf (s.names ++ [name])) l
  rw [pathOf_concat]
  exact hs.leads.into hname hwalk

/-- What is collected under some names is the one path that they make. -/
theorem eq_of_mem_collect {names : List Bytes} (h : w.collect names = .ok ps) (hp : p ∈ ps) :
    w.collect names = .ok [p] ∧ Text.bytesOf p = w.pathOf names := by
  rw [collect] at h ⊢
  cases htext : Text.ofBytes? (w.pathOf names) with
  | none => simp [htext] at h
  | some q =>
    simp only [htext, Except.ok.injEq] at h ⊢
    subst h
    split at hp
    · next hwants =>
      rw [List.mem_singleton] at hp
      subst hp
      exact ⟨if_pos hwants, Text.bytesOf_of_ofBytes? htext⟩
    · cases hp

/-- What a walk finds it meets as a file under a name where it stands. -/
theorem exists_entry (hd : d.Sound) (hs : w.Stands d s) (hbelow : w.below d n s = .ok ps) (hp : p ∈ ps) :
    ∃ s' name l, w.Stands d s' ∧ w.met? d s' name = some .file ∧
      d.walkOver true mostLinks s'.location [name] = .ok (.found l) ∧
        (s'.names ++ [name], l) ∈ w.visits d n s ∧ w.collect (s'.names ++ [name]) = .ok [p] := by
  induction n generalizing s ps with
  | zero =>
    cases hbelow
    cases hp
  | succ n ih =>
    rw [below_succ hd] at hbelow
    obtain ⟨name, hname, us, hus, hmem⟩ := exists_of_mem_gather hbelow hp
    -- the file is met right there, or further down
    cases found_eq_ok_iff.mp hus with
    | other | leftFile | leftDirectory => cases hmem
    | file hmet hkept hcollect =>
      obtain ⟨l, _, _, hwalk⟩ := met?_file hd hs.directory hmet
      obtain ⟨hcollect, _⟩ := eq_of_mem_collect hcollect hmem
      exact ⟨s, name, l, hs, hmet, hwalk, file_mem_visits hname hmet hkept hwalk, hcollect⟩
    | directory hmet hkept hbelow =>
      obtain ⟨s', name', l', hs', hmet', hwalk, hvisit, hcollect⟩ := ih (hs.enter hd hmet) hbelow hmem
      exact ⟨s', name', l', hs', hmet', hwalk, visits_enter_subset hname hmet hkept hvisit, hcollect⟩

/-- The path of what a walk meets as a file leads there. -/
theorem Stands.leads_name (hs : w.Stands d s) (hd : d.Sound) (hmet : w.met? d s name = some .file) {l : Location}
    (hwalk : d.walkOver true mostLinks s.location [name] = .ok (.found l))
    (hcollect : w.collect (s.names ++ [name]) = .ok [p]) : d.Leads (Text.bytesOf p) l := by
  have hslash := (name_of_met? hd (by rw [hmet]; simp)).2
  rw [(eq_of_mem_collect hcollect List.mem_cons_self).2, pathOf_concat]
  exact hs.leads.into hslash hwalk

/-! ## Whole walks -/

/-- What a walk meets from its root on. -/
def visited (w : Walk) (d : Disk) : List (List Bytes × Location) :=
  match d.locate true (Text.bytesOf w.root) with
  | .ok (.found root) => w.visits d (deepest d) (w.begin d root)
  | _ => []

/-- The directories whose rules a walk heeds: those above its root and those that it meets. -/
def ruled (w : Walk) (d : Disk) : List Location :=
  match d.locate true (Text.bytesOf w.root) with
  | .ok (.found root) => above root ++ (w.visited d).map Prod.snd
  | _ => []

theorem visited_eq (hroot : d.locate true (Text.bytesOf w.root) = .ok (.found root)) :
    w.visited d = w.visits d (deepest d) (w.begin d root) := by
  rw [visited, hroot]

theorem mem_ruled (hroot : d.locate true (Text.bytesOf w.root) = .ok (.found root)) {l : Location} :
    l ∈ w.ruled d ↔ l ∈ above root ∨ ∃ x ∈ w.visits d (deepest d) (w.begin d root), x.2 = l := by
  rw [ruled, hroot]
  simp [visited_eq hroot]

/-- A directory is found where its path leads. -/
theorem find_of_directory {path : Bytes} (hroot : d.locate true path = .ok (.found root))
    (hdirectory : d.nodeAt root = some .directory) : ∃ t, d.find true path = .ok (root, ⟨.directory, t⟩) := by
  rw [find, hroot]
  cases hat : d.at? root with
  | none => simp [nodeAt, hat] at hdirectory
  | some e =>
    obtain ⟨node, t⟩ := e
    simp only [nodeAt, hat, Option.map_some, Option.some.injEq] at hdirectory
    subst hdirectory
    exact ⟨t, by simp [bind, Except.bind, hat]⟩

theorem files_eq (hroot : d.locate true (Text.bytesOf w.root) = .ok (.found root))
    (hdirectory : d.nodeAt root = some .directory) :
    w.files d =
      if Path.components w.root = [standardInput] then .ok []
      else if w.heedsIgnoreFiles && (above root).any (Layer.isFlawed d) then
        .error (.walk "an ignore file above the root is no list of patterns")
      else (w.below d (deepest d) (w.begin d root)).map Path.sorted := by
  obtain ⟨t, hfind⟩ := find_of_directory hroot hdirectory
  have hexists : d.exists? w.root = true := by rw [Disk.exists?, hfind]; rfl
  have hleads : d.isDirectory w.root = true := by rw [Disk.isDirectory, hfind]
  have hflaw : ConfigError.ofRoot? d w.root = none := by simp [ConfigError.ofRoot?, hexists, hleads]
  rw [files, hflaw, hfind]

/-- How a walk finds files whose root is a directory: the standard input has none, and else they are below it. -/
inductive FindsFrom (w : Walk) (d : Disk) (root : Location) : List String → Prop
  | input (hinput : Path.components w.root = [standardInput]) : FindsFrom w d root []
  | below {qs : List String} (hinput : Path.components w.root ≠ [standardInput])
      (hflawed : ¬(w.heedsIgnoreFiles && (above root).any (Layer.isFlawed d)) = true)
      (hbelow : w.below d (deepest d) (w.begin d root) = .ok qs) : FindsFrom w d root (Path.sorted qs)

/-- A walk whose root is a directory finds files as `FindsFrom` says. -/
theorem files_eq_ok_iff (hroot : d.locate true (Text.bytesOf w.root) = .ok (.found root))
    (hdirectory : d.nodeAt root = some .directory) : w.files d = .ok ps ↔ w.FindsFrom d root ps := by
  rw [files_eq hroot hdirectory]
  constructor
  · intro h
    -- rules with a flaw above the root are an error
    split_ifs at h with hinput hflawed
    · cases h
      exact .input hinput
    · cases hbelow : w.below d (deepest d) (w.begin d root) with
      | error e =>
        rw [hbelow] at h
        cases h
      | ok qs =>
        rw [hbelow] at h
        cases h
        exact .below hinput hflawed hbelow
  · intro h
    cases h with
    | input hinput => rw [if_pos hinput]
    | below hinput hflawed hbelow =>
      rw [if_neg hinput, if_neg hflawed, hbelow]
      rfl

theorem files_of_gather (hd : d.Sound) (hroot : d.locate true (Text.bytesOf w.root) = .ok (.found root))
    (hdirectory : d.nodeAt root = some .directory) (hinput : Path.components w.root ≠ [standardInput])
    (hheeds : w.heedsIgnoreFiles = false) (hdeepest : deepest d = n + 1) {qs : List String}
    (hfound : gather (w.found d (w.below d n) (w.begin d root)) (d.names root) = .ok qs) :
    w.files d = .ok (Path.sorted qs) := by
  refine (files_eq_ok_iff hroot hdirectory).mpr (.below hinput (by simp [hheeds]) ?_)
  rw [hdeepest, below_succ hd]
  exact hfound

/-- A walk that finds files has a directory as its root. -/
theorem root_of_files (h : w.files d = .ok ps) :
    ∃ root, d.locate true (Text.bytesOf w.root) = .ok (.found root) ∧ d.nodeAt root = some .directory := by
  apply leadsToDirectory_iff.mp
  by_contra hnot
  have hflaw : ConfigError.ofRoot? d w.root ≠ none := by
    have hno : d.isDirectory w.root = false := Bool.eq_false_iff.mpr hnot
    rw [ConfigError.ofRoot?, hno]
    split <;> simp
  obtain ⟨e, he⟩ := Option.ne_none_iff_exists'.mp hflaw
  simp [files, he] at h

/-- A walk begins by `begin` in its root. -/
theorem stands_begin (hroot : d.locate true (Text.bytesOf w.root) = .ok (.found root))
    (hdirectory : d.nodeAt root = some .directory) : w.Stands d (w.begin d root) :=
  ⟨hdirectory, leads_of_locate hroot⟩

/-- A walk begins with the rules that it had before. -/
theorem begin_of_sameRules (h : w.heedsIgnoreFiles = true → ∀ l ∈ above root ++ [root], SameRules d d' l) :
    w.begin d' root = w.begin d root := by
  rw [begin, begin]
  cases hheeds : w.heedsIgnoreFiles with
  | false => rfl
  | true =>
    have hlayers : (above root ++ [root]).map (fun l => Layer.ofDirectory d' l l) =
        (above root ++ [root]).map fun l => Layer.ofDirectory d l l :=
      List.map_congr_left fun l hl => (h hheeds l hl).ofDirectory l
    simp only [hlayers]

/-- The rules above the root have a flaw if they had one. -/
theorem flawed_of_sameRules (h : w.heedsIgnoreFiles = true → ∀ l ∈ above root, SameRules d d' l) :
    (w.heedsIgnoreFiles && (above root).any (Layer.isFlawed d')) =
      (w.heedsIgnoreFiles && (above root).any (Layer.isFlawed d)) := by
  cases hheeds : w.heedsIgnoreFiles with
  | false => rfl
  | true =>
    rw [Bool.true_and, Bool.true_and, Bool.eq_iff_iff, List.any_eq_true, List.any_eq_true]
    exact exists_congr fun l => and_congr_right fun hl => by rw [(h hheeds l hl).isFlawed]

/-- The rules where a walk begins are the same if all those in `ruled` are. -/
theorem sameRules_begin (hroot : d.locate true (Text.bytesOf w.root) = .ok (.found root)) {e e' : Disk}
    (hrules : ∀ l ∈ w.ruled d, SameRules e e' l) : ∀ l ∈ above root ++ [root], SameRules e e' l := by
  intro l hl
  apply hrules l
  rw [mem_ruled hroot]
  rcases List.mem_append.mp hl with habove | hself
  · exact .inl habove
  · refine .inr ⟨_, standing_mem_visits w d _ _, ?_⟩
    exact (List.mem_singleton.mp hself).symm

/-- A walk finds what it found if that is so below its root. -/
theorem files_of_below (h : Grown written d d') (hroot : d.locate true (Text.bytesOf w.root) = .ok (.found root))
    (hdirectory : d.nodeAt root = some .directory)
    (hrules : w.heedsIgnoreFiles = true → ∀ l ∈ above root ++ [root], SameRules d d' l)
    (hbelow : ∀ qs, w.below d (deepest d) (w.begin d root) = .ok qs →
      w.below d' (deepest d') (w.begin d root) = .ok qs)
    (hfiles : w.files d = .ok ps) : w.files d' = .ok ps := by
  have hroot' := (locate_of_grown h (hroot ▸ settles_found root)).trans hroot
  have habove (hheeds : w.heedsIgnoreFiles = true) : ∀ l ∈ above root, SameRules d d' l :=
    fun l hl => hrules hheeds l (List.mem_append_left _ hl)
  rw [files_eq_ok_iff hroot hdirectory] at hfiles
  rw [files_eq_ok_iff hroot' (h.directory hdirectory)]
  cases hfiles with
  | input hinput => exact .input hinput
  | below hinput hflawed hqs =>
    refine .below hinput (by rwa [flawed_of_sameRules habove]) ?_
    rw [begin_of_sameRules hrules]
    exact hbelow _ hqs

/-- What a walk found it finds again, and nothing else, on a disk that grew from `d` to `d'`. -/
theorem files_of_grown (h : Grown written d d') (hd : d.Sound)
    (hrules : w.heedsIgnoreFiles = true → ∀ l ∈ w.ruled d', SameRules d d' l)
    (hsources : ∀ x ∈ w.visited d', x.2 ∈ written → w.collect x.1 = .ok [])
    (hfiles : w.files d = .ok ps) : w.files d' = .ok ps := by
  obtain ⟨root, hroot, hdirectory⟩ := root_of_files hfiles
  have hroot' := (locate_of_grown h (hroot ▸ settles_found root)).trans hroot
  have hsame (hheeds : w.heedsIgnoreFiles = true) : ∀ l ∈ above root ++ [root], SameRules d d' l :=
    sameRules_begin hroot' (hrules hheeds)
  have hbegin := begin_of_sameRules hsame
  rw [visited_eq hroot', hbegin] at hsources
  have hvisits (hheeds : w.heedsIgnoreFiles = true) :
      ∀ x ∈ w.visits d' (deepest d') (w.begin d root), SameRules d d' x.2 := by
    intro x hx
    rw [← hbegin] at hx
    exact hrules hheeds x.2 ((mem_ruled hroot').mpr (.inr ⟨x, hx, rfl⟩))
  refine files_of_below h hroot hdirectory hsame (fun qs hqs => ?_) hfiles
  -- what is new was no room for more directories
  rw [below_deepest_of_grown h hd hdirectory] at hqs
  exact below_of_grown h hd hdirectory hvisits hsources hqs

/-- What a walk found it finds again if nothing but files is written over. -/
theorem files_alike (h : Grown written d d') (h' : Grown written' d' d) (hd : d.Sound)
    (hrules : w.heedsIgnoreFiles = true → ∀ l ∈ w.ruled d, SameRules d d' l)
    (hfiles : w.files d = .ok ps) : w.files d' = .ok ps := by
  obtain ⟨root, hroot, hdirectory⟩ := root_of_files hfiles
  have hvisits (hheeds : w.heedsIgnoreFiles = true) :
      ∀ x ∈ w.visits d (deepest d) (w.begin d root), SameRules d d' x.2 :=
    fun x hx => hrules hheeds x.2 ((mem_ruled hroot).mpr (.inr ⟨x, hx, rfl⟩))
  refine files_of_below h hroot hdirectory (fun hheeds => sameRules_begin hroot (hrules hheeds))
    (fun qs hqs => ?_) hfiles
  rw [below_deepest_of_grown h' (h.sound hd) (h.directory hdirectory), below_alike h h' hd hvisits, hqs]

/-- What a walk found it met as a file under a name where it stood. -/
theorem entry_of_mem_files (hd : d.Sound) (hfiles : w.files d = .ok ps) (hp : p ∈ ps) :
    ∃ s name l, w.Stands d s ∧ w.met? d s name = some .file ∧
      d.walkOver true mostLinks s.location [name] = .ok (.found l) ∧
        (s.names ++ [name], l) ∈ w.visited d ∧ w.collect (s.names ++ [name]) = .ok [p] := by
  obtain ⟨root, hroot, hdirectory⟩ := root_of_files hfiles
  rw [files_eq_ok_iff hroot hdirectory] at hfiles
  rw [visited_eq hroot]
  cases hfiles with
  | input => cases hp
  | below _ _ hbelow => exact exists_entry hd (stands_begin hroot hdirectory) hbelow (by simpa [Path.sorted] using hp)

theorem visited_of_mem_files (hd : d.Sound) (hfiles : w.files d = .ok ps) (hp : p ∈ ps) :
    ∃ x ∈ w.visited d, w.collect x.1 = .ok [p] ∧ d.Leads (Text.bytesOf p) x.2 := by
  obtain ⟨s, name, l, hs, hmet, hwalk, hvisit, hcollect⟩ := entry_of_mem_files hd hfiles hp
  exact ⟨_, hvisit, hcollect, hs.leads_name hd hmet hwalk hcollect⟩

/-- Where a source was found is no file that was `written`. -/
theorem leads_of_mem_files (hd : d.Sound) (hsources : ∀ x ∈ w.visited d, x.2 ∈ written → w.collect x.1 = .ok [])
    (hfiles : w.files d = .ok ps) (hp : p ∈ ps) : ∃ l, d.Leads (Text.bytesOf p) l ∧ l ∉ written := by
  obtain ⟨x, hx, hcollect, hleads⟩ := visited_of_mem_files hd hfiles hp
  refine ⟨x.2, hleads, fun hwritten => ?_⟩
  rw [hsources x hx hwritten] at hcollect
  cases hcollect

/-- A source that a walk finds again is read by `readBytes` as before. -/
theorem readBytes_of_files (h : Grown written d d') (hd : d.Sound)
    (hsources : ∀ x ∈ w.visited d', x.2 ∈ written → w.collect x.1 = .ok [])
    (hfiles : w.files d = .ok ps) (hfiles' : w.files d' = .ok ps) (hp : p ∈ ps) :
    d'.readBytes (Text.bytesOf p) = d.readBytes (Text.bytesOf p) := by
  obtain ⟨x, _, _, hleads⟩ := visited_of_mem_files hd hfiles hp
  obtain ⟨l, hleads', hl⟩ := leads_of_mem_files (h.sound hd) hsources hfiles' hp
  apply hleads.readBytes h hd
  rwa [(hleads.of_grown h).unique hleads']

/-! ## Walks that follow no links -/

section Direct

/-- A walk that follows no links meets what is there, and passes links over. -/
theorem met?_direct (hlinks : w.followLinks = false) :
    w.met? d s name =
      match d.nodeAt (s.location ++ [name]) with
      | some (.file _) => some .file
      | some .directory => some (.directory (s.location ++ [name]))
      | some (.link _) => some .other
      | none => none := by
  rw [met?]
  cases d.nodeAt (s.location ++ [name]) with
  | none => rfl
  | some node =>
    cases node with
    | file c => rfl
    | directory => rfl
    | link t =>
      dsimp only
      rw [hlinks, Bool.not_false, if_pos rfl]

/-- It meets each thing under the names that lead to it from the root. -/
theorem direct_of_mem_visits (hlinks : w.followLinks = false) (hlocation : d.nodeAt s.location = some .directory)
    (hs : s.location = root ++ s.names) (hd : d.Sound) {x : List Bytes × Location} (hx : x ∈ w.visits d n s) :
    x.2 = root ++ x.1 ∧ d.nodeAt x.2 ≠ none := by
  induction n generalizing s with
  | zero =>
    rw [visits, List.mem_singleton] at hx
    exact hx ▸ ⟨hs, by simp [hlocation]⟩
  | succ n ih =>
    rw [visits, List.mem_cons, List.mem_flatMap] at hx
    rcases hx with rfl | ⟨name, _, hx⟩
    · exact ⟨hs, by simp [hlocation]⟩
    have hnext : s.location ++ [name] = root ++ (s.names ++ [name]) := by rw [hs, List.append_assoc]
    rw [visitsUnder, met?_direct hlinks] at hx
    cases hnode : d.nodeAt (s.location ++ [name]) with
    | none => simp [hnode] at hx
    | some node =>
      have hthere : d.nodeAt (s.location ++ [name]) ≠ none := by simp [hnode]
      have hname := (hd.name hthere).1
      cases node with
      | link t => simp [hnode] at hx
      | file c =>
        simp only [hnode, walkOver_name hlocation hname (.inr ⟨c, hnode⟩)] at hx
        split at hx
        · cases hx
        · rw [List.mem_singleton.mp hx]
          exact ⟨hnext, by simp [hnode]⟩
      | directory =>
        simp only [hnode] at hx
        split at hx
        · cases hx
        · exact ih hnode hnext hx

theorem direct_of_mem_visited (hlinks : w.followLinks = false)
    (hroot : d.locate true (Text.bytesOf w.root) = .ok (.found root)) (hdirectory : d.nodeAt root = some .directory)
    (hd : d.Sound) {x : List Bytes × Location} (hx : x ∈ w.visited d) :
    x.2 ∈ locationsOf d ∧ x = (x.2.drop root.length, x.2) := by
  rw [visited_eq hroot] at hx
  obtain ⟨hnames, hthere⟩ := direct_of_mem_visits hlinks hdirectory (List.append_nil root).symm hd hx
  refine ⟨mem_locationsOf hthere, Prod.ext ?_ rfl⟩
  rw [hnames, List.drop_left]

end Direct

end Walk

end PayloadAtlas
