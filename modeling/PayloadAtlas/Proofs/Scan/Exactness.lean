import PayloadAtlas.Proofs.Scan.Files

/-!
# What a walk finds

A walk that follows no links and heeds no ignore files finds the sources below its root, and nothing else: the regular
files with an extension that it looks for, in no directory that is excluded. It gives their paths in the order of
components, each once (`Walk.files_exact`).
-/

namespace PayloadAtlas

namespace Path

/-- The path `p` comes before `q`, component by component. -/
def Before (p q : String) : Prop := (components p).map key < (components q).map key

/-- Paths with different components are `sorted` without repetition. -/
theorem pairwise_before_sorted {ps : List String} (h : ps.Pairwise fun p q => components p ≠ components q) :
    (sorted ps).Pairwise Before := by
  have hne : (sorted ps).Pairwise fun p q => components p ≠ components q :=
    (List.mergeSort_perm ps _).symm.pairwise h fun hne => hne.symm
  refine ((pairwise_sorted ps).and hne).imp fun {p q} hpq => lt_of_le_of_ne hpq.1 fun hkeys => hpq.2 ?_
  exact List.map_injective_iff.mpr key_injective hkeys

/-- The bytes of a joined path, by `join`, are those of the directory, a slash if there is none at its end, and those
of the name. -/
theorem bytesOf_join {a t : String} (ha : a ≠ "") (ht : '/' ∉ t.toList) :
    Text.bytesOf (join a t) = Disk.into (Text.bytesOf a) (Text.bytesOf t) := by
  have hopen : (decide (a = "") || endsOpen a) = true ↔ (Text.bytesOf a).getLast? = some Disk.slash := by
    rw [decide_eq_false ha, Bool.false_or, endsOpen, beq_iff_eq, Text.getLast?_bytesOf_eq_slash]
  rw [join, isAbsolute_of_notMem ht, if_neg Bool.false_ne_true, Disk.into]
  split_ifs with h h' h'
  · exact Text.bytesOf_append a t
  · exact absurd (hopen.mp h) h'
  · exact absurd (hopen.mpr h') h
  · exact Text.bytesOf_slash a t

/-- A path that goes on with names has their components after its own. -/
theorem foldl_join {a : String} (ha : a ≠ "") {ts : List String} (hts : ∀ t ∈ ts, IsPart t) :
    components (ts.foldl join a) = components a ++ ts ∧
      Text.bytesOf (ts.foldl join a) = (ts.map Text.bytesOf).foldl Disk.into (Text.bytesOf a) := by
  induction ts generalizing a with
  | nil => exact ⟨(List.append_nil _).symm, rfl⟩
  | cons t ts ih =>
    obtain ⟨ht, hts⟩ := List.forall_mem_cons.mp hts
    obtain ⟨hcomponents, hbytes⟩ := ih (join_ne_empty ha ht.slash) hts
    rw [components_join ha ht.slash ht.counts, List.append_assoc, List.singleton_append] at hcomponents
    rw [bytesOf_join ha ht.slash] at hbytes
    exact ⟨hcomponents, hbytes⟩

end Path

namespace Disk

variable {d : Disk} {l : Location} {names : List Bytes}

/-- Whether whatever lies below the directory at `l` has texts as names. -/
def HasTexts (d : Disk) (l : Location) : Prop :=
  ∀ names, d.nodeAt (l ++ names) ≠ none → ∀ name ∈ names, ∃ t, Text.bytesOf t = name

/-- The names that lead to something are those of texts. -/
theorem HasTexts.exists_map (h : d.HasTexts l) (hthere : d.nodeAt (l ++ names) ≠ none) :
    ∃ ts : List String, ts.map Text.bytesOf = names := by
  have hnames := h names hthere
  clear hthere
  induction names with
  | nil => exact ⟨[], rfl⟩
  | cons name names ih =>
    obtain ⟨⟨t, ht⟩, hnames⟩ := List.forall_mem_cons.mp hnames
    obtain ⟨ts, hts⟩ := ih hnames
    exact ⟨t :: ts, by rw [List.map_cons, ht, hts]⟩

/-- The names that lead to something are components of its path, as `IsPart` says. -/
theorem Sound.isPart_of_mem (hd : d.Sound) {ts : List String} (h : d.nodeAt (l ++ ts.map Text.bytesOf) ≠ none) :
    ∀ t ∈ ts, Path.IsPart t := by
  induction ts generalizing l with
  | nil => simp
  | cons t ts ih =>
    rw [List.map_cons, ← List.singleton_append, ← List.append_assoc] at h
    -- the first name leads to a directory, or to the thing itself
    have hnext : d.nodeAt (l ++ [Text.bytesOf t]) ≠ none := by
      by_cases hts : ts = []
      · rwa [hts, List.map_nil, List.append_nil] at h
      · rw [hd.directory_above (by simpa using hts) h]
        simp
    obtain ⟨hname, hslash⟩ := hd.name hnext
    obtain ⟨hchars, hcounts, -⟩ := hname.text hslash
    exact List.forall_mem_cons.mpr ⟨⟨hchars, hcounts⟩, ih h⟩

end Disk

namespace Walk

open Disk

/-- A file that a walk meets and looks for. -/
structure IsSource (w : Walk) (d : Disk) (root : Location) (dirs : List Bytes) (name : Bytes) : Prop
    extends Meets w d root dirs name where
  wanted : w.LooksFor name

/-- The path to what lies under `names` below the root. -/
def pathTo (w : Walk) (names : List String) : String := names.foldl Path.join w.root

/-- What a walk finds, `found`, are the paths of the sources, in the order of components, each once. -/
structure Finds (w : Walk) (d : Disk) (root : Location) (ps : List String) : Prop where
  sorted : ps.Pairwise Path.Before
  exact : ∀ p, p ∈ ps ↔ ∃ dirs name,
    w.IsSource d root (dirs.map Text.bytesOf) (Text.bytesOf name) ∧ p = w.pathTo (dirs ++ [name])
  /-- No path goes over a link, or to one. -/
  direct : ∀ p ∈ ps, ∀ names, Path.components w.root ++ names <+: Path.components p →
    ∀ t, d.nodeAt (root ++ names.map Text.bytesOf) ≠ some (.link t)

variable {w : Walk} {d : Disk} {root : Location} {ts : List String} {p : String}

theorem pathTo_of_nodeAt (hd : d.Sound) (hroot : w.root ≠ "") (h : d.nodeAt (root ++ ts.map Text.bytesOf) ≠ none) :
    Path.components (w.pathTo ts) = Path.components w.root ++ ts ∧
      Text.bytesOf (w.pathTo ts) = w.pathOf (ts.map Text.bytesOf) :=
  Path.foldl_join hroot (hd.isPart_of_mem h)

theorem root_ne_empty (hroot : d.locate true (Text.bytesOf w.root) = .ok (.found root)) : w.root ≠ "" := by
  intro hempty
  rw [hempty] at hroot
  cases hroot

/-- Whether the walk `wants` a path is a matter of the last name. -/
theorem wants_pathTo_iff (hd : d.Sound) (hroot : w.root ≠ "") {dirs : List String} {name : String}
    (h : d.nodeAt (root ++ (dirs ++ [name]).map Text.bytesOf) ≠ none) :
    w.wants (w.pathTo (dirs ++ [name])) = true ↔ w.LooksFor (Text.bytesOf name) := by
  have hbytes := (pathTo_of_nodeAt (w := w) hd hroot h).2
  rw [List.map_append, List.map_singleton, pathOf_concat] at hbytes
  rw [List.map_append, List.map_singleton, ← List.append_assoc] at h
  obtain ⟨hname, hslash⟩ := hd.name h
  exact wants_iff hname hslash hbytes

/-- What a walk takes of the file under `names`: its path, or nothing. -/
def taken (w : Walk) (names : List Bytes) : List String := (w.collect names).toOption.getD []

theorem taken_of_nodeAt (hd : d.Sound) (hroot : w.root ≠ "") (h : d.nodeAt (root ++ ts.map Text.bytesOf) ≠ none) :
    w.collect (ts.map Text.bytesOf) = .ok (w.taken (ts.map Text.bytesOf)) ∧
      w.taken (ts.map Text.bytesOf) = if w.wants (w.pathTo ts) then [w.pathTo ts] else [] := by
  rw [taken, collect_of_bytesOf (pathTo_of_nodeAt hd hroot h).2]
  exact ⟨rfl, rfl⟩

theorem components_of_mem_taken (hd : d.Sound) (hroot : w.root ≠ "")
    (h : d.nodeAt (root ++ ts.map Text.bytesOf) ≠ none) (hp : p ∈ w.taken (ts.map Text.bytesOf)) :
    Path.components p = Path.components w.root ++ ts := by
  rw [(taken_of_nodeAt hd hroot h).2] at hp
  split at hp
  · rw [List.mem_singleton.mp hp, (pathTo_of_nodeAt hd hroot h).1]
  · cases hp

theorem Meets.nodeAt_ne_none {dirs : List String} {name : String}
    (h : w.Meets d root (dirs.map Text.bytesOf) (Text.bytesOf name)) :
    d.nodeAt (root ++ (dirs ++ [name]).map Text.bytesOf) ≠ none := by
  obtain ⟨c, hc⟩ := h.file
  rw [List.map_append, List.map_singleton, hc]
  exact Option.some_ne_none _

/-- No link is on the way to a file that is met. -/
theorem Meets.ne_link {dirs names : List String} {name : String} (hd : d.Sound)
    (h : w.Meets d root (dirs.map Text.bytesOf) (Text.bytesOf name)) (hnames : names <+: dirs ++ [name]) (t : Bytes) :
    d.nodeAt (root ++ names.map Text.bytesOf) ≠ some (.link t) := by
  obtain ⟨more, hmore⟩ := hnames
  by_cases hnil : more = []
  · obtain ⟨c, hc⟩ := h.file
    rw [hnil, List.append_nil] at hmore
    rw [hmore, List.map_append, List.map_singleton, hc]
    simp
  · have hthere := h.nodeAt_ne_none
    rw [← hmore, List.map_append, ← List.append_assoc] at hthere
    rw [hd.directory_above (by simpa using hnil) hthere]
    simp

section Texts

variable (hw : w.Plain) (hd : d.Sound) (hdirectory : d.nodeAt root = some .directory) (htexts : d.HasTexts root)

include hw hd hdirectory htexts

/-- The files that a walk meets, where all names are texts. -/
theorem mem_metFiles_texts_iff {x : List Bytes × Location} : x ∈ w.metFiles d root ↔
    ∃ dirs name, w.Meets d root (dirs.map Text.bytesOf) (Text.bytesOf name) ∧
      x = ((dirs ++ [name]).map Text.bytesOf, root ++ (dirs ++ [name]).map Text.bytesOf) := by
  rw [mem_metFiles_iff hw hd hdirectory]
  constructor
  · rintro ⟨dirs, name, hmeets, rfl⟩
    obtain ⟨c, hc⟩ := hmeets.file
    obtain ⟨ts, hts⟩ := htexts.exists_map (by rw [hc]; simp : d.nodeAt (root ++ (dirs ++ [name])) ≠ none)
    obtain ⟨dirs, last, rfl, rfl, hlast⟩ := List.map_eq_append_iff.mp hts
    obtain ⟨name, rfl, rfl⟩ := List.map_eq_singleton_iff.mp hlast
    exact ⟨dirs, name, hmeets, by rw [List.map_append, List.map_singleton]⟩
  · rintro ⟨dirs, name, hmeets, rfl⟩
    exact ⟨_, _, hmeets, by rw [List.map_append, List.map_singleton]⟩

/-- What is taken are the paths of the sources. -/
theorem mem_flatMap_taken_iff (hroot : w.root ≠ "") :
    p ∈ (w.metFiles d root).flatMap (fun x => w.taken x.1) ↔ ∃ dirs name,
      w.IsSource d root (dirs.map Text.bytesOf) (Text.bytesOf name) ∧ p = w.pathTo (dirs ++ [name]) := by
  rw [List.mem_flatMap]
  simp only [mem_metFiles_texts_iff hw hd hdirectory htexts]
  constructor
  · rintro ⟨x, ⟨dirs, name, hmeets, rfl⟩, hp⟩
    have hthere := hmeets.nodeAt_ne_none
    rw [(taken_of_nodeAt hd hroot hthere).2] at hp
    split at hp
    · next hwants =>
      exact ⟨dirs, name, ⟨hmeets, (wants_pathTo_iff hd hroot hthere).mp hwants⟩, List.mem_singleton.mp hp⟩
    · cases hp
  · rintro ⟨dirs, name, ⟨hmeets, hwanted⟩, rfl⟩
    have hthere := hmeets.nodeAt_ne_none
    refine ⟨_, ⟨dirs, name, hmeets, rfl⟩, ?_⟩
    rw [(taken_of_nodeAt hd hroot hthere).2, if_pos ((wants_pathTo_iff hd hroot hthere).mpr hwanted)]
    exact List.mem_singleton_self _

/-- Different files have paths with different components. -/
theorem pairwise_flatMap_taken (hroot : w.root ≠ "") :
    ((w.metFiles d root).flatMap fun x => w.taken x.1).Pairwise fun p q => Path.components p ≠ Path.components q := by
  rw [List.pairwise_flatMap]
  refine ⟨fun x hx => ?_, (pairwise_metFiles hd w root).imp_of_mem fun {x y} hx hy hlt p hp q hq heq => ?_⟩
  · obtain ⟨dirs, name, hmeets, rfl⟩ := (mem_metFiles_texts_iff hw hd hdirectory htexts).mp hx
    rw [(taken_of_nodeAt hd hroot hmeets.nodeAt_ne_none).2]
    split
    · exact List.pairwise_singleton _ _
    · exact .nil
  · obtain ⟨dirs, name, hmeets, rfl⟩ := (mem_metFiles_texts_iff hw hd hdirectory htexts).mp hx
    obtain ⟨dirs', name', hmeets', rfl⟩ := (mem_metFiles_texts_iff hw hd hdirectory htexts).mp hy
    rw [components_of_mem_taken hd hroot hmeets.nodeAt_ne_none hp,
      components_of_mem_taken hd hroot hmeets'.nodeAt_ne_none hq] at heq
    rw [List.append_cancel_left heq] at hlt
    exact List.lt_irrefl _ hlt

end Texts

/-- A walk `Finds` the sources below its root: their paths in the order of their components, each once. A root that
stands for the standard input is no directory to it. -/
theorem files_exact (hw : w.Plain) (hd : d.Sound) (hroot : d.locate true (Text.bytesOf w.root) = .ok (.found root))
    (hdirectory : d.nodeAt root = some .directory) (htexts : d.HasTexts root)
    (hinput : Path.components w.root ≠ [standardInput]) : ∃ ps, w.files d = .ok ps ∧ w.Finds d root ps := by
  have hempty := root_ne_empty hroot
  have hmem {p : String} := mem_flatMap_taken_iff (p := p) hw hd hdirectory htexts hempty
  -- no path is an error, so that the walk comes to an end with all that was taken
  have hfiles : w.files d = .ok (Path.sorted ((w.metFiles d root).flatMap fun x => w.taken x.1)) := by
    rw [files_eq_gather hw hd hdirectory hroot, if_neg hinput, gather_of_forall]
    · rfl
    · intro x hx
      obtain ⟨dirs, name, hmeets, rfl⟩ := (mem_metFiles_texts_iff hw hd hdirectory htexts).mp hx
      exact (taken_of_nodeAt hd hempty hmeets.nodeAt_ne_none).1
  refine ⟨_, hfiles, ?_, fun p => ?_, fun p hp names hnames => ?_⟩
  · exact Path.pairwise_before_sorted (pairwise_flatMap_taken hw hd hdirectory htexts hempty)
  · rw [← hmem, Path.sorted, List.mem_mergeSort]
  · rw [Path.sorted, List.mem_mergeSort, hmem] at hp
    obtain ⟨dirs, name, ⟨hmeets, -⟩, rfl⟩ := hp
    rw [(pathTo_of_nodeAt hd hempty hmeets.nodeAt_ne_none).1] at hnames
    exact hmeets.ne_link hd ((List.prefix_append_right_inj _).mp hnames)

/-! ## A small tree -/

/-- Sources in a directory and beside it, a source in `.venv`, a link, and other files. -/
def sourcesDisk : Disk where
  entries := [([[119]], ⟨.directory, 0⟩), ([[119], Text.bytesOf "a"], ⟨.directory, 0⟩),
    ([[119], Text.bytesOf "a", Text.bytesOf "b.py"], ⟨.file (.bytes .empty), 0⟩),
    ([[119], Text.bytesOf "a.py"], ⟨.file (.bytes .empty), 0⟩),
    ([[119], Text.bytesOf "a.pyi"], ⟨.file (.bytes .empty), 0⟩),
    ([[119], Text.bytesOf ".py"], ⟨.file (.bytes .empty), 0⟩), ([[119], Text.bytesOf ".venv"], ⟨.directory, 0⟩),
    ([[119], Text.bytesOf ".venv", Text.bytesOf "c.py"], ⟨.file (.bytes .empty), 0⟩),
    ([[119], Text.bytesOf "l.py"], ⟨.link (Text.bytesOf "a.py"), 0⟩)]
  working := [[119]]

/-- The walk of the directory at `.`, which leaves `.venv` out. -/
def sourcesWalk : Walk where
  root := "."
  excluded := [".venv"]

theorem looked_sourcesDisk :
    sourcesDisk.locate true (Text.bytesOf sourcesWalk.root) = .ok (.found [[119]]) ∧
      sourcesDisk.nodeAt [[119]] = some .directory ∧
      (∀ l ∈ locationsOf sourcesDisk, ∀ name ∈ l, (Text.ofBytes? name).isSome = true) ∧
      Path.components sourcesWalk.root ≠ [standardInput] := by
  decide

theorem hasTexts_sourcesDisk : sourcesDisk.HasTexts [[119]] := by
  intro names hthere name hname
  obtain ⟨-, -, htexts, -⟩ := looked_sourcesDisk
  have hsome := htexts _ (mem_locationsOf hthere) name (List.mem_append_right _ hname)
  obtain ⟨t, ht⟩ := Option.isSome_iff_exists.mp hsome
  exact ⟨t, Text.bytesOf_of_ofBytes? ht⟩

/-- The sources are found, in an order that is not that of characters, as `/` comes before `.`; and the link is not.
-/
theorem files_exact_sources : sourcesDisk.Sound ∧ ∃ ps, sourcesWalk.files sourcesDisk = .ok ps ∧
    sourcesWalk.Finds sourcesDisk [[119]] ps ∧ "./a/b.py" ∈ ps ∧ "./a.py" ∈ ps ∧
      Path.Before "./a/b.py" "./a.py" ∧ "./l.py" ∉ ps := by
  obtain ⟨hroot, hdirectory, -, hinput⟩ := looked_sourcesDisk
  have hd : sourcesDisk.Sound := sound_of_entries (by decide)
  have hw : sourcesWalk.Plain := ⟨rfl, rfl⟩
  obtain ⟨ps, hfiles, hfinds⟩ := files_exact hw hd hroot hdirectory hasTexts_sourcesDisk hinput
  have hextension (stem : String) (hstem : stem ≠ "") : sourcesWalk.LooksFor (Text.bytesOf (stem ++ "." ++ "py")) :=
    ⟨"py", by decide, hasExtension_bytesOf_iff.mpr (by rw [Path.splitName_append hstem (by decide)])⟩
  refine ⟨hd, ps, hfiles, hfinds, ?_, ?_, ?_, ?_⟩
  · refine (hfinds.exact _).mpr ⟨["a"], "b.py", ⟨⟨⟨_, rfl⟩, by decide⟩, hextension "b" (by decide)⟩, by decide⟩
  · refine (hfinds.exact _).mpr ⟨[], "a.py", ⟨⟨⟨_, rfl⟩, by decide⟩, hextension "a" (by decide)⟩, by decide⟩
  · rw [Path.Before, ← Path.not_notAfter_iff]
    decide
  · intro hlink
    exact hfinds.direct _ hlink ["l.py"] (by decide) _ rfl

end Walk

end PayloadAtlas
