import PayloadAtlas.Proofs.Disk.Directory
import PayloadAtlas.Proofs.Disk.Reading

/-!
# Disks from which files were taken

A path lies at the location of the entry that its last name stands for (`Disk.Lies`), be that a file or a link.
From a disk one may take what is at some locations (`Disk.without`). If files and links to files are taken, then
a path that leads to a directory still does (`Disk.walkOver_without`): it cannot have gone over any of them.
-/

namespace PayloadAtlas

theorem Association.lookup_filter {κ α : Type} [BEq κ] [LawfulBEq κ] (xs : List (κ × α)) (keep : κ → Bool) (k : κ) :
    (xs.filter fun x => keep x.1).lookup k = if keep k then xs.lookup k else none := by
  induction xs with
  | nil => simp
  | cons x xs ih =>
    obtain ⟨j, y⟩ := x
    by_cases hkj : k = j
    · subst hkj
      cases hkeep : keep k with
      | true => simp [hkeep]
      | false => simpa [hkeep] using ih
    · have hne : (k == j) = false := by simpa using hkj
      cases hj : keep j with
      | true => simpa [hj, List.lookup_cons, hne] using ih
      | false => simpa [hj, List.lookup_cons, hne] using ih

namespace Disk

open Classical in
/-- The disk without what is at the locations that are `gone`. -/
noncomputable def without (d : Disk) (gone : Location → Prop) : Disk :=
  { d with entries := d.entries.filter fun x => ¬gone x.1 }

/-- What `name` stands for in the directory `dir` is the file at `l`, be it by way of links. -/
def StandsForFile (d : Disk) (dir : Location) (name : Bytes) (l : Location) : Prop :=
  d.nodeAt dir = some .directory ∧ IsName name ∧ d.walkOver true mostLinks dir [name] = .ok (.found l) ∧
    ∃ c, d.nodeAt l = some (.file c)

/-- The locations that are `gone` are those of files and of links to files. -/
def AreFiles (d : Disk) (gone : Location → Prop) : Prop :=
  ∀ e, gone e → ∃ dir name l, e = dir ++ [name] ∧ d.StandsForFile dir name l

variable {d : Disk} {gone : Location → Prop} {l e : Location} {path name : Bytes}

/-! ## What is left -/

/-- What is not `gone` is as it was. -/
theorem nodeAt_without_of_not (h : ¬gone l) : (d.without gone).nodeAt l = d.nodeAt l := by
  classical
  rw [nodeAt, nodeAt, at?, at?]
  split_ifs
  · rfl
  · rw [without, Association.lookup_filter d.entries (fun k => decide ¬gone k), if_pos (by simpa using h)]

theorem nodeAt_without_of (h : gone l) (hl : l ≠ []) : (d.without gone).nodeAt l = none := by
  classical
  rw [nodeAt, at?, if_neg hl, without, Association.lookup_filter d.entries (fun k => decide ¬gone k),
    if_neg (by simpa using h)]
  rfl

/-- Put the other way round, the full disk retains what is left. -/
theorem retains_without (d : Disk) (gone : Location → Prop) : Retains [] (d.without gone) d where
  working := rfl
  kept := fun {l n} h => by
    refine ⟨n, ?_, rfl, fun _ => rfl⟩
    by_cases hgone : gone l
    · by_cases hl : l = []
      · subst hl
        exact h
      · rw [nodeAt_without_of hgone hl] at h
        cases h
    · rwa [nodeAt_without_of_not hgone] at h

theorem nodeAt_of_without {n : Node} (h : (d.without gone).nodeAt l = some n) : d.nodeAt l = some n := by
  obtain ⟨n', hn', -, hsame⟩ := (retains_without d gone).kept h
  rw [hn', hsame (by simp)]

/-- From a file no path goes on to anything else. -/
theorem eq_of_walkOver_file {n : Nat} {c : Content} {ps : List Bytes} {l' : Location}
    (hl : d.nodeAt l = some (.file c)) (h : d.walkOver true n l ps = .ok (.found l')) : l' = l := by
  cases ps with
  | nil =>
    rw [walkOver_nil] at h
    cases h
    rfl
  | cons piece rest =>
    rw [walkOver_cons, (Steps.inFile hl).step_eq] at h
    cases h

/-- What stands for a file is no directory itself. -/
theorem StandsForFile.ne_directory {dir : Location} (h : d.StandsForFile dir name l) :
    d.nodeAt (dir ++ [name]) ≠ some .directory := by
  obtain ⟨hdir, hname, hwalk, c, hc⟩ := h
  intro hnext
  have hfound : d.walkOver true mostLinks dir [name] = .ok (.found (dir ++ [name])) := by
    rw [walkOver_cons, (Steps.directory hdir hname hnext).step_eq]
    exact walkOver_nil d true mostLinks _
  rw [hfound] at hwalk
  cases hwalk
  rw [hnext] at hc
  cases hc

theorem AreFiles.ne_directory (h : d.AreFiles gone) (he : gone e) : d.nodeAt e ≠ some .directory := by
  obtain ⟨dir, name, l, rfl, hfile⟩ := h e he
  exact hfile.ne_directory

theorem AreFiles.nodeAt_directory (h : d.AreFiles gone) (hl : d.nodeAt l = some .directory) :
    (d.without gone).nodeAt l = some .directory := by
  rw [nodeAt_without_of_not fun hgone => h.ne_directory hgone hl, hl]

/-- A disk stays `Sound` when files, and links to files, are taken from it. -/
theorem sound_without (hd : d.Sound) (h : d.AreFiles gone) : (d.without gone).Sound where
  keys := List.Sublist.nodup (List.Sublist.map Prod.fst List.filter_sublist) hd.keys
  parent := fun {l name} hthere => by
    obtain ⟨n, hn⟩ := Option.ne_none_iff_exists'.mp hthere
    exact h.nodeAt_directory (hd.parent (by rw [nodeAt_of_without hn]; simp))
  name := fun {l name} hthere => by
    obtain ⟨n, hn⟩ := Option.ne_none_iff_exists'.mp hthere
    exact hd.name (by rw [nodeAt_of_without hn]; simp)

/-- A link over which a way to a directory goes is not `gone`: its target would be a file, and the rest of the way
would go on from there. -/
theorem AreFiles.not_gone_of_walkOver (h : d.AreFiles gone) {m : Nat} {here : Location} {piece t : Bytes}
    {rest : List Bytes} (hl : d.nodeAt l = some .directory) (hhere : d.nodeAt here = some .directory)
    (hname : IsName piece) (hnext : d.nodeAt (here ++ [piece]) = some (.link t)) (htarget : t ≠ [])
    (hwalk : d.walkOver true m (start here t) (cut t ++ rest) = .ok (.found l)) : ¬gone (here ++ [piece]) := by
  intro hgone
  obtain ⟨dir, name, f, heq, -, -, hfile, c, hc⟩ := h _ hgone
  obtain ⟨rfl, hname'⟩ := List.append_inj' heq rfl
  cases hname'
  rw [walkOver_cons, (Steps.link hhere hname hnext (by simp) htarget).step_eq] at hfile
  have hfile : d.walkOver true (mostLinks - 1) (start here t) (cut t ++ []) = .ok (.found f) := hfile
  rw [List.append_nil] at hfile
  obtain ⟨k, mid, hmid, hrest⟩ := walkOver_append_inv hwalk
  have hboth := walkOver_found_mono (Nat.le_max_left m (mostLinks - 1)) hmid
  rw [walkOver_found_mono (Nat.le_max_right m (mostLinks - 1)) hfile] at hboth
  cases hboth
  have hend := eq_of_walkOver_file hc hrest
  rw [hend, hc] at hl
  cases hl

/-- A way to a directory goes over no file, nor over a link to one, so `walkOver` is the same without them. -/
theorem walkOver_without (h : d.AreFiles gone) {n : Nat} {here : Location} {ps : List Bytes}
    (hl : d.nodeAt l = some .directory) (hwalk : d.walkOver true n here ps = .ok (.found l)) :
    (d.without gone).walkOver true n here ps = .ok (.found l) := by
  induction n, here, ps using walkOver_induction with
  | nil n here => rwa [walkOver_nil] at hwalk ⊢
  | cons n here piece rest ih ihlink =>
    rw [walkOver_cons] at hwalk
    rw [walkOver_cons]
    have hsteps := d.steps true here piece rest
    generalize d.step true here piece rest = s at hwalk hsteps
    cases hsteps with
    | stays hhere hpiece =>
      rw [(Steps.stays (h.nodeAt_directory hhere) hpiece).step_eq]
      exact ih here hwalk
    | up hhere hpiece =>
      rw [(Steps.up (h.nodeAt_directory hhere) hpiece).step_eq]
      exact ih _ hwalk
    | directory hhere hname hnext =>
      rw [(Steps.directory (h.nodeAt_directory hhere) hname (h.nodeAt_directory hnext)).step_eq]
      exact ih _ hwalk
    | file hhere hname hnext =>
      -- beyond a file there is nothing, so that it is where the path leads
      have hfile := eq_of_walkOver_file hnext hwalk
      rw [hfile, hnext] at hl
      cases hl
    | @link t hhere hname hnext hlast htarget =>
      cases n with
      | zero => cases hwalk
      | succ m =>
        have hgone := h.not_gone_of_walkOver hl hhere hname hnext htarget hwalk
        have hnext' : (d.without gone).nodeAt (here ++ [piece]) = some (.link t) := by
          rw [nodeAt_without_of_not hgone, hnext]
        rw [(Steps.link (h.nodeAt_directory hhere) hname hnext' hlast htarget).step_eq]
        exact ihlink m rfl _ _ hwalk
    | lastLink _ _ _ hlast => exact absurd hlast.2 (by simp)
    | nowhere | inFile | inLink | tooLong | free | missing | blankLink => cases hwalk

theorem locate_without (h : d.AreFiles gone) (hl : d.nodeAt l = some .directory)
    (hlocate : d.locate true path = .ok (.found l)) : (d.without gone).locate true path = .ok (.found l) := by
  rw [locate] at hlocate ⊢
  split_ifs at hlocate ⊢
  exact walkOver_without h hl hlocate

/-- If `path` leads to a file, it leads there without what was taken as well. -/
def KeepsFile (d : Disk) (gone : Location → Prop) (path : Bytes) : Prop :=
  ∀ l c, d.HoldsFile path l c → (d.without gone).HoldsFile path l c

theorem keepsFile_of_unread (h : (d.readBytes path).isOk = false) : d.KeepsFile gone path := by
  intro l c hfile
  rw [hfile.readBytes] at h
  cases h

/-- What `path` reads without what was taken, if it keeps its file. -/
theorem readBytes_without (hkept : d.KeepsFile gone path) :
    ((d.without gone).readBytes path).toOption = (d.readBytes path).toOption := by
  ext c
  have hiff : ∀ e : Disk, (e.readBytes path).toOption = some c ↔ ∃ l, e.HoldsFile path l c := by
    intro e
    rw [← readBytes_eq_ok_iff]
    cases e.readBytes path <;> simp [Except.toOption]
  rw [hiff, hiff]
  constructor
  · rintro ⟨l, hlocate, hl⟩
    have hlocate' := locate_of_retains (retains_without d gone) (hlocate ▸ settles_found l)
    exact ⟨l, hlocate'.trans hlocate, nodeAt_of_without hl⟩
  · rintro ⟨l, hl⟩
    exact ⟨l, hkept l c hl⟩

/-- By a path to what was taken `readBytes` reads nothing. -/
theorem readBytes_without_of_gone (hl : d.locate true path = .ok (.found l)) (hgone : gone l) (hne : l ≠ []) :
    ((d.without gone).readBytes path).toOption = none := by
  cases hread : (d.without gone).readBytes path with
  | error e => rfl
  | ok c =>
    obtain ⟨m, hlocate, hm⟩ := readBytes_eq_ok_iff.mp hread
    have hbefore := locate_of_retains (retains_without d gone) (hlocate ▸ settles_found m)
    rw [hl, hlocate] at hbefore
    cases hbefore
    rw [nodeAt_without_of hgone hne] at hm
    cases hm

/-! ## Where a path lies -/

/-- All but its last name leads the path to a directory, and that name stands there for the location `l`. -/
def Lies (d : Disk) (path : Bytes) (l : Location) : Prop :=
  ∃ parent dir name, path = into parent name ∧ slash ∉ name ∧ d.Leads parent dir ∧ l = dir ++ [name]

/-- The pieces of a path that lies at `l` are a way to a directory, and the last name of `l`. -/
theorem Lies.cut (h : d.Lies path l) :
    ∃ dir name init n, l = dir ++ [name] ∧ Disk.cut path = init ++ [name] ∧
      d.walkOver true n (start d.working path) init = .ok (.found dir) := by
  obtain ⟨parent, dir, name, rfl, hslash, ⟨hempty, n, hn⟩, rfl⟩ := h
  rw [start_into _ hempty, into]
  split_ifs with hopen
  · obtain ⟨init, rfl⟩ := List.getLast?_eq_some_iff.mp hopen
    rw [cut_append_slash] at hn
    obtain ⟨k, mid, hmid, hblank⟩ := walkOver_append_inv hn
    have hmid' : mid = dir := walkOver_blank_found hblank
    refine ⟨dir, name, Disk.cut init, n, rfl, ?_, hmid' ▸ hmid⟩
    rw [List.append_assoc, List.singleton_append, cut_append_slash, cut_of_notMem hslash]
  · refine ⟨dir, name, Disk.cut parent, n, rfl, ?_, hn⟩
    rw [cut_append_slash, cut_of_notMem hslash]

/-- A path lies in one place. -/
theorem Lies.unique (h : d.Lies path l) (h' : d.Lies path e) : l = e := by
  obtain ⟨dir, name, init, m, rfl, hcut, hm⟩ := h.cut
  obtain ⟨dir', name', init', n, rfl, hcut', hn⟩ := h'.cut
  rw [hcut] at hcut'
  obtain ⟨rfl, hname⟩ := List.append_inj' hcut' rfl
  have hboth := walkOver_found_mono (Nat.le_max_left m n) hm
  rw [walkOver_found_mono (Nat.le_max_right m n) hn] at hboth
  cases hboth
  rw [hname]

/-- One of the `paths` lies at the location `l`. -/
def LieAt (d : Disk) (paths : List String) (l : Location) : Prop := ∃ p ∈ paths, d.Lies (Text.bytesOf p) l

/-- Taking what lies at the path `p` is dropping the entry of its location. -/
theorem without_lieAt_singleton {p : String} (h : d.Lies (Text.bytesOf p) l) :
    d.without (d.LieAt [p]) = { d with entries := d.entries.filter fun x => x.1 ≠ l } := by
  have hgone : ∀ m, d.LieAt [p] m ↔ m = l := by
    intro m
    constructor
    · rintro ⟨q, hq, hm⟩
      obtain rfl := List.mem_singleton.mp hq
      exact hm.unique h
    · rintro rfl
      exact ⟨p, List.mem_cons_self, h⟩
  simp [without, hgone]

end Disk

end PayloadAtlas
