import PayloadAtlas.Proofs.Disk.Removal
import PayloadAtlas.Proofs.Scan.Files

/-!
# Files that a walk does not look for

Regular files that a walk does not look for may come and go: it finds the same, or ends with the same error
(`Walk.files_of_bystanders`). But their paths have to be texts too, unless they lie in an excluded directory: the walk
ends at the first file that it meets whose path is no text, whatever its extension.
-/

namespace PayloadAtlas

namespace Disk

variable {d d' : Disk} {l : Location} {path : Bytes}

/-- The disks `d` and `d'` have the same directories and links, but not the same files. -/
structure SameButFiles (d d' : Disk) : Prop where
  working : d'.working = d.working
  files : ∀ l, d'.nodeAt l ≠ d.nodeAt l →
    (d.nodeAt l = none ∨ d.isFile l = true) ∧ (d'.nodeAt l = none ∨ d'.isFile l = true)

theorem SameButFiles.symm (h : SameButFiles d d') : SameButFiles d' d :=
  ⟨h.working.symm, fun l hne => (h.files l hne.symm).symm⟩

/-- A directory is one on both disks. -/
theorem SameButFiles.directory (h : SameButFiles d d') (hl : d.nodeAt l = some .directory) :
    d'.nodeAt l = some .directory := by
  by_contra hnot
  rcases (h.files l fun heq => hnot (heq.trans hl)).1 with hnone | hfile
  · rw [hl] at hnone
    cases hnone
  · rw [isFile, hl] at hfile
    cases hfile

/-- The files of `d` that are not on both disks. -/
def Gone (d d' : Disk) (l : Location) : Prop := d.isFile l = true ∧ d'.nodeAt l ≠ d.nodeAt l

/-- A file lies in a directory, under its name. -/
theorem areFiles_gone (hd : d.Sound) (d' : Disk) : d.AreFiles (Gone d d') := by
  rintro l ⟨hfile, -⟩
  obtain ⟨c, hc⟩ := isFile_iff.mp hfile
  rcases List.eq_nil_or_concat l with rfl | ⟨dir, name, rfl⟩
  · cases hc
  · rw [List.concat_eq_append] at hc ⊢
    have hthere : d.nodeAt (dir ++ [name]) ≠ none := by simp [hc]
    have hdir := hd.parent hthere
    have hname := (hd.name hthere).1
    refine ⟨dir, name, dir ++ [name], rfl, hdir, hname, ?_, c, hc⟩
    rw [walkOver_cons, (Steps.file hdir hname hc).step_eq]
    exact walkOver_nil d true _ _

/-- What is left of `d` without the files that are not on both disks is on both. -/
theorem SameButFiles.retains (h : SameButFiles d d') : Retains [] (d.without (Gone d d')) d' where
  working := h.working
  kept := fun {l n} hl => by
    have hbefore := nodeAt_of_without hl
    refine ⟨n, ?_, rfl, fun _ => rfl⟩
    -- otherwise the file would be one of those that were taken
    by_contra hnot
    have hne : d'.nodeAt l ≠ d.nodeAt l := fun heq => hnot (heq.trans hbefore)
    rcases (h.files l hne).1 with hnone | hfile
    · rw [hbefore] at hnone
      cases hnone
    · have hroot : l ≠ [] := by
        rintro rfl
        cases hfile
      rw [nodeAt_without_of ⟨hfile, hne⟩ hroot] at hl
      cases hl

theorem SameButFiles.locate (h : SameButFiles d d') (hd : d.Sound) (hl : d.nodeAt l = some .directory)
    (hlocate : d.locate true path = .ok (.found l)) : d'.locate true path = .ok (.found l) := by
  have hleft := locate_without (areFiles_gone hd d') hl hlocate
  exact (locate_of_retains h.retains (hleft ▸ settles_found l)).trans hleft

end Disk

namespace Walk

open Disk

/-- A file that makes no difference to the walk `w`, by the names that lead to it. -/
structure IsBystander (w : Walk) (dirs : List Bytes) (name : Bytes) : Prop where
  unwanted : ¬w.LooksFor name
  /-- Its path is a text, or it is not met. -/
  harmless : (∃ p, Text.bytesOf p = w.pathOf (dirs ++ [name])) ∨ ∃ dir ∈ dirs, dir ∈ w.excluded.map Text.bytesOf

variable {w : Walk} {d d' : Disk} {root : Location} {dirs : List Bytes} {name : Bytes} {x : List Bytes × Location}

/-- Whether a file is met depends on what is at its place alone. -/
theorem Meets.congr (h : d'.nodeAt (root ++ (dirs ++ [name])) = d.nodeAt (root ++ (dirs ++ [name]))) :
    w.Meets d' root dirs name ↔ w.Meets d root dirs name :=
  ⟨fun hmeets => ⟨h ▸ hmeets.file, hmeets.kept⟩, fun hmeets => ⟨h ▸ hmeets.file, hmeets.kept⟩⟩

/-- Nothing is taken by `collect` of a bystander that is met, and its path is no error. -/
theorem collect_of_isBystander (hd : d.Sound) (hmeets : w.Meets d root dirs name) (h : w.IsBystander dirs name) :
    w.collect (dirs ++ [name]) = .ok [] := by
  rcases h.harmless with ⟨p, hp⟩ | ⟨dir, hdir, hexcluded⟩
  · obtain ⟨c, hc⟩ := hmeets.file
    rw [← List.append_assoc] at hc
    obtain ⟨hname, hslash⟩ := hd.name (by rw [hc]; simp : d.nodeAt (root ++ dirs ++ [name]) ≠ none)
    have hwants : ¬w.wants p = true := fun hwants =>
      h.unwanted ((wants_iff hname hslash (hp.trans (pathOf_concat w dirs name))).mp hwants)
    rw [collect_of_bytesOf hp, if_neg hwants]
  · exact absurd hexcluded (hmeets.kept dir hdir)

/-- The disks differ below the directory at `root` in bystanders only. -/
structure SameButBystanders (w : Walk) (root : Location) (d d' : Disk) : Prop extends SameButFiles d d' where
  bystanders : ∀ l, d'.nodeAt l ≠ d.nodeAt l → ∃ dirs name, l = root ++ (dirs ++ [name]) ∧ w.IsBystander dirs name

theorem SameButBystanders.symm (h : w.SameButBystanders root d d') : w.SameButBystanders root d' d :=
  ⟨h.toSameButFiles.symm, fun l hne => h.bystanders l hne.symm⟩

theorem eq_of_pairwise_names {xs ys : List (List Bytes × Location)} (hxs : xs.Pairwise fun x y => x.1 < y.1)
    (hys : ys.Pairwise fun x y => x.1 < y.1) (h : ∀ x, x ∈ xs ↔ x ∈ ys) : xs = ys := by
  have hnodup {zs : List (List Bytes × Location)} (hzs : zs.Pairwise fun x y => x.1 < y.1) : zs.Nodup := by
    refine hzs.imp ?_
    rintro x _ hlt rfl
    exact List.lt_irrefl _ hlt
  exact ((List.perm_ext_iff_of_nodup (hnodup hxs) (hnodup hys)).mpr h).eq_of_pairwise
    (fun _ _ _ _ hab hba => absurd hba (List.lt_asymm hab)) hxs hys

section Same

variable (hw : w.Plain) (hd : d.Sound) (hdirectory : d.nodeAt root = some .directory)

include hw hd hdirectory

theorem gather_filter_metFiles (h : w.SameButBystanders root d d') :
    gather (fun x => w.collect x.1) ((w.metFiles d root).filter fun x => d'.nodeAt x.2 = d.nodeAt x.2) =
      gather (fun x => w.collect x.1) (w.metFiles d root) := by
  refine gather_filter_of_nil fun x hx hne => ?_
  obtain ⟨dirs, name, hmeets, rfl⟩ := (mem_metFiles_iff hw hd hdirectory).mp hx
  obtain ⟨dirs', name', hl, hbystander⟩ := h.bystanders _ (of_decide_eq_false hne)
  obtain ⟨rfl, hname⟩ := List.append_inj' (List.append_cancel_left hl) rfl
  obtain rfl := List.singleton_inj.mp hname
  exact collect_of_isBystander hd hmeets hbystander

/-- What is met on both disks is met in the same order on both. -/
theorem filter_metFiles_eq (hd' : d'.Sound) (hdirectory' : d'.nodeAt root = some .directory) :
    ((w.metFiles d' root).filter fun x => d.nodeAt x.2 = d'.nodeAt x.2) =
      (w.metFiles d root).filter fun x => d'.nodeAt x.2 = d.nodeAt x.2 := by
  refine eq_of_pairwise_names ((pairwise_metFiles hd' w root).filter _) ((pairwise_metFiles hd w root).filter _) ?_
  intro x
  rw [List.mem_filter, List.mem_filter, mem_metFiles_iff hw hd hdirectory, mem_metFiles_iff hw hd' hdirectory',
    decide_eq_true_eq, decide_eq_true_eq]
  constructor
  · rintro ⟨⟨dirs, name, hmeets, rfl⟩, hsame⟩
    exact ⟨⟨dirs, name, (Meets.congr hsame).mpr hmeets, rfl⟩, hsame.symm⟩
  · rintro ⟨⟨dirs, name, hmeets, rfl⟩, hsame⟩
    exact ⟨⟨dirs, name, (Meets.congr hsame).mpr hmeets, rfl⟩, hsame.symm⟩

/-- The walk ends with `notUtf8`, at the first file that it meets whose path is no text. -/
theorem exists_files_eq_error (hroot : d.locate true (Text.bytesOf w.root) = .ok (.found root))
    (hinput : Path.components w.root ≠ [standardInput]) (hmeets : w.Meets d root dirs name)
    (htext : ¬∃ p, Text.bytesOf p = w.pathOf (dirs ++ [name])) :
    ∃ dirs' name', w.Meets d root dirs' name' ∧ (¬∃ p, Text.bytesOf p = w.pathOf (dirs' ++ [name'])) ∧
      w.files d = .error (.notUtf8 (Text.lossy (w.pathOf (dirs' ++ [name'])))) := by
  have hmem := (mem_metFiles_iff hw hd hdirectory).mpr ⟨dirs, name, hmeets, rfl⟩
  have herror := collect_of_not_text htext
  obtain ⟨x, hx, e, hcollect, hgather⟩ := exists_gather_eq_error (f := fun x => w.collect x.1) hmem herror
  obtain ⟨dirs', name', hmeets', rfl⟩ := (mem_metFiles_iff hw hd hdirectory).mp hx
  -- only a path that is no text makes an error
  have htext' : ¬∃ p, Text.bytesOf p = w.pathOf (dirs' ++ [name']) := by
    rintro ⟨p, hp⟩
    rw [collect_of_bytesOf hp] at hcollect
    cases hcollect
  refine ⟨dirs', name', hmeets', htext', ?_⟩
  rw [collect_of_not_text htext'] at hcollect
  rw [files_eq_gather hw hd hdirectory hroot, if_neg hinput, hgather, ← hcollect]
  rfl

end Same

/-- Bystanders make no difference: the walk finds the same, or ends with the same error. A file that is met and is none
of them, since its path is no text, ends the walk. -/
theorem files_of_bystanders (hw : w.Plain) (hd : d.Sound) (hd' : d'.Sound)
    (hroot : d.locate true (Text.bytesOf w.root) = .ok (.found root)) (hdirectory : d.nodeAt root = some .directory) :
    (w.SameButBystanders root d d' → w.files d' = w.files d) ∧
    (Path.components w.root ≠ [standardInput] → ∀ dirs name, w.Meets d root dirs name →
      (¬∃ p, Text.bytesOf p = w.pathOf (dirs ++ [name])) →
        ∃ dirs' name', w.Meets d root dirs' name' ∧ (¬∃ p, Text.bytesOf p = w.pathOf (dirs' ++ [name'])) ∧
          w.files d = .error (.notUtf8 (Text.lossy (w.pathOf (dirs' ++ [name']))))) := by
  constructor
  · intro h
    have hroot' := h.locate hd hdirectory hroot
    have hdirectory' := h.directory hdirectory
    rw [files_eq_gather hw hd hdirectory hroot, files_eq_gather hw hd' hdirectory' hroot',
      ← gather_filter_metFiles hw hd hdirectory h, ← gather_filter_metFiles hw hd' hdirectory' h.symm,
      filter_metFiles_eq hw hd hdirectory hd' hdirectory']
  · intro hinput dirs name hmeets htext
    exact exists_files_eq_error hw hd hdirectory hroot hinput hmeets htext

/-! ## A file whose name is no text -/

/-- A source, and a directory `.venv` that is left out. -/
def quietDisk : Disk where
  entries := [([[119]], ⟨.directory, 0⟩), ([[119], Text.bytesOf ".venv"], ⟨.directory, 0⟩),
    ([[119], Text.bytesOf "a.py"], ⟨.file (.bytes .empty), 0⟩)]
  working := [[119]]

/-- The same with two more files. The one whose name is no text lies in `.venv`. -/
def busyDisk : Disk :=
  { quietDisk with entries := quietDisk.entries ++
      [([[119], Text.bytesOf "a.txt"], ⟨.file (.bytes .empty), 0⟩),
        ([[119], Text.bytesOf ".venv", [255]], ⟨.file (.bytes .empty), 0⟩)] }

/-- The name of a file with the extension `txt`, before which there is no text. -/
def brokenName : Bytes := 255 :: Text.bytesOf ".txt"

/-- The same with a file of this name beside the source. -/
def brokenDisk : Disk :=
  { quietDisk with entries := quietDisk.entries ++ [([[119], brokenName], ⟨.file (.bytes .empty), 0⟩)] }

/-- The walk of the directory at `.`, which leaves `.venv` out. -/
def venvWalk : Walk where
  root := "."
  excluded := [".venv"]

theorem sound_disks : quietDisk.Sound ∧ busyDisk.Sound ∧ brokenDisk.Sound :=
  ⟨sound_of_entries (by decide), sound_of_entries (by decide), sound_of_entries (by decide)⟩

theorem looked_disks :
    quietDisk.locate true (Text.bytesOf venvWalk.root) = .ok (.found [[119]]) ∧
      brokenDisk.locate true (Text.bytesOf venvWalk.root) = .ok (.found [[119]]) ∧
      quietDisk.nodeAt [[119]] = some .directory ∧ brokenDisk.nodeAt [[119]] = some .directory ∧
      Path.components venvWalk.root ≠ [standardInput] ∧
      Text.ofBytes? (venvWalk.pathOf [brokenName]) = none ∧
      (∀ name ∈ [Text.bytesOf "a.txt", [255], brokenName], ¬dot :: Text.bytesOf "py" <:+ name) := by
  decide

/-- None of the three names has an extension that is looked for. -/
theorem unwanted_names : ∀ name ∈ [Text.bytesOf "a.txt", [255], brokenName], ¬venvWalk.LooksFor name := by
  rintro name hname ⟨ext, hext, stem, -, -, rfl⟩
  obtain ⟨-, -, -, -, -, -, hsuffix⟩ := looked_disks
  obtain rfl := List.mem_singleton.mp hext
  exact hsuffix _ hname (List.suffix_append _ _)

/-- Where the other disks differ from `quietDisk`. -/
theorem differ_disks :
    (∀ l, busyDisk.nodeAt l ≠ quietDisk.nodeAt l →
      l = [[119], Text.bytesOf "a.txt"] ∨ l = [[119], Text.bytesOf ".venv", [255]]) ∧
    ∀ l, brokenDisk.nodeAt l ≠ quietDisk.nodeAt l → l = [[119], brokenName] := by
  have hlocations : (∀ l ∈ locationsOf quietDisk ++ locationsOf busyDisk, busyDisk.nodeAt l ≠ quietDisk.nodeAt l →
        l = [[119], Text.bytesOf "a.txt"] ∨ l = [[119], Text.bytesOf ".venv", [255]]) ∧
      ∀ l ∈ locationsOf quietDisk ++ locationsOf brokenDisk, brokenDisk.nodeAt l ≠ quietDisk.nodeAt l →
        l = [[119], brokenName] := by
    decide
  have hthere {d d' : Disk} {l : Location} (hne : d'.nodeAt l ≠ d.nodeAt l) : l ∈ locationsOf d ++ locationsOf d' := by
    by_cases hnone : d.nodeAt l = none
    · exact List.mem_append_right _ (mem_locationsOf fun hnone' => hne (hnone'.trans hnone.symm))
    · exact List.mem_append_left _ (mem_locationsOf hnone)
  exact ⟨fun l hne => hlocations.1 l (hthere hne) hne, fun l hne => hlocations.2 l (hthere hne) hne⟩

/-- The two files of `busyDisk` are bystanders: one is met and not looked for, and one is not met. -/
theorem sameButBystanders_busyDisk : venvWalk.SameButBystanders [[119]] quietDisk busyDisk where
  working := rfl
  files := fun l hne => by
    rcases differ_disks.1 l hne with rfl | rfl
    · exact ⟨.inl (by decide), .inr (by decide)⟩
    · exact ⟨.inl (by decide), .inr (by decide)⟩
  bystanders := fun l hne => by
    rcases differ_disks.1 l hne with rfl | rfl
    · exact ⟨[], Text.bytesOf "a.txt", rfl, unwanted_names _ (by decide), .inl ⟨"./a.txt", by decide⟩⟩
    · exact ⟨[Text.bytesOf ".venv"], [255], rfl, unwanted_names _ (by decide),
        .inr ⟨Text.bytesOf ".venv", by decide, by decide⟩⟩

theorem sameButFiles_brokenDisk : quietDisk.SameButFiles brokenDisk where
  working := rfl
  files := fun l hne => by
    obtain rfl := differ_disks.2 l hne
    exact ⟨.inl (by decide), .inr (by decide)⟩

theorem meets_brokenName : venvWalk.Meets brokenDisk [[119]] [] brokenName ∧
    ¬∃ p, Text.bytesOf p = venvWalk.pathOf ([] ++ [brokenName]) := by
  obtain ⟨-, -, -, -, -, hnone, -⟩ := looked_disks
  refine ⟨⟨⟨_, rfl⟩, by simp⟩, ?_⟩
  rintro ⟨p, hp⟩
  have hsome := Text.ofBytes?_bytesOf p
  rw [hp, List.nil_append, hnone] at hsome
  cases hsome

theorem names_quietDisk : quietDisk.names [[119]] = [Text.bytesOf ".venv", Text.bytesOf "a.py"] := by
  have hentries : (quietDisk.entries.filterMap (entryIn [[119]])).Pairwise
      (fun a b => (!decide (b.1 < a.1)) = true) := by
    decide
  rw [names_of_pairwise hentries]
  decide

/-- The source is found, and nothing else. -/
theorem files_quietDisk : venvWalk.files quietDisk = .ok ["./a.py"] := by
  obtain ⟨hroot, -, hdirectory, -⟩ := looked_disks
  have hw : venvWalk.Plain := ⟨rfl, rfl⟩
  -- the two names at the root are looked at one by one
  have hmet : venvWalk.metFiles quietDisk [[119]] = [([Text.bytesOf "a.py"], [[119], Text.bytesOf "a.py"])] := by
    have hdeepest : deepest quietDisk = 14 + 1 := by decide
    rw [metFiles, hdeepest, metBelow_succ hw sound_disks.1 hdirectory]
    show List.flatMap _ (quietDisk.names [[119]]) = _
    rw [names_quietDisk, List.flatMap_cons, List.flatMap_singleton]
    have hvenv : venvWalk.metUnder quietDisk 14 (venvWalk.begin quietDisk [[119]]) (Text.bytesOf ".venv") = [] := by
      decide
    have hfile : venvWalk.metUnder quietDisk 14 (venvWalk.begin quietDisk [[119]]) (Text.bytesOf "a.py") =
        [([Text.bytesOf "a.py"], [[119], Text.bytesOf "a.py"])] := by
      decide
    rw [hvenv, hfile, List.nil_append]
  have hcollect : venvWalk.collect [Text.bytesOf "a.py"] = .ok ["./a.py"] := by
    rw [collect_of_bytesOf (p := "./a.py") (by decide)]
    decide
  rw [files_eq_gather hw sound_disks.1 hdirectory hroot, if_neg (by decide), hmet, gather_singleton, hcollect]
  exact congrArg Except.ok (List.mergeSort_singleton _)

/-- Two files that come make no difference, and the one of `brokenDisk` does. -/
theorem files_of_bystanders_busy :
    venvWalk.Plain ∧ quietDisk.Sound ∧ venvWalk.SameButBystanders [[119]] quietDisk busyDisk ∧
      venvWalk.files busyDisk = venvWalk.files quietDisk ∧
      ∃ dirs name, venvWalk.Meets brokenDisk [[119]] dirs name ∧
        (¬∃ p, Text.bytesOf p = venvWalk.pathOf (dirs ++ [name])) ∧
          venvWalk.files brokenDisk = .error (.notUtf8 (Text.lossy (venvWalk.pathOf (dirs ++ [name])))) := by
  obtain ⟨hroot, hroot', hdirectory, hdirectory', hinput, -⟩ := looked_disks
  obtain ⟨hd, hbusy, hbroken⟩ := sound_disks
  have hw : venvWalk.Plain := ⟨rfl, rfl⟩
  have hsame := files_of_bystanders hw hd hbusy hroot hdirectory
  have herror := files_of_bystanders hw hbroken hbroken hroot' hdirectory'
  obtain ⟨hmeets, htext⟩ := meets_brokenName
  exact ⟨hw, hd, sameButBystanders_busyDisk, hsame.1 sameButBystanders_busyDisk, herror.2 hinput _ _ hmeets htext⟩

/-- A file that is not looked for comes, and nothing is found any more, as its path is no text. -/
theorem not_files_of_bystanders :
    venvWalk.Plain ∧ quietDisk.Sound ∧ brokenDisk.Sound ∧ quietDisk.SameButFiles brokenDisk ∧
      (∀ l, brokenDisk.nodeAt l ≠ quietDisk.nodeAt l → l = [[119]] ++ [brokenName]) ∧ ¬venvWalk.LooksFor brokenName ∧
      venvWalk.files quietDisk = .ok ["./a.py"] ∧ ∃ path, venvWalk.files brokenDisk = .error (.notUtf8 path) := by
  obtain ⟨-, hroot, -, hdirectory, hinput, -⟩ := looked_disks
  obtain ⟨hd, -, hbroken⟩ := sound_disks
  have hw : venvWalk.Plain := ⟨rfl, rfl⟩
  obtain ⟨hmeets, htext⟩ := meets_brokenName
  obtain ⟨dirs, name, -, -, herror⟩ := exists_files_eq_error hw hbroken hdirectory hroot hinput hmeets htext
  exact ⟨hw, hd, hbroken, sameButFiles_brokenDisk, differ_disks.2, unwanted_names _ (by decide), files_quietDisk, _,
    herror⟩

end Walk

end PayloadAtlas
