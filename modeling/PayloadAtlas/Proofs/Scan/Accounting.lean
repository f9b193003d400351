import PayloadAtlas.Proofs.Model.History
import PayloadAtlas.Proofs.Scan.Omission
import PayloadAtlas.Proofs.Scan.Repetition

/-!
# Files that are left out

A file that cannot be read or has a syntax error (`SourceFile.isBad`) gives an error of its own, and the rest of a
scan is as if the file were not there (`Scanner.isolates_of_files`). The counters of a scan say so as well. They
are updated while the files are analysed, in any order, and what they said before does not matter
(`Scanner.foldl_updates`).
-/

namespace PayloadAtlas

open Disk

/-! ## Bad files -/

/-- An error that a scan goes on after, and that is about the file at `path`. -/
def ScanError.IsAbout (e : ScanError) (path : String) : Prop := e.isRecoverable = true ∧ e.path? = some path

namespace SourceFile

/-- Whether a file cannot be read, or its text is no module. -/
def isBad (d : Disk) (path : String) : Bool :=
  match d.readLossy path with
  | .error _ => true
  | .ok text => !(Python.Module.ofString text).isOk

variable {d : Disk} {path : String}

/-- A bad file gives an error about it in `analyze`. -/
theorem analyze_of_isBad (root : String) (h : isBad d path = true) :
    ∃ e, analyze d root path = .error e ∧ e.IsAbout path := by
  rw [isBad] at h
  rw [analyze]
  cases hread : d.readLossy path with
  | error cause => exact ⟨_, rfl, rfl, rfl⟩
  | ok text =>
    rw [hread] at h
    cases hmodule : Python.Module.ofString text with
    | error e => exact ⟨.parse path e, by simp only [hmodule], rfl, rfl⟩
    | ok contents => simp [hmodule, Except.isOk, Except.toBool] at h

/-- Every other file is read by `analyze`. -/
theorem analyze_of_not_isBad (root : String) (h : ¬isBad d path = true) : ∃ file, analyze d root path = .ok file := by
  rw [isBad] at h
  rw [analyze]
  cases hread : d.readLossy path with
  | error cause => simp [hread] at h
  | ok text =>
    rw [hread] at h
    cases hmodule : Python.Module.ofString text with
    | error e => simp [hmodule, Except.isOk, Except.toBool] at h
    | ok contents => simp [hmodule]

end SourceFile

namespace Analysed

variable {d : Disk} {root : String} {paths left : List String}

/-- Each bad file has an error in `errors`, in its place. -/
theorem errors_ofPaths (d : Disk) (root : String) (paths : List String) :
    (errors (ofPaths d root paths)).map Prod.fst = paths.filter (SourceFile.isBad d) ∧
      ∀ x ∈ errors (ofPaths d root paths), x.2.IsAbout x.1 := by
  induction paths with
  | nil => exact ⟨rfl, by simp [ofPaths, errors]⟩
  | cons p ps ih =>
    obtain ⟨hpaths, habout⟩ := ih
    -- a bad file puts its own error in front, and any other file none
    by_cases hbad : SourceFile.isBad d p = true
    · obtain ⟨e, he, hp⟩ := SourceFile.analyze_of_isBad root hbad
      have herrors : errors (ofPaths d root (p :: ps)) = (p, e) :: errors (ofPaths d root ps) := by
        simp [errors, ofPaths, he]
      rw [herrors, List.map_cons, hpaths, List.filter_cons_of_pos hbad]
      exact ⟨rfl, List.forall_mem_cons.mpr ⟨hp, habout⟩⟩
    · obtain ⟨file, hfile⟩ := SourceFile.analyze_of_not_isBad root hbad
      have herrors : errors (ofPaths d root (p :: ps)) = errors (ofPaths d root ps) := by
        simp [errors, ofPaths, hfile]
      rw [herrors, hpaths, List.filter_cons_of_neg hbad]
      exact ⟨rfl, habout⟩

/-- Bad files may be left out, and their errors with them. -/
theorem ofPaths_filter (root : String) (paths : List String) (hleft : ∀ p ∈ left, SourceFile.isBad d p = true) :
    files (ofPaths d root (paths.filter (· ∉ left))) = files (ofPaths d root paths) ∧
      errors (ofPaths d root (paths.filter (· ∉ left))) =
        (errors (ofPaths d root paths)).filter fun x => x.1 ∉ left := by
  induction paths with
  | nil => exact ⟨rfl, rfl⟩
  | cons p ps ih =>
    obtain ⟨hfiles, herrors⟩ := ih
    by_cases hp : p ∈ left
    · obtain ⟨e, he, -⟩ := SourceFile.analyze_of_isBad root (hleft p hp)
      rw [List.filter_cons_of_neg (by simpa using hp), hfiles, herrors]
      simp [files, errors, ofPaths, he, hp]
    · rw [List.filter_cons_of_pos (by simpa using hp)]
      simp only [ofPaths, files, errors, List.map_cons, List.filterMap_cons] at hfiles herrors ⊢
      rw [hfiles, herrors]
      cases SourceFile.analyze d root p with
      | ok file => exact ⟨rfl, rfl⟩
      | error e => simp [hp]

end Analysed

/-! ## Counters -/

/-- An update of the counters, which all scans of a scanner and their workers share. -/
inductive Stats.Update where
  | reset
  | discovered (n : UInt64)
  | analysed (a : Analysed)
  | models (n : UInt64)
  | handlers (n : UInt64)

/-- What an update makes of the counters `s`. -/
def Stats.update (s : Stats) : Update → Stats
  | .reset => {}
  | .discovered n => s.addDiscovered n
  | .analysed a => Analysed.count s a
  | .models n => s.addModels n
  | .handlers n => s.addHandlers n

namespace Analysed

/-- Two files may be counted by `count` in either order. -/
theorem count_comm (s : Stats) (a b : Analysed) : count (count s a) b = count (count s b) a := by
  have hcases : ∀ x : Analysed, (∀ s, count s x = s.addParsed) ∨ (∀ s, count s x = s.addReadError) ∨
      ∀ s, count s x = s.addParseError := by
    rintro ⟨p, e | file⟩
    · cases e <;> simp [count]
    · simp [count]
  rcases hcases a with ha | ha | ha <;> rcases hcases b with hb | hb | hb <;> simp only [ha, hb] <;> rfl

/-- It does not matter in which `order` files are counted. -/
theorem foldl_count_perm {as order : List Analysed} (h : order.Perm as) (s : Stats) :
    order.foldl count s = as.foldl count s :=
  h.foldl_eq' (fun a _ b _ s => count_comm s a b) s

/-- A file with an error is counted as one that was left out. -/
theorem count_error (s : Stats) (p : String) (e : ScanError) :
    (count s (p, .error e)).skipped = s.skipped + 1 ∧ (count s (p, .error e)).parsed = s.parsed ∧
      (count s (p, .error e)).discovered = s.discovered ∧ (count s (p, .error e)).models = s.models ∧
      (count s (p, .error e)).handlers = s.handlers := by
  refine ⟨?_, ?_⟩
  · cases e <;> simp only [count, Stats.skipped, Stats.addReadError, Stats.addParseError] <;> ac_rfl
  · cases e <;> exact ⟨rfl, rfl, rfl, rfl⟩

/-- Each file is counted as one that was `parsed` or as one that was `skipped`, and in no other counter. -/
theorem foldl_count (as : List Analysed) (s : Stats) :
    (as.foldl count s).parsed = s.parsed + UInt64.ofNat (files as).length ∧
      (as.foldl count s).skipped = s.skipped + UInt64.ofNat (errors as).length ∧
      (as.foldl count s).discovered = s.discovered ∧ (as.foldl count s).models = s.models ∧
      (as.foldl count s).handlers = s.handlers := by
  -- counters go round at their end, where adding is still associative
  have hadd : ∀ (a : UInt64) (n : Nat), a + 1 + UInt64.ofNat n = a + UInt64.ofNat (n + 1) := by
    intro a n
    rw [UInt64.ofNat_add, UInt64.add_comm (UInt64.ofNat n), ← UInt64.add_assoc]
    rfl
  -- one file after the other, from whatever the counters say
  induction as generalizing s with
  | nil => simp [files, errors]
  | cons a as ih =>
    obtain ⟨p, e | file⟩ := a
    · have herrors : errors ((p, .error e) :: as) = (p, e) :: errors as := rfl
      have hfiles : files ((p, .error e) :: as) = files as := rfl
      have hcount := count_error s p e
      rw [List.foldl_cons, herrors, hfiles, List.length_cons, ← hadd, ← hcount.1, ← hcount.2.1, ← hcount.2.2.1,
        ← hcount.2.2.2.1, ← hcount.2.2.2.2]
      exact ih (count s (p, .error e))
    · have herrors : errors ((p, .ok file) :: as) = errors as := rfl
      have hfiles : files ((p, .ok file) :: as) = file :: files as := rfl
      rw [List.foldl_cons, herrors, hfiles, List.length_cons, ← hadd]
      exact ih s.addParsed

theorem length_eq (as : List Analysed) : as.length = (files as).length + (errors as).length := by
  induction as with
  | nil => rfl
  | cons a as ih =>
    obtain ⟨p, e | file⟩ := a
    · show as.length + 1 = (files as).length + ((errors as).length + 1)
      omega
    · show as.length + 1 = (files as).length + 1 + (errors as).length
      omega

end Analysed

namespace Scanner

variable {s : Scanner} {d : Disk} {paths left : List String}

/-- The updates of one scan. Its files are counted in an `order` that is no matter of theirs. -/
def updates (s : Scanner) (d : Disk) (analysed order : List Analysed) : List Stats.Update :=
  let files := Analysed.files analysed
  let registry := Registry.ofFiles s.config.scan.modelRules files
  .reset :: .discovered (UInt64.ofNat analysed.length) :: order.map .analysed ++
    [.models (UInt64.ofNat registry.size),
      .handlers (UInt64.ofNat ((s.context d registry).shapes files).length)]

/-- Whatever the counters said before, and in whatever `order` files are counted, they come to say the same. -/
theorem foldl_updates (s : Scanner) (d : Disk) (time : String) {analysed order : List Analysed}
    (horder : order.Perm analysed) (before : Stats) :
    (s.updates d analysed order).foldl Stats.update before = (s.conclude d time analysed).stats := by
  have hfiles : ∀ t : Stats,
      (order.map Stats.Update.analysed).foldl Stats.update t = analysed.foldl Analysed.count t := by
    intro t
    rw [List.foldl_map, ← Analysed.foldl_count_perm horder]
    rfl
  rw [updates, List.cons_append, List.cons_append, List.foldl_cons, List.foldl_cons, List.foldl_append, hfiles]
  rfl

/-- The modules and names of the classes that are models. -/
def modelNames (rules : Python.ModelRules) (files : List SourceFile) : List (String × String) :=
  files.flatMap fun f =>
    (f.contents.classes.filter fun c => (c.kind? rules).isSome).map fun c => (f.module, c.name)

/-- Models are registered under the modules and names of their classes. -/
theorem map_qualifiedKey (rules : Python.ModelRules) (files : List SourceFile) :
    (files.flatMap (SourceFile.models rules)).map Registry.qualifiedKey = modelNames rules files := by
  rw [List.map_flatMap, modelNames]
  congr 1
  funext f
  rw [SourceFile.models]
  induction f.contents.classes with
  | nil => rfl
  | cons c cs ih =>
    cases hkind : c.kind? rules with
    | none => simpa [hkind] using ih
    | some kind => simpa [hkind, Registry.qualifiedKey] using ih

/-- The counters of a scan, `stats`, say what came of it. -/
structure Accounts (s : Scanner) (d : Disk) (analysed : List Analysed) (outcome : ScanOutcome) : Prop where
  discovered : outcome.stats.discovered =
    outcome.stats.parsed + outcome.stats.readErrors + outcome.stats.parseErrors
  skipped : outcome.stats.skipped = UInt64.ofNat outcome.errors.length
  handlers : outcome.stats.handlers = UInt64.ofNat outcome.summary.shapes.length
  models : outcome.stats.models =
    UInt64.ofNat (modelNames s.config.scan.modelRules (Analysed.files analysed)).toFinset.card
  shared : ∀ (before : Stats) (order : List Analysed), order.Perm analysed →
    (s.updates d analysed order).foldl Stats.update before = outcome.stats

/-- The counters of a scan give account of what it comes to by `conclude`. -/
theorem accounts_conclude (s : Scanner) (d : Disk) (time : String) (analysed : List Analysed) :
    s.Accounts d analysed (s.conclude d time analysed) := by
  obtain ⟨hparsed, hskipped, hdiscovered, hmodels, hhandlers⟩ :=
    Analysed.foldl_count analysed (({} : Stats).addDiscovered (UInt64.ofNat analysed.length))
  -- what is added once the files are counted changes none of their counters
  generalize hcounted : analysed.foldl Analysed.count
    (({} : Stats).addDiscovered (UInt64.ofNat analysed.length)) = counted at *
  have hstats : (s.conclude d time analysed).stats =
      { counted with
        models := counted.models +
          UInt64.ofNat (Registry.ofFiles s.config.scan.modelRules (Analysed.files analysed)).size
        handlers := counted.handlers + UInt64.ofNat (s.conclude d time analysed).summary.shapes.length } := by
    rw [← hcounted]
    rfl
  have herrors : (s.conclude d time analysed).errors = Analysed.errors analysed := rfl
  have hskipped : counted.readErrors + counted.parseErrors = UInt64.ofNat (Analysed.errors analysed).length :=
    hskipped.trans (UInt64.zero_add _)
  constructor
  · show (s.conclude d time analysed).stats.discovered = _
    rw [hstats]
    show counted.discovered = counted.parsed + counted.readErrors + counted.parseErrors
    rw [UInt64.add_assoc, hskipped, hparsed, hdiscovered]
    show 0 + UInt64.ofNat analysed.length = 0 + _ + _
    rw [UInt64.zero_add, UInt64.zero_add, Analysed.length_eq, UInt64.ofNat_add]
  · rw [hstats, herrors]
    exact hskipped
  · rw [hstats]
    show counted.handlers + _ = _
    rw [hhandlers]
    exact UInt64.zero_add _
  · rw [hstats, ← map_qualifiedKey, ← Registry.size_ofList]
    show counted.models + _ = _
    rw [hmodels]
    exact UInt64.zero_add _
  · intro before order horder
    exact foldl_updates s d time horder before

/-! ## Scans -/

/-- What a scan looks at is found as before when what lies at the sources `left` is taken. -/
structure Keeps (s : Scanner) (d : Disk) (paths left : List String) : Prop
    extends (Walk.ofConfig s.config.scan).Keeps d paths left where
  routes : s.registered = none → d.KeepsFile (d.LieAt left) (Text.bytesOf s.config.routesPath)
  realm : d.KeepsFile (d.LieAt left) (Text.bytesOf s.config.realmPath)
  baseline : d.KeepsFile (d.LieAt left) (Text.bytesOf s.config.payloadJsonPath)

/-- Bad files have errors, in the order of their paths, and do nothing else to the outcome. -/
structure Isolates (s : Scanner) (d : Disk) (time : String) (paths : List String) (outcome : ScanOutcome) : Prop where
  errors : outcome.errors.map Prod.fst = paths.filter (SourceFile.isBad d)
  about : ∀ x ∈ outcome.errors, x.2.IsAbout x.1
  ordered : (outcome.errors.map Prod.fst).Pairwise fun p q =>
    (Path.components p).map Path.key ≤ (Path.components q).map Path.key
  /-- Without some of them the summary is the same, and so are the other errors. -/
  without : ∀ left ⊆ paths.filter (SourceFile.isBad d), s.Keeps d paths left →
    ∃ rest, s.scan (d.without (d.LieAt left)) time = .ok rest ∧ rest.summary = outcome.summary ∧
      rest.errors = outcome.errors.filter fun x => x.1 ∉ left

/-- Without some of its bad files a scan comes to the same by `conclude`, but for their errors. -/
theorem conclude_without (hd : d.Sound) (hfiles : (Walk.ofConfig s.config.scan).files d = .ok paths)
    (hleft : left ⊆ paths.filter (SourceFile.isBad d)) (h : s.Keeps d paths left) (time : String) :
    ∃ rest, s.scan (d.without (d.LieAt left)) time = .ok rest ∧
      rest.summary = (s.conclude d time (Analysed.ofPaths d (Walk.ofConfig s.config.scan).root paths)).summary ∧
      rest.errors = (Analysed.errors (Analysed.ofPaths d (Walk.ofConfig s.config.scan).root paths)).filter
        fun x => x.1 ∉ left := by
  have hpaths : left ⊆ paths := fun p hp => (List.mem_filter.mp (hleft hp)).1
  have hgone := Walk.areFiles_of_files hd hfiles hpaths
  have hd' := sound_without hd hgone
  have hfiles' := Walk.files_without hd hfiles hpaths h.toKeeps
  have hsame : Analysed.ofPaths (d.without (d.LieAt left)) (Walk.ofConfig s.config.scan).root
      (paths.filter (· ∉ left)) =
        Analysed.ofPaths d (Walk.ofConfig s.config.scan).root (paths.filter (· ∉ left)) := by
    -- the sources that are left are read as before
    apply Analysed.ofPaths_congr
    intro p hp
    obtain ⟨x, _, _, hleads⟩ := Walk.visited_of_mem_files hd' hfiles' hp
    exact (hleads.readBytes_of_retains (retains_without d _) hd' (by simp)).symm
  obtain ⟨hgood, herrors⟩ := Analysed.ofPaths_filter (Walk.ofConfig s.config.scan).root paths
    fun p hp => (List.mem_filter.mp (hleft hp)).2
  refine ⟨_, scan_of_files hfiles' time, ?_, ?_⟩
  · -- neither the routes nor the realm nor the last summary has gone with them
    have hroutes : s.registeredRoutes (d.without (d.LieAt left)) = s.registeredRoutes d := by
      rw [registeredRoutes, registeredRoutes]
      cases hregistered : s.registered with
      | some routes => rfl
      | none => exact Artifacts.registeredRoutes_congr (readBytes_without (h.routes hregistered))
    have hrealm := Artifacts.realm_congr (readBytes_without h.realm)
    have hbaseline : (Artifacts.ofConfig s.config).baseline (d.without (d.LieAt left)) =
        (Artifacts.ofConfig s.config).baseline d := Artifacts.baseline_congr (readBytes_without h.baseline)
    have hcontext (registry : Registry) :
        s.context (d.without (d.LieAt left)) registry = s.context d registry := by
      rw [context, context, hroutes]
    simp only [conclude, hsame, hgood, hcontext, hrealm, hbaseline]
  · show Analysed.errors _ = _
    rw [hsame, herrors]

/-- A scan whose walk comes to an end goes on after each bad file, and gives account of it, as `Isolates` says. -/
theorem isolates_of_files (hd : d.Sound) (hfiles : (Walk.ofConfig s.config.scan).files d = .ok paths)
    (time : String) :
    ∃ outcome, s.scan d time = .ok outcome ∧ s.Isolates d time paths outcome ∧
      s.Accounts d (Analysed.ofPaths d (Walk.ofConfig s.config.scan).root paths) outcome := by
  obtain ⟨herrors, habout⟩ := Analysed.errors_ofPaths d (Walk.ofConfig s.config.scan).root paths
  refine ⟨_, scan_of_files hfiles time, ⟨herrors, habout, ?_, ?_⟩, accounts_conclude ..⟩
  · show ((Analysed.errors _).map Prod.fst).Pairwise _
    rw [herrors]
    exact (Walk.pairwise_files hfiles).filter _
  · intro left hleft hkeeps
    exact conclude_without hd hfiles hleft hkeeps time

/-! ## Files that refuse to be opened -/

/-- A source, and one that the user has no right to read. -/
def guardedDisk : Disk where
  entries := [([[119]], ⟨.directory, 0⟩), ([[119], Text.bytesOf "a.py"], ⟨.file (.bytes "x = 1\n".toUTF8), 0⟩),
    ([[119], Text.bytesOf "b.py"], ⟨.file (.refused "Permission denied (os error 13)"), 0⟩)]
  working := [[119]]

/-- A link to a source that the user has no right to read. -/
def aliasedDisk : Disk where
  entries := [([[119]], ⟨.directory, 0⟩), ([[119], Text.bytesOf "a"], ⟨.link (Text.bytesOf "b.py"), 0⟩),
    ([[119], Text.bytesOf "b.py"], ⟨.file (.refused "Permission denied (os error 13)"), 0⟩)]
  working := [[119]]

/-- A scanner of such a tree. -/
def ofGuarded (followLinks : Bool) : Scanner where
  config := { scan := { followLinks } }
  strategy := .usual

/-- What the walk meets on the two disks. -/
theorem looked_guardedDisk :
    guardedDisk.locate true (Text.bytesOf ".") = .ok (.found [[119]]) ∧ Walk.deepest guardedDisk = 14 + 1 ∧
      guardedDisk.names [[119]] = [Text.bytesOf "a.py", Text.bytesOf "b.py"] ∧
      aliasedDisk.locate true (Text.bytesOf ".") = .ok (.found [[119]]) ∧ Walk.deepest aliasedDisk = 14 + 1 ∧
      aliasedDisk.names [[119]] = [Text.bytesOf "a", Text.bytesOf "b.py"] := by
  refine ⟨by decide, by decide, ?_, by decide, by decide, ?_⟩
  · rw [names_of_pairwise (by decide)]
    decide
  · rw [names_of_pairwise (by decide)]
    decide

theorem sound_guardedDisk : guardedDisk.Sound ∧ aliasedDisk.Sound :=
  ⟨sound_of_entries (by decide), sound_of_entries (by decide)⟩

/-- On both disks the walk comes to an end, with the guarded source among what it found. -/
theorem files_guardedDisk :
    (Walk.ofConfig (ofGuarded false).config.scan).files guardedDisk = .ok ["./a.py", "./b.py"] ∧
      (Walk.ofConfig (ofGuarded true).config.scan).files aliasedDisk = .ok ["./b.py"] := by
  obtain ⟨hroot, hdeepest, hnames, hroot', hdeepest', hnames'⟩ := looked_guardedDisk
  have hsorted : Path.sorted ["./a.py", "./b.py"] = ["./a.py", "./b.py"] := List.mergeSort_of_pairwise (by decide)
  have hsingle : Path.sorted ["./b.py"] = ["./b.py"] := List.mergeSort_singleton _
  constructor
  · rw [← hsorted]
    apply Walk.files_of_gather sound_guardedDisk.1 hroot rfl (by decide) rfl hdeepest
    rw [hnames]
    decide
  · rw [← hsingle]
    apply Walk.files_of_gather sound_guardedDisk.2 hroot' rfl (by decide) rfl hdeepest'
    rw [hnames']
    decide

/-- A file that is `refused` is reported with what the system says. -/
theorem analyze_refused {d : Disk} {path message : String} (h : d.readLossy path = .error (.refused message))
    (root : String) : SourceFile.analyze d root path = .error (.read path message) := by
  rw [SourceFile.analyze, h]
  rfl

/-- A file that is `refused` is bad. -/
theorem isBad_refused {d : Disk} {path message : String} (h : d.readLossy path = .error (.refused message)) :
    SourceFile.isBad d path = true := by
  rw [SourceFile.isBad, h]

theorem readLossy_guardedDisk :
    guardedDisk.readLossy "./b.py" = .error (.refused "Permission denied (os error 13)") ∧
      aliasedDisk.readLossy "./b.py" = .error (.refused "Permission denied (os error 13)") := by
  decide

/-- None of the other files that a scan looks at is there, so that none goes with a source. -/
theorem keeps_guardedDisk (paths left : List String) : (ofGuarded false).Keeps guardedDisk paths left := by
  have hunread : ∀ path ∈ [(ofGuarded false).config.routesPath, (ofGuarded false).config.realmPath,
      (ofGuarded false).config.payloadJsonPath], (guardedDisk.readBytes (Text.bytesOf path)).isOk = false := by
    decide
  refine ⟨⟨?_, ?_, ?_⟩, ?_, ?_, ?_⟩
  · intro hheeds
    cases hheeds
  · intro hfollow
    cases hfollow
  · intro hfollow
    cases hfollow
  · intro _
    exact keepsFile_of_unread (hunread _ (by simp))
  · exact keepsFile_of_unread (hunread _ (by simp))
  · exact keepsFile_of_unread (hunread _ (by simp))

/-- The source that refuses to be opened has its error, and the other one is scanned as without it. -/
theorem isolates_guardedDisk :
    guardedDisk.Sound ∧
      (Walk.ofConfig (ofGuarded false).config.scan).files guardedDisk = .ok ["./a.py", "./b.py"] ∧
      SourceFile.analyze guardedDisk "." "./b.py" = .error (.read "./b.py" "Permission denied (os error 13)") ∧
      SourceFile.isBad guardedDisk "./b.py" = true ∧
      (ofGuarded false).Keeps guardedDisk ["./a.py", "./b.py"] ["./b.py"] ∧
      ∃ outcome, (ofGuarded false).scan guardedDisk "t1" = .ok outcome ∧
        (ofGuarded false).Isolates guardedDisk "t1" ["./a.py", "./b.py"] outcome ∧
        (ofGuarded false).Accounts guardedDisk
          (Analysed.ofPaths guardedDisk (Walk.ofConfig (ofGuarded false).config.scan).root ["./a.py", "./b.py"])
          outcome :=
  ⟨sound_guardedDisk.1, files_guardedDisk.1, analyze_refused readLossy_guardedDisk.1 ".",
    isBad_refused readLossy_guardedDisk.1, keeps_guardedDisk _ _,
    isolates_of_files sound_guardedDisk.1 files_guardedDisk.1 "t1"⟩

theorem lies_aliasedDisk : aliasedDisk.Lies (Text.bytesOf "./b.py") [[119], Text.bytesOf "b.py"] := by
  obtain ⟨-, -, -, hroot, -⟩ := looked_guardedDisk
  exact ⟨Text.bytesOf ".", [[119]], Text.bytesOf "b.py", by decide, by decide, leads_of_locate hroot, rfl⟩

theorem scan_aliasedDisk_without :
    ((ofGuarded true).scan (aliasedDisk.without (aliasedDisk.LieAt ["./b.py"])) "t1").isOk = false := by
  rw [without_lieAt_singleton lies_aliasedDisk]
  decide +kernel

/-! ## A path with too many letters -/

/-- The path `s`, with `n` dots after it, which all stay there. -/
def dotted : Nat → String
  | 0 => "s"
  | n + 1 => dotted n ++ "/" ++ "."

/-- The path of the file in `dotted n`. -/
def dottedFile (n : Nat) : String := dotted n ++ "/" ++ "b.py"

/-- What the file says: it is read as JSON, and is no module. -/
def dottedText : String := "\x7b\"a\":1\x7d"

/-- A tree with one file. -/
def dottedDisk : Disk where
  entries := [([[119]], ⟨.directory, 0⟩), ([[119], [115]], ⟨.directory, 0⟩),
    ([[119], [115], Text.bytesOf "b.py"], ⟨.file (.bytes dottedText.toUTF8), 0⟩)]
  working := [[119]]

/-- A scanner of that tree, which looks for the realm in the same file by another path. -/
def ofDotted (n : Nat) : Scanner where
  config := { scan := { rootPath := dotted n }, artifacts := { realmFile := "/w/s/b.py" } }
  strategy := .usual

/-- Where the file lies. -/
def dottedPlace : Location := [[119], [115], Text.bytesOf "b.py"]

theorem sound_dottedDisk : dottedDisk.Sound := sound_of_entries (by decide)

theorem looked_dottedDisk :
    dottedDisk.nodeAt [[119], [115]] = some .directory ∧
      dottedDisk.nodeAt dottedPlace = some (.file (.bytes dottedText.toUTF8)) ∧
      dottedDisk.names [[119], [115]] = [Text.bytesOf "b.py"] ∧ Walk.deepest dottedDisk = 19 + 1 ∧
      dottedDisk.locate true (Text.bytesOf "/w/s/b.py") = .ok (.found dottedPlace) := by
  decide +kernel

theorem read_names :
    (Path.pieces ".").filter Path.counts = [] ∧ (Path.pieces "b.py").filter Path.counts = ["b.py"] ∧
      Path.isAbsolute "/w/s/b.py" = true ∧ Text.bytesOf "s" = [115] ∧
      Text.bytesOf "." = [dot] ∧ IsName (Text.bytesOf "b.py") ∧ slash ∉ Text.bytesOf "b.py" ∧
      (Text.bytesOf "b.py").length = 4 := by
  decide

theorem dotted_ne_empty (n : Nat) : dotted n ≠ "" := by
  cases n with
  | zero => decide
  | succ n => simp [dotted, String.append_eq_empty_iff]

/-- Dots do not count among the `components`. -/
theorem components_dotted (n : Nat) : Path.components (dotted n) = ["s"] := by
  induction n with
  | zero => rfl
  | succ n ih =>
    rw [dotted, Path.components_append (dotted_ne_empty n), ih, read_names.1]
    rfl

/-- Each dot makes the path two bytes longer. -/
theorem bytesOf_dotted (n : Nat) :
    (Text.bytesOf (dotted n)).length = 2 * n + 1 ∧ 0 ∉ Text.bytesOf (dotted n) ∧
      (Text.bytesOf (dotted n)).head? = some 115 ∧ (Text.bytesOf (dotted n)).getLast? ≠ some slash ∧
      cut (Text.bytesOf (dotted n)) = [115] :: List.replicate n [dot] := by
  obtain ⟨-, -, -, hs, hdot, -⟩ := read_names
  induction n with
  | zero =>
    rw [dotted, hs]
    decide
  | succ n ih =>
    obtain ⟨hlength, hzero, hhead, -, hcut⟩ := ih
    rw [dotted, Text.bytesOf_slash, hdot, cut_append_slash, hcut]
    refine ⟨?_, ?_, ?_, ?_, ?_⟩
    · rw [List.length_append, hlength]
      simp
      omega
    · simp [hzero, slash, dot]
    · rw [List.head?_append, hhead]
      rfl
    · simp [slash, dot]
    · rw [List.cons_append, List.replicate_succ', cut_of_notMem (by decide)]

/-- Up to the longest path the dots lead nowhere else. -/
theorem locate_dotted {n : Nat} (hn : n ≤ 2047) :
    dottedDisk.locate true (Text.bytesOf (dotted n)) = .ok (.found [[119], [115]]) := by
  obtain ⟨hlength, hzero, hhead, -, hcut⟩ := bytesOf_dotted n
  have hdirectory := looked_dottedDisk.1
  have hworking := sound_dottedDisk.parent_dropLast hdirectory
  -- a dot stays in the directory where it is met
  have hstays : ∀ k, dottedDisk.walkOver true mostLinks [[119], [115]] (List.replicate k [dot]) =
      .ok (.found [[119], [115]]) := by
    intro k
    induction k with
    | zero => exact walkOver_nil _ _ _ _
    | succ k ih =>
      have hstep : Steps dottedDisk true [[119], [115]] [dot] (List.replicate k [dot]) (.goes [[119], [115]]) :=
        .stays hdirectory (.inr rfl)
      rw [List.replicate_succ, walkOver_cons, hstep.step_eq]
      exact ih
  have hstep : Steps dottedDisk true dottedDisk.working [115] (List.replicate n [dot])
      (.goes (dottedDisk.working ++ [[115]])) :=
    .directory hworking (by decide) hdirectory
  have hlong : ¬longestPath < (Text.bytesOf (dotted n)).length := by
    rw [hlength, longestPath]
    omega
  have hempty : Text.bytesOf (dotted n) ≠ [] := by
    intro hnil
    rw [hnil] at hlength
    simp at hlength
  rw [locate, if_neg hempty, if_neg hzero, if_neg hlong, hcut, start, hhead, if_neg (by decide), walkOver_cons,
    hstep.step_eq]
  exact hstays n

/-- By `collect` the walk gives the file the path that goes on from the root as it is written. -/
theorem collect_dotted (n : Nat) :
    (Walk.ofConfig (ofDotted n).config.scan).collect [Text.bytesOf "b.py"] = .ok [dottedFile n] := by
  have hpath : (Walk.ofConfig (ofDotted n).config.scan).pathOf [Text.bytesOf "b.py"] =
      Text.bytesOf (dottedFile n) := by
    rw [dottedFile, Text.bytesOf_slash]
    exact if_neg (bytesOf_dotted n).2.2.2.1
  have hcomponents : Path.components (dottedFile n) = ["s", "b.py"] := by
    rw [dottedFile, Path.components_append (dotted_ne_empty n), components_dotted, read_names.2.1]
    rfl
  have hextension : Path.extension? (dottedFile n) = some "py" := by
    rw [Path.extension?, Path.fileName?, hcomponents]
    rfl
  rw [Walk.collect, hpath, Text.ofBytes?_bytesOf]
  simp only [Walk.wants, hextension]
  rfl

/-- The walk finds the one file in `files`. -/
theorem files_dotted {n : Nat} (hn : n ≤ 2047) :
    (Walk.ofConfig (ofDotted n).config.scan).files dottedDisk = .ok [dottedFile n] := by
  obtain ⟨hdirectory, hfile, hnames, hdeepest, -⟩ := looked_dottedDisk
  have hinput : Path.components (dotted n) ≠ [Walk.standardInput] := by
    rw [components_dotted]
    decide
  have hfound : ∀ s : Walk.Standing, s.location ++ [Text.bytesOf "b.py"] = dottedPlace → s.names = [] → ∀ below,
      (Walk.ofConfig (ofDotted n).config.scan).found dottedDisk below s (Text.bytesOf "b.py") =
        .ok [dottedFile n] := by
    intro s hlocation hs below
    rw [Walk.found, Walk.met?, hlocation, hfile, hs]
    exact collect_dotted n
  have hsorted : Path.sorted [dottedFile n] = [dottedFile n] := List.mergeSort_singleton _
  rw [← hsorted]
  apply Walk.files_of_gather sound_dottedDisk (locate_dotted hn) hdirectory hinput rfl hdeepest
  rw [hnames, gather_singleton]
  exact hfound (Walk.begin _ _ _) rfl rfl _

/-- With as many dots the path of the file is too long to be opened. -/
theorem isBad_dotted {n : Nat} (hn : 2045 ≤ n) : SourceFile.isBad dottedDisk (dottedFile n) = true := by
  obtain ⟨-, -, -, -, -, -, -, hname⟩ := read_names
  have hlong : longestPath < (Text.bytesOf (dottedFile n)).length := by
    rw [dottedFile, Text.bytesOf_slash, List.length_append, (bytesOf_dotted n).1, List.length_cons, hname, longestPath]
    omega
  have hlocate : ∃ e, dottedDisk.locate true (Text.bytesOf (dottedFile n)) = .error e := by
    rw [locate]
    split_ifs <;> exact ⟨_, rfl⟩
  obtain ⟨e, he⟩ := hlocate
  rw [SourceFile.isBad, readLossy, Disk.read, readBytes, find, he]
  rfl

theorem lies_dotted {n : Nat} (hn : n ≤ 2047) : dottedDisk.Lies (Text.bytesOf (dottedFile n)) dottedPlace := by
  obtain ⟨-, -, -, -, -, -, hslash, -⟩ := read_names
  refine ⟨Text.bytesOf (dotted n), [[119], [115]], Text.bytesOf "b.py", ?_, hslash,
    leads_of_locate (locate_dotted hn), rfl⟩
  rw [into, if_neg (bytesOf_dotted n).2.2.2.1, dottedFile, Text.bytesOf_slash]

theorem realmPath_dotted (n : Nat) : (ofDotted n).config.realmPath = "/w/s/b.py" := if_pos read_names.2.2.1

/-- A tree where a link leads nowhere. -/
def danglingDisk : Disk where
  entries := [([[119]], ⟨.directory, 0⟩), ([[119], Text.bytesOf "a"], ⟨.link (Text.bytesOf "b"), 0⟩)]
  working := [[119]]

/-- A walk that follows links does not come to an end at one that leads nowhere, nor does one at a link that led to
a bad file which has gone. And a file that cannot be read by the path of a source may be read by another one, for what
it says about the realm. -/
theorem not_isolates :
    (∃ (s : Scanner) (d : Disk), d.Sound ∧ (s.scan d "t1").isOk = false) ∧
      (∃ (s : Scanner) (d : Disk) (paths : List String), d.Sound ∧
        (Walk.ofConfig s.config.scan).files d = .ok paths ∧ (∀ p ∈ paths, SourceFile.isBad d p = true) ∧
        (s.scan d "t1").isOk = true ∧ (s.scan (d.without (d.LieAt paths)) "t1").isOk = false) ∧
      ∃ (s : Scanner) (d : Disk) (paths : List String) (outcome rest : ScanOutcome), d.Sound ∧
        (Walk.ofConfig s.config.scan).files d = .ok paths ∧ (∀ p ∈ paths, SourceFile.isBad d p = true) ∧
        s.scan d "t1" = .ok outcome ∧ s.scan (d.without (d.LieAt paths)) "t1" = .ok rest ∧
        rest.summary ≠ outcome.summary := by
  refine ⟨?_, ?_, ?_⟩
  · refine ⟨ofGuarded true, danglingDisk, ?_, ?_⟩
    · exact sound_of_entries (by decide)
    · decide +kernel
  · have hbad : ∀ p ∈ ["./b.py"], SourceFile.isBad aliasedDisk p = true := by
      intro p hp
      rw [List.mem_singleton.mp hp]
      exact isBad_refused readLossy_guardedDisk.2
    have hscan := scan_of_files files_guardedDisk.2 "t1"
    exact ⟨ofGuarded true, aliasedDisk, ["./b.py"], sound_guardedDisk.2, files_guardedDisk.2, hbad, by rw [hscan]; rfl,
      scan_aliasedDisk_without⟩
  · have hfiles := files_dotted (n := 2047) (by omega)
    have hbad : ∀ p ∈ [dottedFile 2047], SourceFile.isBad dottedDisk p = true := by
      intro p hp
      rw [List.mem_singleton.mp hp]
      exact isBad_dotted (by omega)
    have hwalk : (Walk.ofConfig (ofDotted 2047).config.scan).Keeps dottedDisk [dottedFile 2047] [dottedFile 2047] :=
      ⟨nofun, nofun, nofun⟩
    have hrest := Walk.files_without sound_dottedDisk hfiles (List.Subset.refl _) hwalk
    refine ⟨_, _, _, _, _, sound_dottedDisk, hfiles, hbad, scan_of_files hfiles "t1", scan_of_files hrest "t1", ?_⟩
    obtain ⟨-, -, -, -, hplace⟩ := looked_dottedDisk
    intro hsame
    have hrealm := congrArg Summary.realmMetadata hsame
    simp only [conclude, realmPath_dotted 2047] at hrealm
    -- what is known about the realm has gone with the file
    have hgone : dottedDisk.LieAt [dottedFile 2047] dottedPlace := ⟨_, List.mem_cons_self, lies_dotted (by omega)⟩
    have hnone := readBytes_without_of_gone hplace hgone (by simp [dottedPlace])
    have hempty : (({} : Disk).read "/w/s/b.py").toOption = none ∧
        (Artifacts.realm {} "/w/s/b.py").numbers.length ≠ (Artifacts.realm dottedDisk "/w/s/b.py").numbers.length := by
      decide +kernel
    rw [Artifacts.realm_congr (hnone.trans hempty.1.symm)] at hrealm
    exact hempty.2 (congrArg (fun v => v.numbers.length) hrealm)

end Scanner

end PayloadAtlas
