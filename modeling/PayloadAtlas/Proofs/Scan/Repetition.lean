import PayloadAtlas.Proofs.Drift
import PayloadAtlas.Proofs.Json.Range
import PayloadAtlas.Proofs.Scan.Baseline
import PayloadAtlas.Proofs.Scan.Visits

/-!
# Runs that are repeated

A second run finds nothing new, and a third one says what the second one said (`Scanner.run_again`), as long as
the artifacts are none of the files that a scan looks at (`Scanner.Apart`). The artifacts are then the only
files that the runs change, so all runs find the same sources and build the same shapes from them; and the
shapes that come back from the artifacts say the same as those that were written.
-/

namespace PayloadAtlas

open Disk Json

/-! ## Shapes that come back -/

/-- A shape that was written and read is `Alike` to what it was, registered or not. -/
theorem Shape.alike_reread (s : Shape) (registered : Bool) : Drift.Alike s.reread { s with registered } := by
  refine ⟨rfl, ?_⟩
  rw [signature, signature, reread]
  simp only [List.map_map, List.flatMap_map]
  rfl

/-- What is listed as registered matters to nothing else in a shape. -/
theorem Shape.shapes_registered (c : Shape.Context) (routes : List RegisteredRoute) (files : List SourceFile) :
    { c with registered := routes }.shapes files = (c.shapes files).map fun s =>
      { s with registered := { c with registered := routes }.lists s.method s.path } := by
  simp only [Shape.Context.shapes, List.map_flatMap, List.map_map]
  rfl

/-- Shapes that come back are `Alike` to those of other registered routes. -/
theorem Shape.forall₂_alike_reread (c : Shape.Context) (routes : List RegisteredRoute) (files : List SourceFile) :
    List.Forall₂ Drift.Alike ((c.shapes files).map Shape.reread) ({ c with registered := routes }.shapes files) := by
  rw [shapes_registered c routes, List.forall₂_map_left_iff, List.forall₂_map_right_iff, List.forall₂_same]
  exact fun s _ => s.alike_reread _

/-! ## What is read again -/

section Read

variable {d d' : Disk}

/-- Files that are read as before are analysed by `ofPaths` as before. -/
theorem Analysed.ofPaths_congr {root : String} {paths : List String}
    (h : ∀ p ∈ paths, d'.readBytes (Text.bytesOf p) = d.readBytes (Text.bytesOf p)) :
    Analysed.ofPaths d' root paths = Analysed.ofPaths d root paths := by
  apply List.map_congr_left
  intro p hp
  have hread : d'.readLossy p = d.readLossy p := by rw [readLossy, readLossy, Disk.read, Disk.read, h p hp]
  rw [SourceFile.analyze, SourceFile.analyze, hread]

/-- A file that is read as before says by `readFile` what it said. -/
theorem Artifacts.readFile_congr {α : Type} (decoder : Decoder α) {path : String}
    (h : d'.readBytes (Text.bytesOf path) = d.readBytes (Text.bytesOf path)) :
    readFile decoder d' path = readFile decoder d path := by
  have hread : d'.readText path = d.readText path := by rw [readText, readText, Disk.read, Disk.read, h]
  rw [readFile, readFile, hread]

/-- The `realm` before is the one after, or empty. -/
theorem Artifacts.realm_of_grown {written : List Location} (h : Grown written d d') (hd : d.Sound) {path : String}
    (hwritten : ∀ l, d'.locate true (Text.bytesOf path) = .ok (.found l) → l ∉ written) :
    realm d path = realm d' path ∨ realm d path = .object [] := by
  by_cases hsettles : Settles (d.locate true (Text.bytesOf path))
  · left
    have hread := readBytes_of_grown h hd hsettles fun l hl =>
      hwritten l ((locate_of_grown h hsettles).trans hl)
    rw [realm, realm, readFile_congr _ hread]
  · right
    have hread : d.readText path = .error .notFound := by
      rw [readText, Disk.read, readBytes_of_not_settles hsettles]
      rfl
    rw [realm, readFile, hread]

end Read

/-! ## Summaries that are read -/

/-- The values of a strategy are values of JSON, and do not nest so deep that a summary cannot be read. -/
structure ExampleStrategy.IsPlain (strategy : ExampleStrategy) : Prop where
  sound : ∀ name declaredType, (strategy name declaredType).Sound Number.Fits
  depth_le : ∀ name declaredType, (strategy name declaredType).depth ≤ 121

/-- The usual strategy `IsPlain`. -/
theorem ExampleStrategy.isPlain_usual : ExampleStrategy.usual.IsPlain where
  sound := sound_usual ⟨by decide, by decide⟩
  depth_le name declaredType := Nat.le_trans (depth_usual_le name declaredType) (by decide)

theorem Artifacts.fits_realm (d : Disk) (path : String) : (realm d path).Sound Number.Fits := by
  rcases realm_cases d path with hnone | ⟨text, htext⟩
  · rw [hnone, Value.sound_object]
    exact ⟨by simp, by simp⟩
  · exact sound_of_ofText Number.fits_of_ofLiteral? htext

namespace Scanner

variable {s : Scanner} {d d' : Disk} {time : String} {outcome : ScanOutcome} {l : Location}

/-- A summary that `conclude` makes has only numbers that fit, as what is known about the realm and the examples have.
-/
theorem fits_conclude (hs : s.strategy.IsPlain) (d : Disk) (time : String) (analysed : List Analysed) :
    (s.conclude d time analysed).summary.toJson.Sound Number.Fits := by
  have hshapes : ∀ t ∈ (s.conclude d time analysed).summary.shapes, t.Sound Number.Fits :=
    fun t ht => (madeBy_conclude s d time analysed t ht).sound hs.sound
  refine Summary.sound_toJson hshapes (scoreTotal_conclude_lt s d time analysed) ?_ fun n hn => hasWord_of_lt hn
  exact Artifacts.fits_realm d s.config.realmPath

theorem depth_conclude_le (hs : s.strategy.IsPlain) {d : Disk}
    (hrealm : (Artifacts.realm d s.config.realmPath).depth ≤ 126) (time : String) (analysed : List Analysed) :
    (s.conclude d time analysed).summary.toJson.depth ≤ Decoder.nestingLimit := by
  have hle := Summary.depth_toJson_le (s := (s.conclude d time analysed).summary) (n := 122) fun t ht =>
    (madeBy_conclude s d time analysed t ht).exampleDepthLe hs.depth_le
  have hrealm' : (s.conclude d time analysed).summary.realmMetadata.depth ≤ 126 := hrealm
  have hlimit : Decoder.nestingLimit = 127 := rfl
  omega

/-- The summary of a scan is read again, as `reread` says of its numbers, if the realm does not nest too deep. -/
theorem baseline_conclude (hs : s.strategy.IsPlain) {e : Disk}
    (hrealm : (Artifacts.realm e s.config.realmPath).depth ≤ 126) {time : String} {analysed : List Analysed}
    (hfile : d.HoldsFile (Text.bytesOf s.config.payloadJsonPath) l
      (s.conclude e time analysed).summary.toText.toUTF8) :
    (Artifacts.ofConfig s.config).baseline d = (s.conclude e time analysed).summary.reread := by
  have hfits := fits_conclude hs e time analysed
  have hread : IsRead (s.conclude e time analysed).summary.toJson :=
    ⟨fun n hn => Number.isSome_reread? (hfits.1 n hn), hfits.2⟩
  have hscores : ∀ t ∈ (s.conclude e time analysed).summary.shapes, t.score < scoreBound := fun t ht =>
    Nat.lt_of_le_of_lt (madeBy_conclude s e time analysed t ht).score_le (by decide)
  have hgives := Summary.gives_reread hread (scoreTotal_conclude_lt s e time analysed) hscores
  rw [Artifacts.baseline_of_holdsFile (a := Artifacts.ofConfig s.config) hfile hgives,
    if_pos (depth_conclude_le hs hrealm time analysed)]

/-- A scan of the same sources reports no `drift` if it compares with what the last one said. -/
theorem drift_conclude {e : Disk} {time' : String} {analysed : List Analysed}
    (hbaseline : (Artifacts.ofConfig s.config).baseline d = (s.conclude e time' analysed).summary.reread)
    (time : String) :
    (s.conclude d time analysed).summary.drift = {} := by
  show Drift.between ((Artifacts.ofConfig s.config).baseline d).shapes _ = _
  rw [hbaseline]
  exact Drift.between_alike (Shape.forall₂_alike_reread _ _ _)

/-! ## Runs -/

/-- Where the paths of the artifacts lead on the disk `d`. -/
def artifactPlaces (s : Scanner) (d : Disk) : List (Except FileError Place) :=
  [d.locate true (Text.bytesOf s.config.payloadJsonPath), d.locate true (Text.bytesOf s.config.payloadMarkdownPath)]

/-- Whether an artifact is at a location. -/
def IsArtifact (s : Scanner) (d : Disk) (l : Location) : Prop := .ok (.found l) ∈ s.artifactPlaces d

instance (s : Scanner) (d : Disk) (l : Location) : Decidable (s.IsArtifact d l) :=
  inferInstanceAs (Decidable (_ ∈ _))

theorem isArtifact_json (h : d.locate true (Text.bytesOf s.config.payloadJsonPath) = .ok (.found l)) :
    s.IsArtifact d l := by
  rw [IsArtifact, artifactPlaces, ← h]
  exact List.mem_cons_self

theorem isArtifact_markdown (h : d.locate true (Text.bytesOf s.config.payloadMarkdownPath) = .ok (.found l)) :
    s.IsArtifact d l := by
  rw [IsArtifact, artifactPlaces, ← h]
  exact List.mem_cons_of_mem _ List.mem_cons_self

/-- The artifacts are two files, and none of the others that a run looks at. -/
structure Separate (s : Scanner) (d : Disk) : Prop where
  files : d.locate true (Text.bytesOf s.config.payloadJsonPath) ≠
    d.locate true (Text.bytesOf s.config.payloadMarkdownPath)
  /-- No path where a walk meets an artifact is that of a source. -/
  sources : ∀ x ∈ (Walk.ofConfig s.config.scan).visited d, s.IsArtifact d x.2 →
    ∀ p ∈ Text.ofBytes? ((Walk.ofConfig s.config.scan).pathOf x.1), ¬(Walk.ofConfig s.config.scan).wants p
  /-- No path of a file of rules leads to an artifact. -/
  rules : s.config.scan.respectGitignore = true → ∀ l ∈ (Walk.ofConfig s.config.scan).ruled d,
    ∀ names ∈ Ignore.Layer.files, d.locate true (Ignore.rulePath l names) ∉ s.artifactPlaces d
  routes : d.locate true (Text.bytesOf s.config.routesPath) ∉ s.artifactPlaces d
  realm : d.locate true (Text.bytesOf s.config.realmPath) ∉ s.artifactPlaces d

instance (s : Scanner) (d : Disk) : Decidable (s.Separate d) :=
  decidable_of_iff (_ ∧ _ ∧ _ ∧ _ ∧ _)
    ⟨fun ⟨hfiles, hsources, hrules, hroutes, hrealm⟩ => ⟨hfiles, hsources, hrules, hroutes, hrealm⟩,
      fun h => ⟨h.files, h.sources, h.rules, h.routes, h.realm⟩⟩

/-- The artifacts are `Separate` after a run, every path where a walk meets one is a text, and no file of rules is
found only because there are directories for them now. The disks are the one before the run and the one after it. -/
structure Apart (s : Scanner) (d d' : Disk) : Prop extends s.Separate d' where
  texts : ∀ x ∈ (Walk.ofConfig s.config.scan).visited d', s.IsArtifact d' x.2 →
    (Text.ofBytes? ((Walk.ofConfig s.config.scan).pathOf x.1)).isSome
  found : s.config.scan.respectGitignore = true → ∀ l ∈ (Walk.ofConfig s.config.scan).ruled d',
    ∀ names ∈ Ignore.Layer.files, ∀ m c, d'.HoldsFile (Ignore.rulePath l names) m c →
      d.locate true (Ignore.rulePath l names) = .ok (.found m)

theorem Separate.not_isArtifact {path : Bytes} (h : d.locate true path ∉ s.artifactPlaces d)
    (hl : d.locate true path = .ok (.found l)) : ¬s.IsArtifact d l := by
  rwa [hl] at h

/-- Where a walk meets an artifact `collect` takes nothing. -/
theorem Apart.collect_eq {e : Disk} (h : s.Apart e d) {x : List Bytes × Location}
    (hx : x ∈ (Walk.ofConfig s.config.scan).visited d) (hartifact : s.IsArtifact d x.2) :
    (Walk.ofConfig s.config.scan).collect x.1 = .ok [] := by
  obtain ⟨p, hp⟩ := Option.isSome_iff_exists.mp (h.texts x hx hartifact)
  have hwants := h.sources x hx hartifact p hp
  rw [Walk.collect]
  simp only [hp, if_neg hwants]

/-- A file of rules is no artifact, and was found before the run. -/
theorem Apart.holdsFile {e : Disk} (h : s.Apart e d) (hheeds : s.config.scan.respectGitignore = true)
    (hl : l ∈ (Walk.ofConfig s.config.scan).ruled d) {names : List String} (hnames : names ∈ Ignore.Layer.files)
    {m : Location} {c : ByteArray} (hfile : d.HoldsFile (Ignore.rulePath l names) m c) :
    ¬s.IsArtifact d m ∧ e.locate true (Ignore.rulePath l names) = .ok (.found m) :=
  ⟨Separate.not_isArtifact (h.rules hheeds l hl names hnames) hfile.1,
    h.found hheeds l hl names hnames m c hfile⟩

/-- What a run comes to depends on the time, the sources and what the artifacts and the files of routes and of
the realm say. -/
theorem run_of_write {paths : List String} {analysed : List Analysed}
    (hfiles : (Walk.ofConfig s.config.scan).files d = .ok paths)
    (hanalysed : Analysed.ofPaths d (Walk.ofConfig s.config.scan).root paths = analysed)
    (hwrite : (Artifacts.ofConfig s.config).write d (s.conclude d time analysed).summary = (.ok (), d')) :
    s.run d time = (.ok (s.conclude d time analysed), d') := by
  have hscan := scan_of_files hfiles time
  rw [hanalysed] at hscan
  have hrun := run_of_scan hscan (by rw [hwrite])
  rwa [hwrite] at hrun

section Again

variable {written written' : List Location} {d d₁ d₂ : Disk} {paths : List String}

/-- Once artifacts have been written the sources are found and analysed as before. -/
theorem analysed_of_grown (h : Grown written d d₁) (hd : d.Sound) (hapart : s.Apart d d₁)
    (hartifact : ∀ k ∈ written, s.IsArtifact d₁ k)
    (hfiles : (Walk.ofConfig s.config.scan).files d = .ok paths) :
    (Walk.ofConfig s.config.scan).files d₁ = .ok paths ∧
      Analysed.ofPaths d₁ (Walk.ofConfig s.config.scan).root paths =
        Analysed.ofPaths d (Walk.ofConfig s.config.scan).root paths := by
  -- neither rules nor sources are artifacts, so that all of them are as they were
  have hrules (hheeds : (Walk.ofConfig s.config.scan).heedsIgnoreFiles = true) :
      ∀ l ∈ (Walk.ofConfig s.config.scan).ruled d₁, Ignore.SameRules d d₁ l := by
    intro l hl
    apply Ignore.sameRules_of_grown h hd
    intro names hnames m c hfile
    obtain ⟨hnot, hbefore⟩ := hapart.holdsFile hheeds hl hnames hfile
    exact ⟨fun hwritten => hnot (hartifact m hwritten), hbefore⟩
  have hsources : ∀ x ∈ (Walk.ofConfig s.config.scan).visited d₁, x.2 ∈ written →
      (Walk.ofConfig s.config.scan).collect x.1 = .ok [] :=
    fun x hx hwritten => hapart.collect_eq hx (hartifact _ hwritten)
  have hfiles₁ := Walk.files_of_grown h hd hrules hsources hfiles
  refine ⟨hfiles₁, Analysed.ofPaths_congr fun p hp => ?_⟩
  exact Walk.readBytes_of_files h hd hsources hfiles hfiles₁ hp

/-- When artifacts are written over, the sources are found and analysed as before. -/
theorem analysed_alike (h : Grown written d₁ d₂) (h' : Grown written' d₂ d₁) (hd : d₁.Sound)
    (hapart : s.Apart d d₁) (hartifact : ∀ k ∈ written, s.IsArtifact d₁ k)
    (hfiles : (Walk.ofConfig s.config.scan).files d₁ = .ok paths) :
    (Walk.ofConfig s.config.scan).files d₂ = .ok paths ∧
      Analysed.ofPaths d₂ (Walk.ofConfig s.config.scan).root paths =
        Analysed.ofPaths d₁ (Walk.ofConfig s.config.scan).root paths := by
  -- as between the first two runs, but for what is found only now, which nothing is
  have hrules (hheeds : (Walk.ofConfig s.config.scan).heedsIgnoreFiles = true) :
      ∀ l ∈ (Walk.ofConfig s.config.scan).ruled d₁, Ignore.SameRules d₁ d₂ l := by
    intro l hl
    apply Ignore.sameRules_of_grown h hd
    intro names hnames m c hfile
    obtain ⟨c', hc', _⟩ := h'.retains.bytes hfile.2
    have hbefore := (locate_of_grown h' (hfile.1 ▸ settles_found m)).trans hfile.1
    obtain ⟨hnot, _⟩ := hapart.holdsFile hheeds hl hnames ⟨hbefore, hc'⟩
    exact ⟨fun hwritten => hnot (hartifact m hwritten), hbefore⟩
  have hsources : ∀ x ∈ (Walk.ofConfig s.config.scan).visited d₁, x.2 ∈ written →
      (Walk.ofConfig s.config.scan).collect x.1 = .ok [] :=
    fun x hx hwritten => hapart.collect_eq hx (hartifact _ hwritten)
  refine ⟨Walk.files_alike h h' hd hrules hfiles, Analysed.ofPaths_congr fun p hp => ?_⟩
  obtain ⟨k, hleads, hk⟩ := Walk.leads_of_mem_files hd hsources hfiles hp
  exact hleads.readBytes h hd hk

/-- Two scans that report no drift say the same but for their `timestamp`, when artifacts were written over between
them. -/
theorem conclude_alike (h : Grown written d₁ d₂) (h' : Grown written' d₂ d₁) (hd : d₁.Sound)
    (hapart : s.Apart d d₁) (hartifact : ∀ k ∈ written, s.IsArtifact d₁ k) {analysed : List Analysed}
    {time₂ time₃ : String} (hdrift : (s.conclude d₁ time₂ analysed).summary.drift = {})
    (hdrift' : (s.conclude d₂ time₃ analysed).summary.drift = {}) :
    (s.conclude d₂ time₃ analysed).summary =
      { (s.conclude d₁ time₂ analysed).summary with timestamp := time₃ } := by
  have hroutes : d₂.readBytes (Text.bytesOf s.config.routesPath) =
      d₁.readBytes (Text.bytesOf s.config.routesPath) :=
    readBytes_alike h h' hd fun k hk hwritten => Separate.not_isArtifact hapart.routes hk (hartifact k hwritten)
  have hrealm : d₂.readBytes (Text.bytesOf s.config.realmPath) =
      d₁.readBytes (Text.bytesOf s.config.realmPath) :=
    readBytes_alike h h' hd fun k hk hwritten => Separate.not_isArtifact hapart.realm hk (hartifact k hwritten)
  have hregistered : s.registeredRoutes d₂ = s.registeredRoutes d₁ := by
    rw [registeredRoutes, registeredRoutes, Artifacts.registeredRoutes, Artifacts.registeredRoutes,
      Artifacts.readFile_congr _ hroutes]
  have hmetadata : Artifacts.realm d₂ s.config.realmPath = Artifacts.realm d₁ s.config.realmPath := by
    rw [Artifacts.realm, Artifacts.realm, Artifacts.readFile_congr _ hrealm]
  have hcontext (registry : Registry) : s.context d₂ registry = s.context d₁ registry := by
    rw [context, context, hregistered]
  have hsame := hdrift'.trans hdrift.symm
  simp only [conclude, hcontext, hmetadata] at hsame ⊢
  rw [hsame]

end Again

/-- What was known about the realm before a run nests no deeper than what is known after it. -/
theorem Apart.depth_realm_le {d d₁ : Disk} {written : List Location} (h : Grown written d d₁) (hd : d.Sound)
    (hapart : s.Apart d d₁) (hartifact : ∀ k ∈ written, s.IsArtifact d₁ k) :
    (Artifacts.realm d s.config.realmPath).depth ≤ max 1 (Artifacts.realm d₁ s.config.realmPath).depth := by
  have hnot : ∀ k, d₁.locate true (Text.bytesOf s.config.realmPath) = .ok (.found k) → k ∉ written :=
    fun k hk hwritten => Separate.not_isArtifact hapart.realm hk (hartifact k hwritten)
  rcases Artifacts.realm_of_grown h hd hnot with hsame | hnone
  · rw [hsame]
    exact Nat.le_max_right ..
  · rw [hnone]
    exact Nat.le_max_left ..

theorem places_of_grown {d₁ d₂ : Disk} {written : List Location} {l m : Location} {a b : ByteArray}
    (h : Grown written d₁ d₂) (hjson : d₁.HoldsFile (Text.bytesOf s.config.payloadJsonPath) l a)
    (hmarkdown : d₁.HoldsFile (Text.bytesOf s.config.payloadMarkdownPath) m b) :
    d₂.locate true (Text.bytesOf s.config.payloadJsonPath) = .ok (.found l) ∧
      d₂.locate true (Text.bytesOf s.config.payloadMarkdownPath) = .ok (.found m) :=
  ⟨(locate_of_grown h (hjson.1 ▸ settles_found l)).trans hjson.1,
    (locate_of_grown h (hmarkdown.1 ▸ settles_found m)).trans hmarkdown.1⟩

/-- A second run finds nothing new, and a third one says what the second one said, but for the `timestamp`. -/
theorem run_again {s : Scanner} {d d₁ : Disk} (hd : d.Sound) (hs : s.strategy.IsPlain) {time₁ : String}
    {outcome₁ : ScanOutcome} (h : s.run d time₁ = (.ok outcome₁, d₁)) (hapart : s.Apart d d₁)
    (hrealm : (Artifacts.realm d₁ s.config.realmPath).depth ≤ 126) (time₂ time₃ : String) :
    ∃ outcome₂ d₂, s.run d₁ time₂ = (.ok outcome₂, d₂) ∧ outcome₂.summary.drift = {} ∧
      ∃ outcome₃ d₃, s.run d₂ time₃ = (.ok outcome₃, d₃) ∧
        outcome₃.summary = { outcome₂.summary with timestamp := time₃ } := by
  -- the first run
  obtain ⟨hscan, hwrite⟩ := run_eq_ok h
  obtain ⟨paths, hfiles, rfl⟩ := scan_eq_conclude hscan
  generalize hanalysed : Analysed.ofPaths d (Walk.ofConfig s.config.scan).root paths = analysed at hwrite
  obtain ⟨l, m, hne, hjson, hmarkdown, hgrown⟩ := Artifacts.write_ok hwrite hapart.files
  have hartifact : ∀ k ∈ [l, m], s.IsArtifact d₁ k := by
    simp only [List.forall_mem_cons]
    exact ⟨isArtifact_json hjson.1, isArtifact_markdown hmarkdown.1, by simp⟩
  have hd₁ := hgrown.sound hd
  have hrealm₀ : (Artifacts.realm d s.config.realmPath).depth ≤ 126 :=
    (Apart.depth_realm_le hgrown hd hapart hartifact).trans (max_le (by decide) hrealm)
  -- the second run
  obtain ⟨hfiles₁, hanalysed₁⟩ := analysed_of_grown hgrown hd hapart hartifact hfiles
  rw [hanalysed] at hanalysed₁
  have hdrift₂ := drift_conclude (baseline_conclude hs hrealm₀ hjson) time₂
  obtain ⟨d₂, hwrite₂, hsince, hback⟩ :=
    Artifacts.write_again hwrite hd₁ hne hjson hmarkdown (s.conclude d₁ time₂ analysed).summary
  refine ⟨_, d₂, run_of_write hfiles₁ hanalysed₁ hwrite₂, hdrift₂, ?_⟩
  -- the third run
  have hapart₂ : d₂.locate true (Text.bytesOf s.config.payloadJsonPath) ≠
      d₂.locate true (Text.bytesOf s.config.payloadMarkdownPath) := by
    obtain ⟨hl, hm⟩ := places_of_grown hsince hjson hmarkdown
    rw [hl, hm]
    simpa using hne
  obtain ⟨l', m', hne', hjson', hmarkdown', _⟩ := Artifacts.write_ok hwrite₂ hapart₂
  obtain ⟨hfiles₂, hanalysed₂⟩ := analysed_alike hsince hback hd₁ hapart hartifact hfiles₁
  rw [hanalysed₁] at hanalysed₂
  have hdrift₃ := drift_conclude (baseline_conclude hs hrealm hjson') time₃
  obtain ⟨d₃, hwrite₃, _⟩ := Artifacts.write_again hwrite₂ (hsince.sound hd₁) hne' hjson' hmarkdown'
    (s.conclude d₂ time₃ analysed).summary
  exact ⟨_, d₃, run_of_write hfiles₂ hanalysed₂ hwrite₃,
    conclude_alike hsince hback hd₁ hapart hartifact hdrift₂ hdrift₃⟩

/-! ## A tree with one source, and two in which a second run fails -/

/-- Where no links are followed, it is seen from the locations on a disk whether the artifacts are apart. -/
theorem apart_of_locations {root : Location} (hlinks : s.config.scan.followLinks = false) (hd : d'.Sound)
    (hroot : d'.locate true (Text.bytesOf s.config.scan.rootPath) = .ok (.found root) ∧
      d'.nodeAt root = some .directory ∧ ∀ l ∈ Walk.above root, l ∈ Walk.locationsOf d')
    (hpaths : d'.locate true (Text.bytesOf s.config.payloadJsonPath) ≠
        d'.locate true (Text.bytesOf s.config.payloadMarkdownPath) ∧
      d'.locate true (Text.bytesOf s.config.routesPath) ∉ s.artifactPlaces d' ∧
      d'.locate true (Text.bytesOf s.config.realmPath) ∉ s.artifactPlaces d')
    (hsources : ∀ l ∈ Walk.locationsOf d', s.IsArtifact d' l →
      ∃ p ∈ Text.ofBytes? ((Walk.ofConfig s.config.scan).pathOf (l.drop root.length)),
        ¬(Walk.ofConfig s.config.scan).wants p)
    (hrules : ∀ l ∈ Walk.locationsOf d', ∀ names ∈ Ignore.Layer.files,
      d'.locate true (Ignore.rulePath l names) ∉ s.artifactPlaces d' ∧
        ∀ m ∈ Walk.locationsOf d', d'.locate true (Ignore.rulePath l names) = .ok (.found m) →
          d.locate true (Ignore.rulePath l names) = .ok (.found m)) :
    s.Apart d d' := by
  obtain ⟨hlocate, hdirectory, habove⟩ := hroot
  -- without links a walk visits locations of the disk, under the names that they are made of
  have hvisited {x} (hx : x ∈ (Walk.ofConfig s.config.scan).visited d') :
      x.2 ∈ Walk.locationsOf d' ∧ x = (x.2.drop root.length, x.2) :=
    Walk.direct_of_mem_visited (w := Walk.ofConfig s.config.scan) hlinks hlocate hdirectory hd hx
  have hpath {x} (hx : x ∈ (Walk.ofConfig s.config.scan).visited d') (hartifact : s.IsArtifact d' x.2) :
      ∃ p, Text.ofBytes? ((Walk.ofConfig s.config.scan).pathOf x.1) = some p ∧
        ¬(Walk.ofConfig s.config.scan).wants p := by
    obtain ⟨hmem, heq⟩ := hvisited hx
    obtain ⟨p, hp, hwants⟩ := hsources _ hmem hartifact
    exact ⟨p, by rw [heq]; exact hp, hwants⟩
  have hruled {l} (hl : l ∈ (Walk.ofConfig s.config.scan).ruled d') : l ∈ Walk.locationsOf d' := by
    rw [Walk.mem_ruled (w := Walk.ofConfig s.config.scan) hlocate, ← Walk.visited_eq hlocate] at hl
    rcases hl with hl | ⟨x, hx, rfl⟩
    · exact habove l hl
    · exact (hvisited hx).1
  refine
    { files := hpaths.1
      routes := hpaths.2.1
      realm := hpaths.2.2
      sources := fun x hx hartifact p hp => ?_
      rules := fun _ l hl names hnames => (hrules l (hruled hl) names hnames).1
      texts := fun x hx hartifact => ?_
      found := fun _ l hl names hnames m c hfile => ?_ }
  · obtain ⟨q, hq, hwants⟩ := hpath hx hartifact
    rw [hq, Option.mem_some_iff] at hp
    exact hp ▸ hwants
  · obtain ⟨q, hq, _⟩ := hpath hx hartifact
    rw [hq, Option.isSome_some]
  · have hm : m ∈ Walk.locationsOf d' := Walk.mem_locationsOf (by simp [hfile.2])
    exact (hrules l (hruled hl) names hnames).2 m hm hfile.1

/-- A tree with a source, and with rules above its root. -/
def notesDisk : Disk where
  entries := [([[119]], ⟨.directory, 0⟩),
    ([[119], Text.bytesOf "app.py"], ⟨.file (.bytes "@app.get('/notes')\ndef list_notes(): ...\n".toUTF8), 0⟩),
    ([Text.bytesOf ".gitignore"], ⟨.file (.bytes "build\n".toUTF8), 0⟩)]
  working := [[119]]

/-- A scanner that heeds rules. -/
def heeding : Scanner where
  config := { scan := { respectGitignore := true } }
  strategy := .usual

/-- The disk that a run of `d` leaves. -/
def diskAfter (s : Scanner) (d : Disk) : Disk := (s.run d "t1").2

theorem exists_outcome (h : (s.run d "t1").1.isOk = true) :
    ∃ outcome, s.run d "t1" = (.ok outcome, s.diskAfter d) := by
  cases hrun : (s.run d "t1").1 with
  | error e => simp [hrun, Except.isOk, Except.toBool] at h
  | ok outcome => exact ⟨outcome, Prod.ext hrun rfl⟩

theorem sound_notesDisk : notesDisk.Sound := sound_of_entries (by decide +kernel)

theorem apart_notesDisk : heeding.Apart notesDisk (heeding.diskAfter notesDisk) := by
  have hsound : (heeding.diskAfter notesDisk).Sound := sound_of_entries (by decide +kernel)
  have hroot : (heeding.diskAfter notesDisk).locate true (Text.bytesOf heeding.config.scan.rootPath) =
      .ok (.found [[119]]) ∧ (heeding.diskAfter notesDisk).nodeAt [[119]] = some .directory ∧
        ∀ l ∈ Walk.above [[119]], l ∈ Walk.locationsOf (heeding.diskAfter notesDisk) := by decide +kernel
  apply apart_of_locations rfl hsound hroot <;> decide +kernel

/-- Nothing new is found in `notesDisk`, and the third run says what the second one said. -/
theorem run_again_notes :
    (∃ outcome₁, heeding.run notesDisk "t1" = (.ok outcome₁, heeding.diskAfter notesDisk)) ∧
      heeding.Apart notesDisk (heeding.diskAfter notesDisk) ∧
      ∃ outcome₂ d₂, heeding.run (heeding.diskAfter notesDisk) "t2" = (.ok outcome₂, d₂) ∧
        outcome₂.summary.drift = {} ∧
        ∃ outcome₃ d₃, heeding.run d₂ "t3" = (.ok outcome₃, d₃) ∧
          outcome₃.summary = { outcome₂.summary with timestamp := "t3" } := by
  have hrun := exists_outcome (s := heeding) (d := notesDisk) (by decide +kernel)
  have hrealm : (Artifacts.realm (heeding.diskAfter notesDisk) heeding.config.realmPath).depth ≤ 126 := by
    decide +kernel
  refine ⟨hrun, apart_notesDisk, ?_⟩
  obtain ⟨outcome, hrun⟩ := hrun
  have hplain : heeding.strategy.IsPlain := ExampleStrategy.isPlain_usual
  exact run_again sound_notesDisk hplain hrun apart_notesDisk hrealm "t2" "t3"

/-- A tree where a link whose name is no text leads to the directory of an artifact. -/
def linkedDisk : Disk where
  entries := [([[119]], ⟨.directory, 0⟩), ([[119], Text.bytesOf "docs"], ⟨.directory, 0⟩),
    ([[119], Text.bytesOf "service"], ⟨.directory, 0⟩),
    ([[119], Text.bytesOf "service", [255]], ⟨.link (Text.bytesOf "../docs"), 0⟩)]
  working := [[119]]

/-- A scanner that follows links. -/
def following : Scanner where
  config := {
    scan := { rootPath := "service", followLinks := true }
    artifacts := { outputDir := "../docs", payloadMarkdown := "../payload_map.md" } }
  strategy := .usual

/-- A tree where rules are found as soon as there is a directory of artifacts, since their path goes through it. -/
def ruledDisk : Disk where
  entries := [([[119]], ⟨.directory, 0⟩), ([[119], Text.bytesOf "rules"], ⟨.file (.bytes "\x7b\n".toUTF8), 0⟩),
    ([[119], Text.bytesOf ".ignore"], ⟨.link (Text.bytesOf "service/analysis/../../rules"), 0⟩),
    ([[119], Text.bytesOf "service"], ⟨.directory, 0⟩)]
  working := [[119]]

/-- A scanner that heeds rules above its root. -/
def heedingBelow : Scanner where
  config := {
    scan := { rootPath := "service", respectGitignore := true }
    artifacts := { payloadMarkdown := "../../payload_map.md" } }
  strategy := .usual

/-- A run leaves artifacts that are none of the files that it looks at, and no second run succeeds. -/
structure FailsAgain (s : Scanner) (d : Disk) : Prop where
  sound : d.Sound
  first : ∃ outcome, s.run d "t1" = (.ok outcome, s.diskAfter d)
  separate : s.Separate (s.diskAfter d)
  realm : (Artifacts.realm (s.diskAfter d) s.config.realmPath).depth ≤ 126
  second : ∀ outcome, (s.run (s.diskAfter d) "t2").1 ≠ .ok outcome

theorem failsAgain_of_isOk (hsound : d.Sound)
    (h : (s.run d "t1").1.isOk = true ∧ s.Separate (s.diskAfter d) ∧
      (Artifacts.realm (s.diskAfter d) s.config.realmPath).depth ≤ 126 ∧
      (s.run (s.diskAfter d) "t2").1.isOk = false) : s.FailsAgain d := by
  obtain ⟨hfirst, hseparate, hrealm, hsecond⟩ := h
  refine ⟨hsound, exists_outcome hfirst, hseparate, hrealm, fun outcome hok => ?_⟩
  rw [hok] at hsecond
  cases hsecond

/-- A second run can fail where an artifact is met under a name that is no text, and where the first run makes
the directory over which rules are found. -/
theorem not_run_again : following.FailsAgain linkedDisk ∧ heedingBelow.FailsAgain ruledDisk :=
  ⟨failsAgain_of_isOk (sound_of_entries (by decide +kernel)) (by decide +kernel),
    failsAgain_of_isOk (sound_of_entries (by decide +kernel)) (by decide +kernel)⟩

end Scanner

end PayloadAtlas
