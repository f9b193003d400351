import PayloadAtlas.Proofs.Disk.Fault
import PayloadAtlas.Proofs.Scan.Baseline

/-!
# What a failed run leaves

A run reads, and then writes the artifacts one over the other, the one for reading back first. The system may
refuse any part of that (`Scanner.Runs`), and a run that fails tells where it stopped (`Scanner.Point`):

    s.Runs d time (.error (p, e), d') → s.Leaves d time e d' p

What is left depends on that point (`Artifacts.Leaves`): both artifacts as they were if the first was not opened,
and with them what the next scan compares with; after that a beginning of the first, or the whole of it and the
second as it was, or a beginning of that.
-/

namespace PayloadAtlas

open Disk
open Json (Decoder)

namespace Artifacts

/-! ## Courses of writing -/

/-- What can come of `makeParent`: nothing is to be made, or the directories above the file are made one by one. -/
def MakesParent (d : Disk) (path : String) (r : Attempt) : Prop :=
  match Path.parent? path with
  | none => r = (.ok (), d)
  | some parent =>
    if parent = "" then r = (.ok (), d) else MakesChain ((Path.ancestors parent).map Text.bytesOf) d r

/-- What can come of `writeFile`: the directory is made, and then the file is written in it. -/
inductive WritesFile (d : Disk) (path text : String) : Writing → Prop
  | strays {c : Cause} {d' : Disk} : MakesParent d path (.error c, d') →
      WritesFile d path text (.error ⟨.directory, c⟩, d')
  | goes {d₁ : Disk} {r : Writing} : MakesParent d path (.ok (), d₁) →
      WritesBytes d₁ (Text.bytesOf path) text.toUTF8 r → WritesFile d path text r

/-- The artifact that is not written, and the stage that its writing comes to. -/
inductive Point where
  | json (stage : Stage)
  | markdown (stage : Stage)
  deriving DecidableEq, Repr

/-- The path that the error of a point is about. -/
def Point.path (a : Artifacts) : Point → String
  | .json _ => a.json
  | .markdown _ => a.markdown

/-- What can come of `write`: the JSON is written, and then the text. The error of the first that fails is told,
with the point where it does. -/
inductive Writes (a : Artifacts) (d : Disk) (s : Summary) : Except (Point × ScanError) Unit × Disk → Prop
  | json {h : Halt} {d' : Disk} : WritesFile d a.json s.toText (.error h, d') →
      Writes a d s (.error (.json h.stage, .artifact a.json h.cause.message), d')
  | markdown {h : Halt} {d₁ d' : Disk} : WritesFile d a.json s.toText (.ok (), d₁) →
      WritesFile d₁ a.markdown s.markdown (.error h, d') →
      Writes a d s (.error (.markdown h.stage, .artifact a.markdown h.cause.message), d')
  | written {d₁ d' : Disk} : WritesFile d a.json s.toText (.ok (), d₁) →
      WritesFile d₁ a.markdown s.markdown (.ok (), d') → Writes a d s (.ok (), d')

/-! ## What is left -/

/-- What a path reads by `readBytes`, or nothing if it reads nothing. -/
def content? (d : Disk) (path : String) : Option ByteArray := (d.read path).toOption

/-- A `path` reads what it read. One that read nothing may lead, over a directory that was made, to a file that was
there. -/
def Keeps (d d' : Disk) (path : String) : Prop :=
  content? d' path = content? d path ∨
    content? d path = none ∧ ∃ l c, d.nodeAt l = some (.file (.bytes c)) ∧ d'.HoldsFile (Text.bytesOf path) l c

/-- What a path holds stays, unless it lies at `l`. -/
def Spares (d d' : Disk) (path : String) (l : Location) : Prop :=
  ∀ m c, m ≠ l → d.HoldsFile (Text.bytesOf path) m c → d'.HoldsFile (Text.bytesOf path) m c

/-- The next scan compares with `s`, if that can be read back. -/
def Renews (a : Artifacts) (s : Summary) (d' : Disk) : Prop :=
  ∀ t, Decoder.Gives Summary.decoder s.toJson t → s.toJson.depth ≤ Decoder.nestingLimit → a.baseline d' = t

/-- The JSON was not opened: nothing but directories is new, and the next scan compares with what it would have
compared with before. -/
structure Untouched (a : Artifacts) (d d' : Disk) : Prop where
  grown : Grown [] d d'
  json : Keeps d d' a.json
  markdown : Keeps d d' a.markdown
  baseline : content? d a.json ≠ none → a.baseline d' = a.baseline d

/-- The JSON lies at `l` and holds the first `n` bytes of the new one. -/
structure JsonBegun (a : Artifacts) (s : Summary) (d d' : Disk) (l : Location) (n : Nat) : Prop where
  grown : Grown [l] d d'
  json : d'.HoldsFile (Text.bytesOf a.json) l (s.toText.toUTF8.extract 0 n)
  markdown : Spares d d' a.markdown l

/-- The JSON lies at `l` and is the new one, and the text was not opened. -/
structure JsonWritten (a : Artifacts) (s : Summary) (d d' : Disk) (l : Location) : Prop where
  grown : Grown [l] d d'
  json : d'.HoldsFile (Text.bytesOf a.json) l s.toText.toUTF8
  markdown : Spares d d' a.markdown l
  baseline : a.Renews s d'

/-- The JSON was written at `l`, and the text lies at `m` and holds the first `n` bytes of the new one. -/
structure MarkdownBegun (a : Artifacts) (s : Summary) (d d' : Disk) (l m : Location) (n : Nat) : Prop where
  grown : Grown [l, m] d d'
  json : l ≠ m → d'.HoldsFile (Text.bytesOf a.json) l s.toText.toUTF8
  markdown : d'.HoldsFile (Text.bytesOf a.markdown) m (s.markdown.toUTF8.extract 0 n)
  baseline : l ≠ m → a.Renews s d'

/-- What an attempt to write the artifacts leaves that fails at a point. Whatever it is, the disk has only grown:
all files and links are as they were but for the artifacts that are named, and what is new besides are
directories. -/
def Leaves (a : Artifacts) (s : Summary) (d d' : Disk) : Point → Prop
  | .json .directory | .json .opening => a.Untouched d d'
  | .json (.filling n) => ∃ l, a.JsonBegun s d d' l n
  | .markdown .directory | .markdown .opening => ∃ l, a.JsonWritten s d d' l
  | .markdown (.filling n) => ∃ l m, a.MarkdownBegun s d d' l m n

variable {a : Artifacts} {s : Summary} {d d' : Disk} {path text : String} {r : Attempt} {h : Halt} {l : Location}
  {p : Point} {e : ScanError}

/-- What `makeParent` does is one of the courses. -/
theorem makesParent_attempt (d : Disk) (path : String) : MakesParent d path (makeParent d path).attempt := by
  rw [MakesParent, makeParent]
  cases Path.parent? path with
  | none => rfl
  | some parent =>
    dsimp only
    split_ifs
    · rfl
    · exact makesChain_attempt _ d

/-- A file that the system leaves alone is written as `writeFile` writes it, and what fails there has a stage. -/
theorem writesFile_writeFile (d : Disk) (path text : String) :
    (∀ d', writeFile d path text = (.ok (), d') → WritesFile d path text (.ok (), d')) ∧
      ∀ e d', writeFile d path text = (.error e, d') →
        ∃ h, WritesFile d path text (.error h, d') ∧ e = .artifact path h.cause.message := by
  have hparent := makesParent_attempt d path
  rw [writeFile]
  generalize makeParent d path = made at hparent
  -- the directory cannot be made, the file cannot be opened, or both go well
  obtain ⟨cause | _, d₁⟩ := made
  · refine ⟨fun d' hw => (by cases hw), fun e d' hw => ?_⟩
    cases hw
    exact ⟨_, .strays hparent, rfl⟩
  · show (∀ d', report path (d₁.writeText path text) = _ → _) ∧ ∀ e d', report path (d₁.writeText path text) = _ → _
    cases hwrites : (d₁.writeText path text).1 with
    | ok u =>
      have hsame : d₁.writeText path text = (.ok (), (d₁.writeText path text).2) := Prod.ext hwrites rfl
      rw [hsame]
      refine ⟨fun d' hw => ?_, fun e d' hw => (by cases hw)⟩
      cases hw
      exact .goes hparent (.written hwrites)
    | error cause =>
      have hsame : d₁.writeText path text = (.error cause, (d₁.writeText path text).2) := Prod.ext hwrites rfl
      rw [hsame]
      refine ⟨fun d' hw => (by cases hw), fun e d' hw => ?_⟩
      cases hw
      exact ⟨_, .goes hparent (.unopened hwrites), rfl⟩

/-- An attempt that the system leaves alone is one of the courses: one that `write` brings to its end, and one that
fails there. -/
theorem writes_write (a : Artifacts) (d : Disk) (s : Summary) :
    (∀ d', a.write d s = (.ok (), d') → a.Writes d s (.ok (), d')) ∧
      ∀ e d', a.write d s = (.error e, d') → ∃ p, a.Writes d s (.error (p, e), d') := by
  obtain ⟨hjson, hjsonFails⟩ := writesFile_writeFile d a.json s.toText
  rw [write]
  -- the second artifact is written once the first one is
  split
  · next d₁ hfirst =>
    obtain ⟨hmarkdown, hmarkdownFails⟩ := writesFile_writeFile d₁ a.markdown s.markdown
    refine ⟨fun d' hw => .written (hjson d₁ hfirst) (hmarkdown d' hw), ?_⟩
    intro e d' hw
    obtain ⟨h, hh, rfl⟩ := hmarkdownFails e d' hw
    exact ⟨_, .markdown (hjson d₁ hfirst) hh⟩
  · next cause d₁ hfirst =>
    refine ⟨fun d' hw => (by cases hw), fun e d' hw => ?_⟩
    cases hw
    obtain ⟨h, hh, rfl⟩ := hjsonFails cause d₁ hfirst
    exact ⟨_, .json hh⟩

/-- Whatever comes of it, nothing but directories is new, as `Grown` has it. -/
theorem MakesParent.grown (h : MakesParent d path r) : Grown [] d r.2 := by
  unfold MakesParent at h
  split at h
  · rw [h]
    exact .refl [] d
  · split_ifs at h
    · rw [h]
      exact .refl [] d
    · exact MakesChain.grown h

/-- A file that was written is there, and what else is new are directories. -/
theorem WritesFile.ok (h : WritesFile d path text (.ok (), d')) :
    ∃ l, d'.HoldsFile (Text.bytesOf path) l text.toUTF8 ∧ Grown [l] d d' := by
  cases h with
  | goes hparent hwrites =>
    obtain ⟨l, hl, hgrown⟩ := hwrites.ok
    exact ⟨l, hl, (hparent.grown.mono (by simp)).trans hgrown⟩

/-- A file that could not be written is as its `Stage.Leaves` says. -/
theorem WritesFile.error (hw : WritesFile d path text (.error h, d')) :
    h.stage.Leaves d (Text.bytesOf path) text.toUTF8 d' := by
  cases hw with
  | strays hparent => exact hparent.grown
  | goes hparent hwrites => exact hwrites.error.of_grown hparent.grown

/-- Where only directories are new, every path `Keeps` what it read. -/
theorem keeps_of_grown (h : Grown [] d d') (hd : d.Sound) (path : String) : Keeps d d' path := by
  -- a path that led somewhere leads there still, and any other read nothing
  by_cases hsettles : Settles (d.locate true (Text.bytesOf path))
  · left
    rw [content?, content?, Disk.read, Disk.read, readBytes_of_grown h hd hsettles (by simp)]
  · have hnone : content? d path = none := by
      rw [content?, Disk.read, readBytes_of_not_settles hsettles]
      rfl
    cases hread : d'.readBytes (Text.bytesOf path) with
    | error e =>
      left
      rw [hnone, content?, Disk.read, hread]
      rfl
    | ok c =>
      right
      obtain ⟨l, hl⟩ := readBytes_eq_ok_iff.mp hread
      refine ⟨hnone, l, c, ?_, hl⟩
      -- the file was there, since only directories are new
      cases hold : d.nodeAt l with
      | none =>
        obtain hdirectory | ⟨hmem, -⟩ := h.fresh hl.2 hold
        · cases hdirectory
        · cases hmem
      | some n =>
        obtain ⟨n', hn', -, hsame⟩ := h.kept hold
        rw [hl.2] at hn'
        rw [← hsame (by simp), ← hn']

/-- Where only directories are new, the JSON is `Untouched`. -/
theorem untouched_of_grown (h : Grown [] d d') (hd : d.Sound) (a : Artifacts) : a.Untouched d d' where
  grown := h
  json := keeps_of_grown h hd a.json
  markdown := keeps_of_grown h hd a.markdown
  baseline hsome := by
    apply baseline_congr
    rcases keeps_of_grown h hd a.json with hsame | ⟨hnone, -⟩
    · exact hsame
    · exact absurd hnone hsome

theorem spares_of_grown (h : Grown [l] d d') (path : String) : Spares d d' path l :=
  fun _ _ hne hm => hm.of_grown h (by simpa using hne)

theorem renews_of_holdsFile (h : d'.HoldsFile (Text.bytesOf a.json) l s.toText.toUTF8) : a.Renews s d' := by
  intro t hgives hdepth
  rw [baseline_of_holdsFile h hgives, if_pos hdepth]

theorem jsonWritten_of_grown {d₁ : Disk} (hgrown : Grown [l] d d₁)
    (hl : d₁.HoldsFile (Text.bytesOf a.json) l s.toText.toUTF8) (hmade : Grown [] d₁ d') : a.JsonWritten s d d' l := by
  have hboth := hgrown.trans (hmade.mono (by simp))
  have hjson := hl.of_grown hmade (by simp)
  exact ⟨hboth, hjson, spares_of_grown hboth a.markdown, renews_of_holdsFile hjson⟩

/-- What is left when the JSON cannot be written, by the stage of its writing. -/
theorem leaves_of_json (hd : d.Sound) (hw : WritesFile d a.json s.toText (.error h, d')) :
    a.Leaves s d d' (.json h.stage) := by
  have hleaves := hw.error
  cases hstage : h.stage with
  | directory =>
    rw [hstage] at hleaves
    exact untouched_of_grown hleaves hd a
  | opening =>
    rw [hstage] at hleaves
    exact untouched_of_grown hleaves hd a
  | filling n =>
    rw [hstage] at hleaves
    obtain ⟨l, hl, hgrown⟩ := hleaves
    exact ⟨l, hgrown, hl, spares_of_grown hgrown a.markdown⟩

/-- What is left when the text cannot be written, by the stage of its writing, after the JSON was. -/
theorem leaves_of_markdown {d₁ : Disk} (hjson : WritesFile d a.json s.toText (.ok (), d₁))
    (hw : WritesFile d₁ a.markdown s.markdown (.error h, d')) : a.Leaves s d d' (.markdown h.stage) := by
  obtain ⟨l, hl, hgrown⟩ := hjson.ok
  have hleaves := hw.error
  cases hstage : h.stage with
  | directory =>
    rw [hstage] at hleaves
    exact ⟨l, jsonWritten_of_grown hgrown hl hleaves⟩
  | opening =>
    rw [hstage] at hleaves
    exact ⟨l, jsonWritten_of_grown hgrown hl hleaves⟩
  | filling n =>
    rw [hstage] at hleaves
    obtain ⟨m, hm, hgrown'⟩ := hleaves
    -- the text may lie where the JSON does, and is then written over it
    have hjson' : l ≠ m → d'.HoldsFile (Text.bytesOf a.json) l s.toText.toUTF8 :=
      fun hne => hl.of_grown hgrown' (by simpa using hne)
    exact ⟨l, m, (hgrown.mono (by simp)).trans (hgrown'.mono (by simp)), hjson', hm,
      fun hne => renews_of_holdsFile (hjson' hne)⟩

/-- An attempt that fails at a point leaves what `Leaves` says of that point, and its error is about the artifact. -/
theorem leaves_of_writes (hd : d.Sound) (h : Writes a d s (.error (p, e), d')) :
    a.Leaves s d d' p ∧ ∃ message, e = .artifact (p.path a) message := by
  cases h with
  | json hjson => exact ⟨leaves_of_json hd hjson, _, rfl⟩
  | markdown hjson hmarkdown => exact ⟨leaves_of_markdown hjson hmarkdown, _, rfl⟩

end Artifacts

namespace Scanner

/-! ## Courses of runs -/

/-- Where a run stops: while it reads, or while it writes what has come of that. -/
inductive Point where
  | reading
  | writing (p : Artifacts.Point)
  deriving DecidableEq, Repr

/-- What can come of a `scan`. The system may refuse any of the files that are looked at, and then the disk is
scanned as it is seen; or it refuses to list a directory, which ends the scan with an error. -/
inductive Reads (s : Scanner) (d : Disk) (time : String) : Except ScanError ScanOutcome → Prop
  | seen (refusals : Location → Option String) : Reads s d time (s.scan (d.refusing refusals) time)
  | refused (e : ScanError) : Reads s d time (.error e)

/-- What can come of a `run`: what was read is written. A scan is given a disk and gives none back, so that what is
to be written finds the disk that was read. -/
inductive Runs (s : Scanner) (d : Disk) (time : String) : Except (Point × ScanError) ScanOutcome × Disk → Prop
  | unread {e : ScanError} : s.Reads d time (.error e) → Runs s d time (.error (.reading, e), d)
  | unwritten {outcome : ScanOutcome} {p : Artifacts.Point} {e : ScanError} {d' : Disk} :
      s.Reads d time (.ok outcome) → (Artifacts.ofConfig s.config).Writes d outcome.summary (.error (p, e), d') →
      Runs s d time (.error (.writing p, e), d')
  | done {outcome : ScanOutcome} {d' : Disk} : s.Reads d time (.ok outcome) →
      (Artifacts.ofConfig s.config).Writes d outcome.summary (.ok (), d') → Runs s d time (.ok outcome, d')

/-- An outcome is that of a scan of the disk as it is seen, and its drift is told from what is seen of the JSON. That
is what the disk has there, unless it is refused. -/
structure Sees (s : Scanner) (d : Disk) (time : String) (refusals : Location → Option String)
    (outcome : ScanOutcome) : Prop where
  scan : s.scan (d.refusing refusals) time = .ok outcome
  drift : outcome.summary.drift =
    Drift.between ((Artifacts.ofConfig s.config).baseline (d.refusing refusals)).shapes outcome.summary.shapes
  baseline : Artifacts.content? (d.refusing refusals) (Artifacts.ofConfig s.config).json =
      Artifacts.content? d (Artifacts.ofConfig s.config).json →
    (Artifacts.ofConfig s.config).baseline (d.refusing refusals) = (Artifacts.ofConfig s.config).baseline d

/-- What a run leaves that fails at a point: the disk as it was, or what the writing of the summary of a scan of
that disk leaves. -/
def Leaves (s : Scanner) (d : Disk) (time : String) (e : ScanError) (d' : Disk) : Point → Prop
  | .reading => d' = d
  | .writing p => ∃ refusals outcome, s.Sees d time refusals outcome ∧
      (Artifacts.ofConfig s.config).Leaves outcome.summary d d' p ∧
      ∃ message, e = .artifact (p.path (Artifacts.ofConfig s.config)) message

theorem reads_scan (s : Scanner) (d : Disk) (time : String) : s.Reads d time (s.scan d time) := by
  have hseen : s.Reads d time (s.scan (d.refusing fun _ => none) time) := .seen _
  rwa [refusing_none] at hseen

/-- The `drift` of a scan is told from what was there before it. -/
theorem drift_of_scan {s : Scanner} {d : Disk} {time : String} {outcome : ScanOutcome}
    (h : s.scan d time = .ok outcome) :
    outcome.summary.drift = Drift.between ((Artifacts.ofConfig s.config).baseline d).shapes outcome.summary.shapes := by
  obtain ⟨paths, -, rfl⟩ := scan_eq_conclude h
  rfl

/-- A scan that comes to an outcome has seen the disk, but for what was `refused`. -/
theorem Reads.sees {s : Scanner} {d : Disk} {time : String} {outcome : ScanOutcome} (h : s.Reads d time (.ok outcome)) :
    ∃ refusals, s.Sees d time refusals outcome := by
  generalize hr : (Except.ok outcome : Except ScanError ScanOutcome) = r at h
  cases h with
  | seen refusals => exact ⟨refusals, hr.symm, drift_of_scan hr.symm, fun hsame => Artifacts.baseline_congr hsame⟩
  | refused e => cases hr

/-- A run that the system leaves alone is one of the courses: one that `run` brings to its end, and one that fails
there. -/
theorem runs_run (s : Scanner) (d : Disk) (time : String) :
    (∀ outcome d', s.run d time = (.ok outcome, d') → s.Runs d time (.ok outcome, d')) ∧
      ∀ e d', s.run d time = (.error e, d') → ∃ p, s.Runs d time (.error (p, e), d') := by
  have hreads := s.reads_scan d time
  rw [run]
  generalize s.scan d time = read at hreads
  cases read with
  | error cause =>
    refine ⟨fun outcome d' hr => (by cases hr), fun e d' hr => ?_⟩
    cases hr
    exact ⟨_, .unread hreads⟩
  | ok found =>
    obtain ⟨hwrites, hfails⟩ := (Artifacts.ofConfig s.config).writes_write d found.summary
    dsimp only
    generalize (Artifacts.ofConfig s.config).write d found.summary = w at hwrites hfails
    obtain ⟨cause | _, d₁⟩ := w
    · refine ⟨fun outcome d' hr => (by cases hr), fun e d' hr => ?_⟩
      cases hr
      obtain ⟨p, hp⟩ := hfails cause d₁ rfl
      exact ⟨_, .unwritten hreads hp⟩
    · refine ⟨fun outcome d' hr => ?_, fun e d' hr => (by cases hr)⟩
      cases hr
      exact .done hreads (hwrites d₁ rfl)

/-- What is left where writing artifacts or a run fails, for each point where it can. What `write` and `run` do is
among it, and what the next scan compares with is what `Artifacts.baseline` finds on the disk that is left. -/
theorem leaves_of_fails {d d' : Disk} (hd : d.Sound) :
    (∀ (a : Artifacts) (summary : Summary) (p : Artifacts.Point) (e : ScanError),
        a.Writes d summary (.error (p, e), d') →
          a.Leaves summary d d' p ∧ ∃ message, e = .artifact (p.path a) message) ∧
      (∀ (s : Scanner) (time : String) (p : Point) (e : ScanError),
        s.Runs d time (.error (p, e), d') → s.Leaves d time e d' p) ∧
      (∀ (a : Artifacts) (summary : Summary) (e : ScanError),
        a.write d summary = (.error e, d') → ∃ p, a.Writes d summary (.error (p, e), d')) ∧
      (∀ (s : Scanner) (time : String) (e : ScanError),
        s.run d time = (.error e, d') → ∃ p, s.Runs d time (.error (p, e), d')) ∧
      ∀ (s : Scanner) (time : String) (later : ScanOutcome), s.scan d' time = .ok later →
        later.summary.drift =
          Drift.between ((Artifacts.ofConfig s.config).baseline d').shapes later.summary.shapes := by
  refine ⟨fun a summary p e h => Artifacts.leaves_of_writes hd h, fun s time p e h => ?_,
    fun a summary e => (a.writes_write d summary).2 e d', fun s time e => (s.runs_run d time).2 e d',
    fun s time later h => ?_⟩
  · cases h with
    | unread hreads => rfl
    | unwritten hreads hwrites =>
      obtain ⟨refusals, hsees⟩ := hreads.sees
      exact ⟨refusals, _, hsees, Artifacts.leaves_of_writes hd hwrites⟩
  · exact drift_of_scan h

/-! ## A directory in the place of the text -/

/-- A scanner whose artifacts lie in `../docs`, beside its root. -/
def aside : Scanner where
  config := { scan := { rootPath := "service" }, artifacts := { outputDir := "../docs" } }
  strategy := .usual

/-- A tree whose only route is gone, where a directory has the name of the second artifact. -/
def blockedDisk : Disk where
  entries := [([[119]], ⟨.directory, 0⟩), ([[119], Text.bytesOf "service"], ⟨.directory, 0⟩),
    ([[119], Text.bytesOf "docs"], ⟨.directory, 0⟩),
    ([[119], Text.bytesOf "docs", Text.bytesOf "payload_map.json"],
      ⟨.file (.bytes "\x7b\"payload_shapes\":[\x7b\"path\":\"/a\",\"method\":\"GET\"\x7d]\x7d".toUTF8), 0⟩),
    ([[119], Text.bytesOf "docs", Text.bytesOf "payload_map.md"], ⟨.directory, 0⟩)]
  working := [[119]]

/-- The disk that a run leaves. -/
def blockedDiskAfter : Disk := (aside.run blockedDisk "t1").2

theorem sound_blockedDisk : blockedDisk.Sound := sound_of_entries (by decide)

/-- The run fails, as a directory cannot be written. -/
theorem run_blockedDisk : ∃ e, aside.run blockedDisk "t1" = (.error e, blockedDiskAfter) := by
  have hfails : (aside.run blockedDisk "t1").1.isOk = false := by decide +kernel
  cases hrun : (aside.run blockedDisk "t1").1 with
  | error e => exact ⟨e, Prod.ext hrun rfl⟩
  | ok outcome =>
    rw [hrun] at hfails
    cases hfails

/-- The JSON lies in a directory that is there, so that none is made. -/
theorem makesParent_blockedDisk :
    Artifacts.MakesParent blockedDisk aside.config.payloadJsonPath (.ok (), blockedDisk) := by
  have hparent : Path.parent? aside.config.payloadJsonPath = some "service/../docs" ∧
      blockedDisk.leadsToDirectory (Text.bytesOf "service/../docs") = true := by
    decide
  have hmakes := Artifacts.makesParent_attempt blockedDisk aside.config.payloadJsonPath
  have hmade : Artifacts.makeParent blockedDisk aside.config.payloadJsonPath = (.ok (), blockedDisk) := by
    rw [Artifacts.makeParent, hparent.1]
    exact makeDirectories_of_leads hparent.2
  rwa [hmade] at hmakes

/-- A run that the system does not let open the JSON, which it leaves as it was. -/
theorem runs_blockedDisk :
    ∃ e, aside.Runs blockedDisk "t1" (.error (.writing (.json .opening), e), blockedDisk) := by
  have hscan : (aside.scan blockedDisk "t1").isOk = true := by decide +kernel
  have hreads := aside.reads_scan blockedDisk "t1"
  cases hread : aside.scan blockedDisk "t1" with
  | error e =>
    rw [hread] at hscan
    cases hscan
  | ok outcome =>
    rw [hread] at hreads
    exact ⟨_, .unwritten hreads (.json (.goes makesParent_blockedDisk (.refused (.system "Permission denied"))))⟩

/-- Both runs leave what the points say at which they fail. -/
theorem leaves_blockedDisk :
    blockedDisk.Sound ∧
      (∃ e p, aside.run blockedDisk "t1" = (.error e, blockedDiskAfter) ∧
        aside.Runs blockedDisk "t1" (.error (p, e), blockedDiskAfter) ∧
        aside.Leaves blockedDisk "t1" e blockedDiskAfter p) ∧
      ∃ e, aside.Runs blockedDisk "t1" (.error (.writing (.json .opening), e), blockedDisk) ∧
        aside.Leaves blockedDisk "t1" e blockedDisk (.writing (.json .opening)) := by
  obtain ⟨e, hrun⟩ := run_blockedDisk
  obtain ⟨p, hp⟩ := (leaves_of_fails sound_blockedDisk).2.2.2.1 aside "t1" e hrun
  obtain ⟨e', hrefused⟩ := runs_blockedDisk
  exact ⟨sound_blockedDisk, ⟨e, p, hrun, hp, (leaves_of_fails sound_blockedDisk).2.1 aside "t1" p e hp⟩,
    e', hrefused, (leaves_of_fails sound_blockedDisk).2.1 aside "t1" _ e' hrefused⟩

/-- The lost route is told by a scan before the run that fails, and by no scan after it. -/
theorem not_keeps_of_fails :
    ∃ (s : Scanner) (d d' : Disk) (e : ScanError), d.Sound ∧ s.run d "t1" = (.error e, d') ∧
      (d'.read s.config.payloadJsonPath).toOption ≠ (d.read s.config.payloadJsonPath).toOption ∧
      (s.scan d "t1").toOption.map (·.summary.drift) = some { removed := ["GET /a"] } ∧
      (s.scan d' "t2").toOption.map (·.summary.drift) = some {} := by
  obtain ⟨e, hrun⟩ := run_blockedDisk
  refine ⟨aside, blockedDisk, blockedDiskAfter, e, sound_blockedDisk, hrun, ?_, ?_, ?_⟩ <;> decide +kernel

end Scanner

end PayloadAtlas
