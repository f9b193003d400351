import PayloadAtlas.Proofs.Disk.Reading

/-!
# Changes that the system breaks off

A disk does what it is asked for if that can be done. The system may have reasons of its own not to do it: at
every call it may answer with an error instead, and it may stop in the middle of what is written to a file.
`MakesDirectory`, `EnsuresDirectory`, `MakesChain` and `WritesBytes` say what can then come of a change, call by
call. What the disk itself does is among it, and however far a change has come, the disk has only grown: by
directories, and by a beginning of the one file that is written. A write that fails tells the `Stage` that it came
to, and `Stage.Leaves` says of each stage what is there then:

    WritesBytes d path content (.error ⟨stage, cause⟩, d') → stage.Leaves d path content d'

What is read may be refused as well: `Disk.refusing` is the disk as it is seen then.
-/

namespace PayloadAtlas.Disk

/-- Why something was not done: as the disk has it, or for a reason of the system's own. -/
inductive Cause where
  | disk (e : FileError)
  | system (message : String)

/-- The text of an error, whoever it comes from. -/
def Cause.message : Cause → String
  | .disk e => e.message
  | .system message => message

/-- What comes of a change that the system may break off: an error, if there was one, and the disk, as in `Change`. -/
abbrev Attempt := Except Cause Unit × Disk

/-- A change that was not broken off. -/
def Change.attempt (c : Change) : Attempt := (c.1.mapError .disk, c.2)

/-- Where the writing of a file stops: above it, when it is opened, or after `n` bytes. -/
inductive Stage where
  /-- The directories that the file lies in could not all be made. -/
  | directory
  /-- The file could not be opened. -/
  | opening
  /-- The file was opened, and `n` of its bytes came to be written. -/
  | filling (n : Nat)
  deriving DecidableEq, Repr

/-- Why a file was not written, and how far that came. -/
structure Halt where
  stage : Stage
  cause : Cause

/-- What comes of writing a file that the system may break off. -/
abbrev Writing := Except Halt Unit × Disk

/-- The one thing, `first`, and, once it is done, the other, `next`. -/
inductive Follows (first : Attempt → Prop) (next : Disk → Attempt → Prop) : Attempt → Prop
  | stops {c : Cause} {d : Disk} : first (.error c, d) → Follows first next (.error c, d)
  | goes {d : Disk} {r : Attempt} : first (.ok (), d) → next d r → Follows first next r

/-- Making a directory: what the disk makes of it, or an error of the system and nothing done. -/
inductive MakesDirectory (d : Disk) (path : Bytes) : Attempt → Prop
  | asked : MakesDirectory d path (d.makeDirectory path).attempt
  | refused (c : Cause) : MakesDirectory d path (.error c, d)

/-- A directory that was not made may be there; `leadsToDirectory` looks for it, and the look may be refused too. -/
inductive EnsuresDirectory (d : Disk) (path : Bytes) : Attempt → Prop
  | made {d' : Disk} : MakesDirectory d path (.ok (), d') → EnsuresDirectory d path (.ok (), d')
  | there {c : Cause} {d' : Disk} : MakesDirectory d path (.error c, d') → d'.leadsToDirectory path = true →
      EnsuresDirectory d path (.ok (), d')
  | failed {c : Cause} {d' : Disk} : MakesDirectory d path (.error c, d') →
      EnsuresDirectory d path (.error c, d')

/-- The `outer` directories are made where the first one has nowhere to be, and it is tried again after that. -/
def MakesChain : List Bytes → Disk → Attempt → Prop
  | [], d, r => r = (.error (.disk .notFound), d)
  | path :: outer, d, r =>
    if path = [] then r = (.ok (), d)
    else
      (EnsuresDirectory d path r ∧ r.1 ≠ .error (.disk .notFound)) ∨
        ∃ d₁, EnsuresDirectory d path (.error (.disk .notFound), d₁) ∧
          Follows (MakesChain outer d₁) (fun d₂ => EnsuresDirectory d₂ path) r

/-- A file that could be opened is empty, and is then filled as far as the system lets it be: `n` bytes of `content`.
What `writeBytes` refuses it refuses to open. -/
inductive WritesBytes (d : Disk) (path : Bytes) (content : ByteArray) : Writing → Prop
  | written : (d.writeBytes path content).1 = .ok () →
      WritesBytes d path content (.ok (), (d.writeBytes path content).2)
  | unopened {e : FileError} : (d.writeBytes path content).1 = .error e →
      WritesBytes d path content (.error ⟨.opening, .disk e⟩, (d.writeBytes path content).2)
  | refused (c : Cause) : WritesBytes d path content (.error ⟨.opening, c⟩, d)
  | broken (c : Cause) (n : Nat) : (d.writeBytes path content).1 = .ok () →
      WritesBytes d path content (.error ⟨.filling n, c⟩, (d.writeBytes path (content.extract 0 n)).2)

/-- What is there when the writing of a file has stopped at a stage: directories that are new, and, once the file
was opened, a beginning of its content. -/
def Stage.Leaves (d : Disk) (path : Bytes) (content : ByteArray) (d' : Disk) : Stage → Prop
  | .directory | .opening => Grown [] d d'
  | .filling n => ∃ l, d'.HoldsFile path l (content.extract 0 n) ∧ Grown [l] d d'

/-- What a look at something comes to that may be `refused`. Only files are. -/
def Node.refusedBy : Node → Option String → Node
  | .file _, some message => .file (.refused message)
  | n, _ => n

/-- A disk as it is seen while the system refuses the files at some locations, each with a message; `refused` says
which. -/
def refusing (d : Disk) (refusals : Location → Option String) : Disk :=
  { d with entries := d.entries.map fun (l, e) => (l, { e with node := Node.refusedBy e.node (refusals l) }) }

variable {d d' : Disk} {path : Bytes} {paths : List Bytes} {content : ByteArray} {r : Attempt} {c : Cause}
  {stage : Stage}

/-! ## What the disk does -/

/-- What `Change.andThen` does is among what may come of doing two things in turn. -/
theorem Follows.attempt {first : Change} {p : Attempt → Prop} {next : Disk → Change} {q : Disk → Attempt → Prop}
    (hfirst : p first.attempt) (hnext : ∀ d, q d (next d).attempt) :
    Follows p q (first.andThen next).attempt := by
  obtain ⟨e | _, d⟩ := first
  · exact .stops hfirst
  · exact .goes hfirst (hnext d)

theorem makesDirectory_attempt (d : Disk) (path : Bytes) : MakesDirectory d path (d.makeDirectory path).attempt :=
  .asked

/-- What `ensureDirectory` does is among what may come of it. -/
theorem ensuresDirectory_attempt (d : Disk) (path : Bytes) :
    EnsuresDirectory d path (d.ensureDirectory path).attempt := by
  have hmakes := makesDirectory_attempt d path
  rw [ensureDirectory]
  generalize d.makeDirectory path = made at hmakes
  obtain ⟨e | _, d'⟩ := made
  · by_cases hleads : d'.leadsToDirectory path = true
    · simp only [hleads, if_true]
      exact .there hmakes hleads
    · simp only [hleads]
      exact .failed hmakes
  · exact .made hmakes

/-- What `makeChain` does is among what may come of it. -/
theorem makesChain_attempt (paths : List Bytes) (d : Disk) : MakesChain paths d (d.makeChain paths).attempt := by
  induction paths generalizing d with
  | nil => rfl
  | cons path outer ih =>
    rw [MakesChain, makeChain]
    split_ifs with hblank
    · rfl
    · have hensures := ensuresDirectory_attempt d path
      split
      · next d₁ h =>
        rw [h] at hensures
        exact .inr ⟨d₁, hensures, .attempt (ih d₁) fun d₂ => ensuresDirectory_attempt d₂ path⟩
      · -- the first directory was made, or failed for another reason than its parent
        next hne =>
        refine .inl ⟨hensures, fun heq => ?_⟩
        generalize d.ensureDirectory path = made at hne heq
        obtain ⟨e | _, d₁⟩ := made
        · cases heq
          exact hne d₁ rfl
        · cases heq

/-! ## How the disk has grown -/

theorem MakesDirectory.grown (h : MakesDirectory d path r) : Grown [] d r.2 := by
  cases h with
  | asked => exact makeDirectory_grown d path
  | refused c => exact .refl [] d

theorem EnsuresDirectory.grown (h : EnsuresDirectory d path r) : Grown [] d r.2 := by
  cases h with
  | made hmade => exact hmade.grown
  | there hfailed _ => exact hfailed.grown
  | failed hfailed => exact hfailed.grown

/-- However far `MakesChain` has come, the disk has grown by directories only. -/
theorem MakesChain.grown (h : MakesChain paths d r) : Grown [] d r.2 := by
  induction paths generalizing d r with
  | nil =>
    rw [MakesChain] at h
    rw [h]
    exact .refl [] d
  | cons path outer ih =>
    rw [MakesChain] at h
    split_ifs at h with hblank
    · rw [h]
      exact .refl [] d
    · obtain ⟨hends, -⟩ | ⟨d₁, hnowhere, hfollows⟩ := h
      · exact hends.grown
      · -- first the attempt that had nowhere to be, then the outer directories, then the attempt again
        apply hnowhere.grown.trans
        cases hfollows with
        | stops houter => exact ih houter
        | goes houter hends => exact (ih houter).trans hends.grown

/-- Whether a file can be opened is no matter of the `content` that is to be written. -/
theorem writeBytes_ok_of (h : (d.writeBytes path content).1 = .ok ()) (other : ByteArray) :
    (d.writeBytes path other).1 = .ok () := by
  unfold writeBytes at h ⊢
  split at h
  · cases h
  · split_ifs at h ⊢
    rfl
  · split at h
    · rfl
    · cases h
    · cases h

/-- A disk on which `writeBytes` fails is left as it was. -/
theorem writeBytes_error {e : FileError} (h : (d.writeBytes path content).1 = .error e) :
    (d.writeBytes path content).2 = d := by
  unfold writeBytes at h ⊢
  split at h
  · rfl
  · split_ifs at h ⊢
    rfl
  · split at h
    · cases h
    · rfl
    · rfl

/-- A file that was written holds `content`, and everything else is as it was. -/
theorem WritesBytes.ok (h : WritesBytes d path content (.ok (), d')) :
    ∃ l, d'.HoldsFile path l content ∧ Grown [l] d d' := by
  cases h with
  | written hok => exact writeBytes_ok hok

/-- A file that could not be opened is as it was, and one that could holds a beginning of `content`. -/
theorem WritesBytes.error (h : WritesBytes d path content (.error ⟨stage, c⟩, d')) :
    stage.Leaves d path content d' := by
  cases h with
  | unopened herror =>
    rw [writeBytes_error herror]
    exact Grown.refl [] d
  | refused c => exact Grown.refl [] d
  | broken c n hok => exact writeBytes_ok (writeBytes_ok_of hok (content.extract 0 n))

/-- The directories that were made before do not count for what a stage leaves. -/
theorem Stage.Leaves.of_grown {stage : Stage} {d₁ : Disk} {content : ByteArray}
    (h : stage.Leaves d₁ path content d') (hgrown : Grown [] d d₁) : stage.Leaves d path content d' := by
  cases stage with
  | directory => exact Grown.trans hgrown h
  | opening => exact Grown.trans hgrown h
  | filling n =>
    obtain ⟨l, hl, hfilled⟩ := h
    exact ⟨l, hl, (hgrown.mono (by simp)).trans hfilled⟩

/-! ## What is seen -/

/-- A disk that refuses nothing is seen as it is. -/
theorem refusing_none (d : Disk) : d.refusing (fun _ => none) = d := by
  have hsame : ∀ e : Entry, ({ e with node := Node.refusedBy e.node none } : Entry) = e := by
    rintro ⟨_ | _ | _, t⟩ <;> rfl
  simp [refusing, hsame]

end PayloadAtlas.Disk
