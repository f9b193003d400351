import PayloadAtlas.Proofs.Scan.Artifacts

/-!
# What the next scan compares with

A run that could write its artifacts leaves its summary for the next scan, which finds it as it was, unless the
summary nests deeper than a text may (`Scanner.baseline_run`). The realm is one level deeper in the summary
than in its own file; so a realm that nests as deep as can be read is written, and the next scan finds
nothing.
-/

namespace PayloadAtlas

open Json

namespace Scanner

/-- A `run` that succeeds is a scan whose summary was written. -/
theorem run_eq_ok {s : Scanner} {d d' : Disk} {time : String} {outcome : ScanOutcome}
    (h : s.run d time = (.ok outcome, d')) :
    s.scan d time = .ok outcome ∧
      (Artifacts.ofConfig s.config).write d outcome.summary = (.ok (), d') := by
  rw [Scanner.run] at h
  -- neither an error of the scan nor one of the writing is a success
  cases hscan : s.scan d time with
  | error e =>
    rw [hscan] at h
    cases h
  | ok o =>
    simp only [hscan] at h
    split at h
    · next d₁ hwrite =>
      cases h
      exact ⟨rfl, hwrite⟩
    · cases h

/-- Once the walk comes to an end with `files` a scan always does, with what it concludes from them. -/
theorem scan_of_files {s : Scanner} {d : Disk} {paths : List String}
    (h : (Walk.ofConfig s.config.scan).files d = .ok paths) (time : String) :
    s.scan d time =
      .ok (s.conclude d time (Analysed.ofPaths d (Walk.ofConfig s.config.scan).root paths)) := by
  rw [Scanner.scan]
  simp only [h, bind, Except.bind, pure, Except.pure]

/-- A scan whose summary can be written is a `run`. -/
theorem run_of_scan {s : Scanner} {d : Disk} {time : String} {outcome : ScanOutcome}
    (h : s.scan d time = .ok outcome)
    (hwrite : ((Artifacts.ofConfig s.config).write d outcome.summary).1 = .ok ()) :
    s.run d time = (.ok outcome, ((Artifacts.ofConfig s.config).write d outcome.summary).2) := by
  rw [Scanner.run, h]
  dsimp only
  split
  · next d' heq => rw [heq]
  · next e d' heq =>
    rw [heq] at hwrite
    cases hwrite

/-- The summary of a run is found again in `baseline` if it does not nest too deep, and else nothing is found. -/
theorem baseline_of_run {s : Scanner} (hs : ∀ name declaredType, (s.strategy name declaredType).WellFormed)
    {d d' : Disk} {time : String} {outcome : ScanOutcome} (h : s.run d time = (.ok outcome, d'))
    (hapart : d'.locate true (Text.bytesOf s.config.payloadJsonPath) ≠
      d'.locate true (Text.bytesOf s.config.payloadMarkdownPath))
    (hdoubles : ∀ x, Number.double x ∈ outcome.summary.toJson.numbers → ReadsBack x) :
    (Artifacts.ofConfig s.config).baseline d' =
      if outcome.summary.toJson.depth ≤ Decoder.nestingLimit then outcome.summary else {} := by
  obtain ⟨hscan, hwrite⟩ := run_eq_ok h
  obtain ⟨l, m, _, hjson, _, _⟩ := Artifacts.write_ok hwrite hapart
  exact Artifacts.baseline_of_holdsFile hjson (Summary.gives_self (wellFormed_summary hs hscan) hdoubles)

/-! ## A tree with nothing but a realm -/

/-- Arrays in arrays, `n` of them. -/
def nested : Nat → Value
  | 0 => .null
  | n + 1 => .array [nested n]

/-- They nest as deep as there are arrays. -/
theorem depth_nested (n : Nat) : (nested n).depth = n := by
  induction n with
  | zero => rfl
  | succ n ih => simp [nested, Value.depth, Value.depthOfItems, ih]

theorem sound_nested (P : Number → Prop) (n : Nat) : (nested n).Sound P := by
  induction n with
  | zero => exact ⟨by simp [nested, Value.numbers], trivial⟩
  | succ n ih => exact Value.sound_array.mpr (by simpa using ih)

/-- A tree without source files, with a realm. -/
def realmDisk (realm : Value) : Disk where
  entries := [([[119]], ⟨.directory, 0⟩),
    ([[119], Text.bytesOf "realm.json"], ⟨.file (.bytes realm.pretty.toUTF8), 0⟩)]
  working := [[119]]

/-- A scanner to which nothing is said. -/
def plain : Scanner := { config := {}, strategy := .usual }

theorem wellFormed_plain (name declaredType : String) : (plain.strategy name declaredType).WellFormed :=
  wellFormed_iff_sound.mpr (ExampleStrategy.sound_usual ⟨by decide, by decide⟩ name declaredType)

/-- What a scan of `realmDisk` comes to: there are no source files. -/
def realmOutcome (realm : Value) (time : String) : ScanOutcome := plain.conclude (realmDisk realm) time []

/-- The disk that the run leaves, with both artifacts. -/
def realmDiskAfter (realm : Value) (time : String) : Disk :=
  ((Artifacts.ofConfig plain.config).write (realmDisk realm) (realmOutcome realm time).summary).2

/-- The run writes what the scan comes to, if the walk and the writing do not fail. -/
theorem run_realmDisk {realm : Value} {time : String}
    (hfiles : (Walk.ofConfig plain.config.scan).files (realmDisk realm) = .ok [])
    (hwrite : ((Artifacts.ofConfig plain.config).write (realmDisk realm)
      (realmOutcome realm time).summary).1 = .ok ()) :
    plain.run (realmDisk realm) time = (.ok (realmOutcome realm time), realmDiskAfter realm time) :=
  run_of_scan (scan_of_files hfiles time) hwrite

/-- Where the realm is. -/
def realmFile : Location := [[119], Text.bytesOf "realm.json"]

/-- What is met on the disk, which does not depend on what the realm says. -/
theorem looked_realmDisk {n : Nat} (hn : n = 126 ∨ n = 127) :
    (Walk.ofConfig plain.config.scan).files (realmDisk (nested n)) = .ok [] ∧
      (realmDisk (nested n)).locate true (Text.bytesOf plain.config.realmPath) = .ok (.found realmFile) := by
  rcases hn with rfl | rfl <;> decide +kernel

theorem written_realmDisk {n : Nat} (hn : n = 126 ∨ n = 127) :
    ((Artifacts.ofConfig plain.config).write (realmDisk (nested n))
        (realmOutcome (nested n) "t1").summary).1 = .ok () ∧
      (realmDiskAfter (nested n) "t1").locate true (Text.bytesOf plain.config.payloadJsonPath) ≠
        (realmDiskAfter (nested n) "t1").locate true (Text.bytesOf plain.config.payloadMarkdownPath) := by
  rcases hn with rfl | rfl <;> decide +kernel

/-- The realm that is known is the one in the file. -/
theorem realm_realmOutcome_of_comesBack {realm : Value} (hcomes : realm.ComesBack)
    (hdepth : realm.depth ≤ Decoder.nestingLimit)
    (hplace : (realmDisk realm).locate true (Text.bytesOf plain.config.realmPath) = .ok (.found realmFile))
    (time : String) : (realmOutcome realm time).summary.realmMetadata = realm := by
  have hfile : (realmDisk realm).HoldsFile (Text.bytesOf plain.config.realmPath) realmFile realm.pretty.toUTF8 :=
    ⟨hplace, rfl⟩
  have hread := (Decoder.gives_value hcomes.readable).ofText.1 hdepth
  rw [hcomes.reread_eq] at hread
  show Artifacts.realm (realmDisk realm) plain.config.realmPath = realm
  rw [Artifacts.realm, Artifacts.readFile, Artifacts.readText_of_holdsFile hfile]
  dsimp only
  rw [hread]
  rfl

/-- What is known about the realm nests as deep as it was written. -/
theorem realm_realmOutcome {n : Nat} (hn : n = 126 ∨ n = 127) (time : String) :
    (realmOutcome (nested n) time).summary.realmMetadata = nested n := by
  have hcomes : (nested n).ComesBack :=
    ⟨(sound_nested (fun _ => True) n).2, (sound_nested (fun m => m.reread? = some m) n).1⟩
  have hdepth : (nested n).depth ≤ Decoder.nestingLimit := by
    rw [depth_nested, Decoder.nestingLimit]
    omega
  exact realm_realmOutcome_of_comesBack hcomes hdepth (looked_realmDisk hn).2 time

theorem doubles_realmOutcome {n : Nat} (hn : n = 126 ∨ n = 127) (time : String) (x : Double) :
    Number.double x ∉ (realmOutcome (nested n) time).summary.toJson.numbers := by
  have hsound : (realmOutcome (nested n) time).summary.toJson.Sound (fun m => m ≠ .double x) := by
    refine Summary.sound_toJson (fun t ht => nomatch ht) (scoreTotal_conclude_lt _ _ _ _) ?_
      (fun m _ => by simp)
    rw [realm_realmOutcome hn]
    exact sound_nested _ n
  exact fun hx => hsound.1 _ hx rfl

/-- The next scan compares with the summary of a run, if that does not nest deeper than `nestingLimit`, and else with
nothing. -/
theorem baseline_run {s : Scanner} (hs : ∀ name declaredType, (s.strategy name declaredType).WellFormed)
    {d d' : Disk} {time : String} {outcome : ScanOutcome} (h : s.run d time = (.ok outcome, d'))
    (hapart : d'.locate true (Text.bytesOf s.config.payloadJsonPath) ≠
      d'.locate true (Text.bytesOf s.config.payloadMarkdownPath))
    (hdoubles : ∀ x, Number.double x ∈ outcome.summary.toJson.numbers → ReadsBack x) :
    (Artifacts.ofConfig s.config).baseline d' =
        (if outcome.summary.toJson.depth ≤ Decoder.nestingLimit then outcome.summary else {}) ∧
      ∀ time' next, s.scan d' time' = .ok next → next.summary.drift =
        Drift.between
          (if outcome.summary.toJson.depth ≤ Decoder.nestingLimit then outcome.summary.shapes else [])
          next.summary.shapes := by
  have hbaseline := baseline_of_run hs h hapart hdoubles
  refine ⟨hbaseline, ?_⟩
  intro time' next hnext
  obtain ⟨paths, _, rfl⟩ := scan_eq_conclude hnext
  show Drift.between ((Artifacts.ofConfig s.config).baseline d').shapes _ = _
  rw [hbaseline]
  split_ifs <;> rfl

/-- A realm that nests 126 deep is found again. -/
theorem baseline_run_nested :
    plain.run (realmDisk (nested 126)) "t1" = (.ok (realmOutcome (nested 126) "t1"),
        realmDiskAfter (nested 126) "t1") ∧
      (Artifacts.ofConfig plain.config).baseline (realmDiskAfter (nested 126) "t1") =
        (realmOutcome (nested 126) "t1").summary := by
  have hrun := run_realmDisk (looked_realmDisk (.inl rfl)).1 (written_realmDisk (.inl rfl)).1
  have hbaseline := (baseline_run wellFormed_plain hrun (written_realmDisk (.inl rfl)).2
    fun x hx => absurd hx (doubles_realmOutcome (.inl rfl) "t1" x)).1
  have hdepth : (realmOutcome (nested 126) "t1").summary.toJson.depth ≤ Decoder.nestingLimit := by
    have hle := Summary.depth_toJson_le (s := (realmOutcome (nested 126) "t1").summary) (n := 0)
      (fun t ht => nomatch ht)
    rw [realm_realmOutcome (.inl rfl), depth_nested] at hle
    exact hle
  rw [if_pos hdepth] at hbaseline
  exact ⟨hrun, hbaseline⟩

/-- One that nests 127 deep can be read, but the summary that it is in cannot. -/
theorem baseline_run_ne_nested :
    plain.run (realmDisk (nested 127)) "t1" = (.ok (realmOutcome (nested 127) "t1"),
        realmDiskAfter (nested 127) "t1") ∧
      (realmDiskAfter (nested 127) "t1").locate true (Text.bytesOf plain.config.payloadJsonPath) ≠
        (realmDiskAfter (nested 127) "t1").locate true (Text.bytesOf plain.config.payloadMarkdownPath) ∧
      (∀ x, Number.double x ∉ (realmOutcome (nested 127) "t1").summary.toJson.numbers) ∧
      (Artifacts.ofConfig plain.config).baseline (realmDiskAfter (nested 127) "t1") ≠
        (realmOutcome (nested 127) "t1").summary := by
  have hapart := (written_realmDisk (n := 127) (.inr rfl)).2
  have hrun := run_realmDisk (looked_realmDisk (.inr rfl)).1 (written_realmDisk (.inr rfl)).1
  have hdoubles := doubles_realmOutcome (n := 127) (.inr rfl) "t1"
  have hbaseline := baseline_of_run wellFormed_plain hrun hapart fun x hx => absurd hx (hdoubles x)
  have hdepth : ¬(realmOutcome (nested 127) "t1").summary.toJson.depth ≤ Decoder.nestingLimit := by
    have hlt := (realmOutcome (nested 127) "t1").summary.depth_realm_lt
    rw [realm_realmOutcome (.inr rfl), depth_nested] at hlt
    exact Nat.not_le.mpr hlt
  rw [if_neg hdepth] at hbaseline
  refine ⟨hrun, hapart, hdoubles, fun hsame => ?_⟩
  have htime : "" = "t1" := congrArg Summary.timestamp (hbaseline.symm.trans hsame)
  exact absurd htime (by decide)

end Scanner

end PayloadAtlas
