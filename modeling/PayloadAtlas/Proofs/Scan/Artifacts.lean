import PayloadAtlas.Proofs.Disk.Growth
import PayloadAtlas.Proofs.Scan.Summary
import PayloadAtlas.Proofs.Text.Utf8

/-!
# Artifacts that were written

When the artifacts could be written, each of their paths leads to a file with what was written
(`Artifacts.write_ok`), provided that the paths lead to different files, and nothing else on the disk has
changed but for new directories. So the summary in the file of JSON is what a decoder gives for it
(`Artifacts.baseline_of_holdsFile`).
-/

namespace PayloadAtlas.Artifacts

open Disk Json

/-! ## Writing -/

/-- Making the directory of a file by `makeParent` adds directories, and does nothing else. -/
theorem makeParent_grown (d : Disk) (path : String) : Grown [] d (makeParent d path).2 := by
  rw [makeParent]
  split
  · exact .refl [] d
  · split
    · exact .refl [] d
    · exact makeDirectories_grown d _

/-- A file is written after `makeParent` made its directory. -/
theorem writeFile_eq_ok {d d' : Disk} {path text : String} (h : writeFile d path text = (.ok (), d')) :
    ∃ d₁, makeParent d path = (.ok (), d₁) ∧
      d₁.writeBytes (Text.bytesOf path) text.toUTF8 = (.ok (), d') := by
  rw [writeFile, report.eq_def, Change.andThen.eq_def] at h
  split at h
  · next hwritten =>
    split at hwritten
    · next d₁ hmade =>
      cases h
      exact ⟨d₁, hmade, hwritten⟩
    · cases hwritten
  · cases h

/-- A file that was written is there, and what else is new in `d'` are directories. -/
theorem writeFile_ok {d d' : Disk} {path text : String} (h : writeFile d path text = (.ok (), d')) :
    ∃ l, d'.HoldsFile (Text.bytesOf path) l text.toUTF8 ∧ Grown [l] d d' := by
  have hparent := makeParent_grown d path
  obtain ⟨d₁, hmade, hwritten⟩ := writeFile_eq_ok h
  have hok : (d₁.writeBytes (Text.bytesOf path) text.toUTF8).1 = .ok () := by rw [hwritten]
  obtain ⟨l, hl, hgrown⟩ := writeBytes_ok hok
  rw [hwritten] at hl hgrown
  rw [hmade] at hparent
  exact ⟨l, hl, (hparent.mono (by simp)).trans hgrown⟩

/-- A summary is written by `write` as JSON and then as Markdown. -/
theorem write_eq_ok {a : Artifacts} {d d' : Disk} {s : Summary} (h : a.write d s = (.ok (), d')) :
    ∃ d₁, writeFile d a.json s.toText = (.ok (), d₁) ∧ writeFile d₁ a.markdown s.markdown = (.ok (), d') := by
  rw [write] at h
  split at h
  · next d₁ hjson => exact ⟨d₁, hjson, h⟩
  · cases h

/-- Both artifacts are there, each with what was written, if their paths lead to different files. -/
theorem write_ok {a : Artifacts} {d d' : Disk} {s : Summary} (h : a.write d s = (.ok (), d'))
    (hapart : d'.locate true (Text.bytesOf a.json) ≠ d'.locate true (Text.bytesOf a.markdown)) :
    ∃ l m, l ≠ m ∧ d'.HoldsFile (Text.bytesOf a.json) l s.toText.toUTF8 ∧
      d'.HoldsFile (Text.bytesOf a.markdown) m s.markdown.toUTF8 ∧ Grown [l, m] d d' := by
  obtain ⟨d₁, hjson, hmarkdown⟩ := write_eq_ok h
  obtain ⟨l, hl, hgrown⟩ := writeFile_ok hjson
  obtain ⟨m, hm, hgrown'⟩ := writeFile_ok hmarkdown
  have hlocate : d'.locate true (Text.bytesOf a.json) = .ok (.found l) :=
    (locate_of_grown hgrown' (hl.1 ▸ settles_found l)).trans hl.1
  have hne : l ≠ m := by
    rintro rfl
    exact hapart (hlocate.trans hm.1.symm)
  exact ⟨l, m, hne, hl.of_grown hgrown' (by simpa using hne), hm,
    (hgrown.mono (by simp)).trans (hgrown'.mono (by simp))⟩

/-! ## Writing again -/

/-- The directory that `makeParent` made for an artifact is not made again. -/
theorem makeParent_again {written : List Location} {d e : Disk} {path : String}
    (hmade : (makeParent d path).1 = .ok ()) (h : Grown written (makeParent d path).2 e) :
    makeParent e path = (.ok (), e) := by
  rw [makeParent] at hmade h ⊢
  cases hparent : Path.parent? path with
  | none => rfl
  | some parent =>
    simp only [hparent] at hmade h ⊢
    split_ifs at hmade h ⊢ with hempty
    · rfl
    · have hbytes : Text.bytesOf parent ≠ [] := fun hnil => hempty (Text.eq_empty_of_bytesOf hnil)
      have hleads := makeDirectories_ok hbytes hmade
      exact makeDirectories_of_leads (leadsToDirectory_of_grown h hleads)

/-- A file that was written by `writeFile` can be written again where nothing was taken away since. -/
theorem writeFile_again {written : List Location} {d d' e : Disk} {path text : String} {l : Location}
    {old : ByteArray} (h : writeFile d path text = (.ok (), d')) (hgrown : Grown written d' e)
    (hfile : e.HoldsFile (Text.bytesOf path) l old) (new : String) :
    writeFile e path new = (.ok (), e.place l (.file (.bytes new.toUTF8))) := by
  obtain ⟨d₁, hmade, hwritten⟩ := writeFile_eq_ok h
  have hok : (d₁.writeBytes (Text.bytesOf path) text.toUTF8).1 = .ok () := by rw [hwritten]
  obtain ⟨l', _, hwrite⟩ := writeBytes_ok hok
  have hparent : (makeParent d path).1 = .ok () := by rw [hmade]
  have hsince : Grown (l' :: written) (makeParent d path).2 e := by
    rw [hwritten] at hwrite
    rw [hmade]
    exact (hwrite.mono (by simp)).trans (hgrown.mono fun k hk => List.mem_cons_of_mem l' hk)
  rw [writeFile, makeParent_again hparent hsince, Change.andThen, writeText,
    writeBytes_of_holdsFile hfile, report]

/-- Artifacts that were written can be written again, and nothing else than the files at `l` and `m` changes. -/
theorem write_again {a : Artifacts} {d d' : Disk} {s : Summary} {l m : Location} {old old' : ByteArray}
    (h : a.write d s = (.ok (), d')) (hd : d'.Sound) (hne : l ≠ m)
    (hjson : d'.HoldsFile (Text.bytesOf a.json) l old) (hmarkdown : d'.HoldsFile (Text.bytesOf a.markdown) m old')
    (t : Summary) :
    ∃ e, a.write d' t = (.ok (), e) ∧ Grown [l, m] d' e ∧ Grown [l, m] e d' := by
  obtain ⟨d₁, hfirst, hsecond⟩ := write_eq_ok h
  -- each of the two files is only replaced, which takes nothing away from the other
  obtain ⟨k, _, hsince⟩ := writeFile_ok hsecond
  have hplace : Grown [l] d' (d'.place l (.file (.bytes t.toText.toUTF8))) :=
    place_file_grown (.inr ⟨old, hjson.2⟩) _
  have hplaceBack : Grown [l] (d'.place l (.file (.bytes t.toText.toUTF8))) d' := place_file_shrunk hjson.2 hd _
  have hmarkdown' := hmarkdown.of_grown hplace (by simpa using Ne.symm hne)
  have hplace' := place_file_grown (.inr ⟨old', hmarkdown'.2⟩) t.markdown.toUTF8
  have hplaceBack' := place_file_shrunk hmarkdown'.2 (hplace.sound hd) t.markdown.toUTF8
  refine ⟨_, ?_, (hplace.mono (by simp)).trans (hplace'.mono (by simp)),
    (hplaceBack'.mono (by simp)).trans (hplaceBack.mono (by simp))⟩
  rw [write, writeFile_again hfirst hsince hjson]
  exact writeFile_again hsecond hplace hmarkdown' _

/-! ## Reading -/

section Reading

variable {d d' : Disk} {path : String}

/-- What a file of JSON says is a matter of what its path reads, if it reads something. -/
theorem toOption_readFile_congr {α : Type} (decoder : Decoder α)
    (h : (d'.read path).toOption = (d.read path).toOption) :
    (readFile decoder d' path).toOption = (readFile decoder d path).toOption := by
  -- an error is forgotten wherever it comes from: the disk, the encoding, or the JSON
  have hread : ∀ e : Disk, (readFile decoder e path).toOption =
      ((e.read path).toOption.bind String.fromUTF8?).bind fun text => (Decoder.ofText decoder text).toOption := by
    intro e
    rw [readFile, readText]
    cases e.read path with
    | error cause => rfl
    | ok c =>
      dsimp only [bind, Except.bind, Except.toOption, Option.bind_some]
      cases String.fromUTF8? c with
      | none => rfl
      | some text =>
        dsimp only [Option.bind_some]
        cases Decoder.ofText decoder text <;> rfl
  rw [hread, hread, h]

/-- What the next scan compares with is a matter of what `a.json` reads. -/
theorem baseline_congr {a : Artifacts} (h : (d'.read a.json).toOption = (d.read a.json).toOption) :
    a.baseline d' = a.baseline d := by
  have hbaseline : ∀ e : Disk, a.baseline e = (readFile Summary.decoder e a.json).toOption.getD {} := by
    intro e
    rw [baseline, readSummary]
    cases readFile Summary.decoder e a.json with
    | ok s => rfl
    | error cause => rcases cause with (_ | _ | _ | _ | _ | _ | _ | _) | _ <;> rfl
  rw [hbaseline, hbaseline, toOption_readFile_congr _ h]

/-- So are the `registeredRoutes` a matter of what their path reads. -/
theorem registeredRoutes_congr (h : (d'.read path).toOption = (d.read path).toOption) :
    registeredRoutes d' path = registeredRoutes d path := by
  have hroutes : ∀ e : Disk, registeredRoutes e path =
      (readFile (Decoder.list RegisteredRoute.decoder) e path).toOption.getD [] := by
    intro e
    rw [registeredRoutes]
    cases readFile (Decoder.list RegisteredRoute.decoder) e path <;> rfl
  rw [hroutes, hroutes, toOption_readFile_congr _ h]

/-- So is the `realm`. -/
theorem realm_congr (h : (d'.read path).toOption = (d.read path).toOption) : realm d' path = realm d path := by
  have hrealm : ∀ e : Disk, realm e path = (readFile Decoder.value e path).toOption.getD (.object []) := by
    intro e
    rw [realm]
    cases readFile Decoder.value e path <;> rfl
  rw [hrealm, hrealm, toOption_readFile_congr _ h]

end Reading

theorem fromUTF8?_toUTF8 (s : String) : String.fromUTF8? s.toUTF8 = some s := by
  exact dif_pos s.isValidUTF8

/-- A text that was written is read again by `readText`. -/
theorem readText_of_holdsFile {d : Disk} {path text : String} {l : Location}
    (h : d.HoldsFile (Text.bytesOf path) l text.toUTF8) : d.readText path = .ok text := by
  rw [readText, Disk.read, h.readBytes]
  simp only [bind, Except.bind, fromUTF8?_toUTF8]

/-- A written summary is read as what it `Gives`, or as an error if it nests too deep. -/
theorem readSummary_of_holdsFile {d : Disk} {path : String} {l : Location} {s t : Summary}
    (h : d.HoldsFile (Text.bytesOf path) l s.toText.toUTF8) (hgives : Decoder.Gives Summary.decoder s.toJson t) :
    (s.toJson.depth ≤ Decoder.nestingLimit → readSummary d path = .ok (some t)) ∧
      (Decoder.nestingLimit < s.toJson.depth → Fails (readSummary d path)) := by
  obtain ⟨hok, hdeep⟩ := hgives.ofText
  rw [readSummary, readFile, readText_of_holdsFile h, Summary.toText]
  dsimp only
  constructor
  · intro hdepth
    rw [hok hdepth]
    rfl
  · intro hdepth
    obtain ⟨f, hf⟩ := hdeep hdepth
    rw [hf]
    exact ⟨_, rfl⟩

/-- The `baseline` of the next scan is the summary that was written, or an empty one if that nests too deep. -/
theorem baseline_of_holdsFile {a : Artifacts} {d : Disk} {l : Location} {s t : Summary}
    (h : d.HoldsFile (Text.bytesOf a.json) l s.toText.toUTF8)
    (hgives : Decoder.Gives Summary.decoder s.toJson t) :
    a.baseline d = if s.toJson.depth ≤ Decoder.nestingLimit then t else {} := by
  obtain ⟨hok, hdeep⟩ := readSummary_of_holdsFile h hgives
  rw [baseline]
  split_ifs with hdepth
  · rw [hok hdepth]
  · obtain ⟨e, he⟩ := hdeep (Nat.lt_of_not_le hdepth)
    rw [he]

end PayloadAtlas.Artifacts
