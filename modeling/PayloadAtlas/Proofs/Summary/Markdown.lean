import Mathlib.Data.List.Basic
import PayloadAtlas.Proofs.Json.Layout
import PayloadAtlas.Proofs.Scan.Baseline
import PayloadAtlas.Proofs.Summary.Page
import PayloadAtlas.Summary.Markdown

/-!
# The lines of the page of a summary

A page is made of items with line ends between them (`Summary.lines_markdown`), and texts are put into items as they
are. So it is split by its lines into the parts that it was made of just if no text on it, outside of examples, has a
line end of its own (`Summary.ofLines?_markdown_iff`). Examples are always told by their fences
(`Summary.lines_example`).
-/

namespace PayloadAtlas.Summary

open Json (Value)
open Text (lines)

variable {s : Summary} {shape : Shape} {ms : Members}

/-! ## Items -/

/-- What stands on the page before the shapes; an item may have several lines. -/
def headItems (s : Summary) : List String :=
  ["# Payload Registry", "", s!"**Scan time:** {s.timestamp}", s!"**Shape score:** {s.scoreTotal} / 10", "",
    "## Realm Metadata"] ++ realmLines s.realmMetadata ++ ["", "## Payload Shapes"]

/-- What stands on the page about a shape, before its example. -/
def shapeItems (s : Shape) : List String :=
  ["### " ++ s.handlerLabel, "- Module: " ++ s.module, "- Source path: " ++ s.sourcePath,
    "- Registered route: " ++ (if s.registered then "yes" else "no"), s!"- Shape score: {s.score}"]
    ++ (if s.parameters.isEmpty then [] else "- Parameters:" :: s.parameters.map parameterLine)

/-- The note at the end of the page. -/
def note (s : Summary) : String :=
  if s.drift.isEmpty then "- No schema drift since the previous scan."
  else "- Schema drift detected: keep this artifact aligned with route changes."

/-- What stands on the page after the shapes, with the `note` at the end. -/
def tailItems (s : Summary) : List String :=
  "## Drift Observations" :: driftLines s.drift ++ ["", "## Notes", s.note]

/-- The page of `markdownLines` has its head, the shapes one after the other, and its tail. -/
theorem markdownLines_eq (s : Summary) :
    s.markdownLines = s.headItems ++ s.shapes.flatMap shapeLines ++ s.tailItems := by
  simp only [markdownLines, headItems, tailItems, note, List.append_assoc, List.cons_append, List.nil_append]

theorem shapeLines_of_none (h : shape.example? = none) : shapeLines shape = shapeItems shape ++ [""] := by
  rw [shapeLines, h, List.append_nil, shapeItems]

/-- An example stands between two fences, after its title. -/
theorem shapeLines_of_some (h : shape.example? = some ms) : shapeLines shape =
    shapeItems shape ++ ["- Example payload:", openingFence, (Value.object ms).pretty, closingFence, ""] := by
  rw [shapeLines, h, shapeItems, List.append_assoc _ _ [""]]
  rfl

/-- The page has the `lines` of all its items, and what comes after the last line end. -/
theorem lines_markdown (s : Summary) : lines s.markdown = s.markdownLines.flatMap lines ++ [""] := by
  have hend : s.markdown = "\n".intercalate s.markdownLines ++ "\n" ++ "" := (String.append_empty).symm
  have hne : s.markdownLines ≠ [] := by simp [markdownLines]
  rw [hend, Text.lines_append, Text.lines_intercalate hne]
  rfl

/-! ## Examples -/

theorem closingFence_notMem (ms : Members) : closingFence ∉ lines (Value.object ms).pretty := by
  intro hmem
  obtain ⟨c, hc, hstart⟩ := Value.head?_of_mem_lines_pretty ms _ hmem
  obtain rfl : '\x60' = c := Option.some.inj hc
  exact absurd hstart (by decide)

theorem isContent_of_mem_lines_pretty (ms : Members) : ∀ line ∈ lines (Value.object ms).pretty, IsContent line := by
  intro line hline
  obtain ⟨c, hc, hstart⟩ := Value.head?_of_mem_lines_pretty ms line hline
  refine ⟨c, hc, ?_⟩
  rintro rfl
  exact absurd hstart (by decide)

/-- The lines of an example stand between its fence and the next one. -/
theorem lines_example {before after : List Shape} (hshapes : s.shapes = before ++ shape :: after)
    (hexample : shape.example? = some ms) : ∃ rest,
      lines s.markdown =
        (s.headItems ++ before.flatMap shapeLines ++ shapeItems shape ++
          ["- Example payload:", openingFence]).flatMap lines ++
        lines (Value.object ms).pretty ++ closingFence :: rest := by
  have hitems : s.markdownLines =
      (s.headItems ++ before.flatMap shapeLines ++ shapeItems shape ++ ["- Example payload:", openingFence]) ++
        (Value.object ms).pretty :: closingFence :: ("" :: after.flatMap shapeLines ++ s.tailItems) := by
    rw [markdownLines_eq, hshapes, List.flatMap_append, List.flatMap_cons, shapeLines_of_some hexample]
    simp
  have hfence : lines closingFence = [closingFence] := by decide
  refine ⟨("" :: after.flatMap shapeLines ++ s.tailItems).flatMap lines ++ [""], ?_⟩
  rw [lines_markdown, hitems, List.flatMap_append, List.flatMap_cons, List.flatMap_cons, hfence]
  simp only [List.append_assoc, List.cons_append, List.nil_append]

/-! ## The parts of the page -/

/-- The part of the page about a shape. -/
def partOf (s : Shape) : Part where
  heading := "### " ++ s.handlerLabel
  facts := ["- Module: " ++ s.module, "- Source path: " ++ s.sourcePath,
    "- Registered route: " ++ (if s.registered then "yes" else "no"), s!"- Shape score: {s.score}"]
  parameters := s.parameters.map parameterLine
  example? := s.example?.map fun ms => lines (Value.object ms).pretty

/-- The page of a summary, as it is meant to be split. -/
def page (s : Summary) : Page where
  facts := [s!"**Scan time:** {s.timestamp}", s!"**Shape score:** {s.scoreTotal} / 10"]
  realm := realmLines s.realmMetadata
  shapes := s.shapes.map partOf
  drift := s.drift.sections.map fun (title, entries) => (s!"- {title}: {entries.length}", entries.map ("  - " ++ ·))
  note := s.note

/-- Whether no text on the page has a line end, other than the examples. -/
def IsPlain (s : Summary) : Prop := ∀ text ∈ s.page.texts, '\n' ∉ text.toList

instance (s : Summary) : Decidable s.IsPlain := inferInstanceAs (Decidable (∀ text ∈ s.page.texts, _))

theorem headItems_eq (s : Summary) : s.headItems =
    ["# Payload Registry", ""] ++ s.page.facts ++ ["", "## Realm Metadata"] ++ s.page.realm ++
      ["", "## Payload Shapes"] :=
  rfl

theorem shapeItems_eq (shape : Shape) : shapeItems shape =
    (partOf shape).heading :: ((partOf shape).facts ++ Part.parameterLines (partOf shape).parameters) := by
  rw [shapeItems, Part.parameterLines, partOf]
  simp only [List.isEmpty_map, List.cons_append, List.nil_append]

theorem tailItems_eq (s : Summary) : s.tailItems =
    "## Drift Observations" :: ofSections s.page.drift ++ ["", "## Notes", s.page.note] := by
  rw [tailItems, driftLines, page, ofSections, List.flatMap_map]

/-- On a plain page the items about a shape are lines. -/
theorem IsPlain.notMem_shapeItems (h : s.IsPlain) (hshape : shape ∈ s.shapes) :
    ∀ item ∈ shapeItems shape, '\n' ∉ item.toList := by
  have htexts : ∀ text ∈ (partOf shape).texts, '\n' ∉ text.toList := by
    intro text htext
    refine h text ?_
    have hmem : text ∈ s.page.shapes.flatMap Part.texts :=
      List.mem_flatMap.mpr ⟨_, List.mem_map_of_mem hshape, htext⟩
    simp only [Page.texts, List.mem_append]
    exact .inl (.inl (.inr hmem))
  intro item hitem
  rw [shapeItems_eq, List.mem_cons, List.mem_append] at hitem
  rcases hitem with rfl | hfact | hparameter
  · exact htexts _ (by simp [Part.texts])
  · exact htexts _ (by simp [Part.texts, hfact])
  · rw [Part.parameterLines] at hparameter
    split at hparameter
    · cases hparameter
    · rcases List.mem_cons.mp hparameter with rfl | hparameter
      · decide
      · exact htexts _ (by simp [Part.texts, hparameter])

/-- On a plain page a shape has the lines of its part, and an empty one. -/
theorem flatMap_lines_shapeLines (h : s.IsPlain) (hshape : shape ∈ s.shapes) :
    (shapeLines shape).flatMap lines = (partOf shape).lines ++ [""] := by
  have hitems := Text.flatMap_lines (h.notMem_shapeItems hshape)
  have hempty : lines "" = [""] := rfl
  have htitles : lines "- Example payload:" = ["- Example payload:"] ∧ lines openingFence = [openingFence] ∧
      lines closingFence = [closingFence] := by decide
  cases hexample : shape.example? with
  | none =>
    rw [shapeLines_of_none hexample, List.flatMap_append, hitems, shapeItems_eq]
    simp [Part.lines, partOf, hexample, Part.exampleLines, hempty]
  | some ms =>
    rw [shapeLines_of_some hexample, List.flatMap_append, hitems, shapeItems_eq]
    simp [Part.lines, partOf, hexample, Part.exampleLines, hempty, htitles]

/-- A plain page has the lines of `page`. -/
theorem lines_markdown_of_isPlain (h : s.IsPlain) : lines s.markdown = s.page.lines := by
  -- each text of the head and the tail is one line
  have hhead : s.headItems.flatMap lines = s.headItems := by
    have hfacts : ∀ line ∈ s.page.facts, '\n' ∉ line.toList := fun line hline => h line (by simp [Page.texts, hline])
    have hrealm : ∀ line ∈ s.page.realm, '\n' ∉ line.toList := fun line hline => h line (by simp [Page.texts, hline])
    rw [headItems_eq]
    refine Text.flatMap_lines ?_
    simp only [List.forall_mem_append]
    exact ⟨⟨⟨⟨by decide, hfacts⟩, by decide⟩, hrealm⟩, by decide⟩
  have htail : s.tailItems.flatMap lines = s.tailItems := by
    have hdrift : ∀ line ∈ ofSections s.page.drift, '\n' ∉ line.toList :=
      fun line hline => h line (by simp [Page.texts, hline])
    have hnote : '\n' ∉ s.page.note.toList := h s.page.note (by simp [Page.texts])
    rw [tailItems_eq]
    refine Text.flatMap_lines ?_
    rw [List.cons_append, List.forall_mem_cons, List.forall_mem_append]
    refine ⟨by decide, hdrift, ?_⟩
    simp only [List.forall_mem_cons]
    exact ⟨by decide, by decide, hnote, List.forall_mem_nil _⟩
  have hshapes : (s.shapes.flatMap shapeLines).flatMap lines =
      s.page.shapes.flatMap fun part => part.lines ++ [""] := by
    rw [List.flatMap_assoc, page, List.flatMap_map]
    exact List.flatMap_congr fun shape hshape => flatMap_lines_shapeLines h hshape
  rw [lines_markdown, markdownLines_eq, List.flatMap_append, List.flatMap_append, hhead, hshapes, htail, headItems_eq,
    tailItems_eq, Page.lines]
  simp only [List.append_assoc, List.cons_append, List.nil_append]

/-! ## Splitting the page -/

theorem isEntry_append (text : String) : isEntry ("  - " ++ text) = true := by
  simp [isEntry]

/-- A parameter is an entry, by `parameterLine`, below its title. -/
theorem isEntry_parameterLine (p : HandlerParameter) : isEntry (parameterLine p) = true := by
  show isEntry ("  - " ++ p.name ++ " (" ++ _ ++ ")" ++ _) = true
  simp only [String.append_assoc]
  exact isEntry_append _

theorem isContent_append {c : Char} {title : String} (htitle : title.toList.head? = some c) (hc : c ≠ '#')
    (text : String) : IsContent (title ++ text) :=
  IsContent.append ⟨c, htitle, hc⟩ text

/-- There is one line in `realmLines` for each key of the realm. -/
theorem length_realmLines (ms : Members) : (realmLines (.object ms)).length = ms.length := by
  rw [realmLines, List.length_map, List.length_mergeSort]

/-- What is said about the realm begins with a dash or an underscore. -/
theorem isContent_of_mem_realmLines (realm : Value) : ∀ line ∈ realmLines realm, IsContent line := by
  intro line hline
  rw [realmLines.eq_def] at hline
  split at hline
  · obtain ⟨⟨key, value⟩, -, rfl⟩ := List.mem_map.mp hline
    show IsContent ("- " ++ key ++ ": " ++ shown value)
    simp only [String.append_assoc]
    exact isContent_append (c := '-') rfl (by decide) _
  · cases hline

/-- The part about a shape is of the forms that it is split by. -/
theorem isRegular_partOf (shape : Shape) : (partOf shape).IsRegular where
  heading := by
    show isHeading ("### " ++ shape.handlerLabel) = true
    simp [isHeading]
  length_facts := rfl
  facts := by
    simp only [partOf, List.forall_mem_cons]
    exact ⟨isContent_append (c := '-') rfl (by decide) _, isContent_append (c := '-') rfl (by decide) _,
      isContent_append (c := '-') rfl (by decide) _, isContent_append (c := '-') rfl (by decide) _,
      List.forall_mem_nil _⟩
  parameters := by
    intro line hline
    obtain ⟨p, -, rfl⟩ := List.mem_map.mp hline
    exact isEntry_parameterLine p
  example? := by
    intro ls hls
    obtain ⟨ms, -, rfl⟩ := Option.map_eq_some_iff.mp hls
    exact ⟨closingFence_notMem ms, isContent_of_mem_lines_pretty ms⟩

theorem isRegular_page (s : Summary) : s.page.IsRegular where
  facts := by
    show ∀ line ∈ ["**Scan time:** " ++ s.timestamp, "**Shape score:** " ++ toString s.scoreTotal ++ " / 10"], _
    simp only [List.forall_mem_cons, String.append_assoc]
    exact ⟨isContent_append (c := '*') rfl (by decide) _, isContent_append (c := '*') rfl (by decide) _,
      List.forall_mem_nil _⟩
  realm := isContent_of_mem_realmLines s.realmMetadata
  shapes := by
    intro part hpart
    obtain ⟨shape, -, rfl⟩ := List.mem_map.mp hpart
    exact isRegular_partOf shape
  titles := by
    intro below hbelow
    obtain ⟨⟨title, entries⟩, -, rfl⟩ := List.mem_map.mp hbelow
    show IsContent ("- " ++ title ++ ": " ++ toString entries.length) ∧
      isEntry ("- " ++ title ++ ": " ++ toString entries.length) = false
    simp only [String.append_assoc]
    exact ⟨isContent_append (c := '-') rfl (by decide) _, by simp [isEntry, List.isPrefixOf]⟩
  entries := by
    intro below hbelow line hline
    obtain ⟨⟨title, entries⟩, -, rfl⟩ := List.mem_map.mp hbelow
    obtain ⟨entry, -, rfl⟩ := List.mem_map.mp hline
    exact isEntry_append entry
  note := by
    show IsContent s.note
    rw [note]
    split <;> exact ⟨'-', rfl, by decide⟩

/-- The page is split into the parts that it was made of just if no text on it has a line end. -/
theorem ofLines?_markdown_iff (s : Summary) : Page.ofLines? (lines s.markdown) = some s.page ↔ s.IsPlain := by
  constructor
  · intro h text htext
    rcases Page.mem_of_ofLines? h text htext with hline | rfl
    · exact Text.newLine_notMem_of_mem_lines hline
    · decide
  · intro h
    rw [lines_markdown_of_isPlain h, Page.ofLines?_lines (isRegular_page s)]

/-- The page has the lines of its items, one for each but for line ends in their texts. The lines of an example are
those between its fence and the next line that is one. If and only if no text has a line end, the page is split into
its parts by its lines: a line for each key of the realm, parameter and entry, as many entries as are announced; there
is one heading for each shape then. -/
theorem markdown_splits_iff_isPlain (s : Summary) :
    (lines s.markdown = s.markdownLines.flatMap lines ++ [""] ∧
      ∀ item ∈ s.markdownLines, (lines item).length = item.toList.count '\n' + 1) ∧
    (∀ before shape after ms, s.shapes = before ++ shape :: after → shape.example? = some ms →
      closingFence ∉ lines (Value.object ms).pretty ∧ ∃ rest,
        lines s.markdown =
          (s.headItems ++ before.flatMap shapeLines ++ shapeItems shape ++
            ["- Example payload:", openingFence]).flatMap lines ++
          lines (Value.object ms).pretty ++ closingFence :: rest) ∧
    (Page.ofLines? (lines s.markdown) = some s.page ↔ s.IsPlain) ∧
    (∀ keys, s.realmMetadata = .object keys → s.page.realm.length = keys.length) ∧
    (s.IsPlain →
      (lines s.markdown).filter isHeading = s.shapes.map fun shape => "### " ++ shape.handlerLabel) := by
  refine ⟨⟨lines_markdown s, fun item _ => Text.length_lines item⟩, ?_, ofLines?_markdown_iff s, ?_, fun h => ?_⟩
  · intro before shape after ms hshapes hexample
    exact ⟨closingFence_notMem ms, lines_example hshapes hexample⟩
  · intro keys hkeys
    rw [page, hkeys, length_realmLines]
  · rw [lines_markdown_of_isPlain h, Page.filter_isHeading_lines (isRegular_page s)]
    show (s.shapes.map partOf).map Part.heading = _
    rw [List.map_map]
    rfl

/-- A summary with something in all its parts. -/
def sample : Summary where
  timestamp := "2026-03-01T12:00:00.000000"
  scoreTotal := 1
  realmMetadata := .object [("owner", .string "api"), ("realm", .string "notes")]
  shapes :=
    [{ path := "/notes", method := "POST", function := "create_note", module := "app.main"
       sourcePath := "app/main.py"
       parameters := [{ name := "payload", declaredType := "Note", model := some "Note" }]
       registered := true, score := 2
       example? := some [("payload", .object [("title", .string "example_title"), ("count", .number (.integer 0))])] }]
  drift := { added := ["POST /notes"] }

theorem markdown_splits_sample : sample.IsPlain ∧ Page.ofLines? (lines sample.markdown) = some sample.page ∧
    (lines sample.markdown).filter isHeading = ["### POST /notes → create_note"] := by
  have hrealm : sample.page.realm = ["- owner: api", "- realm: notes"] := by
    show (List.mergeSort _ _).map _ = _
    rw [List.mergeSort_of_pairwise (by decide)]
    decide
  have hplain : sample.IsPlain := by
    rw [IsPlain, Page.texts, hrealm]
    decide
  obtain ⟨-, -, hsplits, -, hheadings⟩ := markdown_splits_iff_isPlain sample
  exact ⟨hplain, hsplits.mpr hplain, hheadings hplain⟩

/-- What is said about a tree with nothing but a realm. -/
theorem summary_realmOutcome {realm : Value} (hcomes : realm.ComesBack)
    (hdepth : realm.depth ≤ Json.Decoder.nestingLimit)
    (hplace : (Scanner.realmDisk realm).locate true (Text.bytesOf Scanner.plain.config.realmPath) =
      .ok (.found Scanner.realmFile))
    (hnone : (Scanner.realmDisk realm).readText Scanner.plain.config.payloadJsonPath = .error .notFound)
    (time : String) :
    (Scanner.realmOutcome realm time).summary = { timestamp := time, realmMetadata := realm } := by
  have hrealm := Scanner.realm_realmOutcome_of_comesBack hcomes hdepth hplace time
  have hbaseline : (Artifacts.ofConfig Scanner.plain.config).baseline (Scanner.realmDisk realm) = {} := by
    have hpath : (Artifacts.ofConfig Scanner.plain.config).json = Scanner.plain.config.payloadJsonPath := rfl
    rw [Artifacts.baseline, Artifacts.readSummary, Artifacts.readFile, hpath, hnone]
  have hdrift : Drift.between [] [] = {} := by
    simp [Drift.between, Drift.latest, Drift.only, Text.sorted]
  show Summary.mk _ _ _ [] (Drift.between ((Artifacts.ofConfig Scanner.plain.config).baseline _).shapes []) = _
  rw [hbaseline, hdrift]
  exact congrArg (fun realm => ({ timestamp := time, realmMetadata := realm } : Summary)) hrealm

/-- A realm with one key, the text of which has a line end. -/
def oneKey : Value := .object [("owner", .string "api\n- team: web")]

/-- A realm with two keys. -/
def twoKeys : Value := .object [("owner", .string "api"), ("team", .string "web")]

theorem comesBack_keys : oneKey.ComesBack ∧ twoKeys.ComesBack :=
  ⟨⟨by simp [oneKey, Value.keysDiffer, Value.membersKeysDiffer], by decide⟩,
    ⟨by simp [twoKeys, Value.keysDiffer, Value.membersKeysDiffer], by decide⟩⟩

theorem realmLines_keys : realmLines oneKey = ["- owner: api\n- team: web"] ∧
    realmLines twoKeys = ["- owner: api", "- team: web"] := by
  have hone : [("owner", Value.string "api\n- team: web")].mergeSort (fun a b => Text.notAfter a.1 b.1) =
      [("owner", .string "api\n- team: web")] := List.mergeSort_of_pairwise (by decide)
  have htwo : [("owner", Value.string "api"), ("team", .string "web")].mergeSort (fun a b => Text.notAfter a.1 b.1) =
      [("owner", .string "api"), ("team", .string "web")] := List.mergeSort_of_pairwise (by decide)
  rw [oneKey, twoKeys, realmLines, realmLines, hone, htwo]
  decide

theorem scan_keys :
    Scanner.plain.scan (Scanner.realmDisk oneKey) "t" = .ok (Scanner.realmOutcome oneKey "t") ∧
      Scanner.plain.scan (Scanner.realmDisk twoKeys) "t" = .ok (Scanner.realmOutcome twoKeys "t") ∧
      (Scanner.realmOutcome oneKey "t").summary = { timestamp := "t", realmMetadata := oneKey } ∧
      (Scanner.realmOutcome twoKeys "t").summary = { timestamp := "t", realmMetadata := twoKeys } := by
  have hone : (Walk.ofConfig Scanner.plain.config.scan).files (Scanner.realmDisk oneKey) = .ok [] := by decide +kernel
  have htwo : (Walk.ofConfig Scanner.plain.config.scan).files (Scanner.realmDisk twoKeys) = .ok [] := by decide +kernel
  refine ⟨Scanner.scan_of_files hone "t", Scanner.scan_of_files htwo "t", ?_, ?_⟩
  · exact summary_realmOutcome comesBack_keys.1 (by decide) (by decide) (by decide) "t"
  · exact summary_realmOutcome comesBack_keys.2 (by decide) (by decide) (by decide) "t"

/-- Scans that find realms with one key and with two keys have one page, which is split as that of two keys. -/
theorem not_markdown_splits_keys : ∃ one two,
    Scanner.plain.scan (Scanner.realmDisk oneKey) "t" = .ok one ∧
    Scanner.plain.scan (Scanner.realmDisk twoKeys) "t" = .ok two ∧
    one.summary.markdown = two.summary.markdown ∧
    one.summary.page.realm.length = 1 ∧ two.summary.page.realm.length = 2 ∧
    Page.ofLines? (lines one.summary.markdown) ≠ some one.summary.page := by
  obtain ⟨hscan, hscan', hone, htwo⟩ := scan_keys
  refine ⟨_, _, hscan, hscan', ?_, ?_, ?_, ?_⟩
  · simp only [hone, htwo, markdown, markdownLines, realmLines_keys.1, realmLines_keys.2]
    decide +kernel
  · rw [hone]
    exact length_realmLines _
  · rw [htwo]
    exact length_realmLines _
  · rw [Ne, ofLines?_markdown_iff, hone]
    intro hplain
    have hline := hplain "- owner: api\n- team: web" (by
      simp only [Page.texts, page, realmLines_keys.1, List.mem_append, List.mem_singleton]
      simp)
    exact absurd hline (by decide)

end PayloadAtlas.Summary
