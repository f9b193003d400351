import Mathlib.Data.List.Basic

/-!
# Pages, line by line

A page about a scan as its parts (`Page`), and how it is put together from lines (`Page.lines`) and split again
(`Page.ofLines?`). Parts end with empty lines, entries are indented below their titles, and an example stands between
two fences; so a page comes back, if the lines in it are of these forms (`Page.ofLines?_lines`).
-/

namespace PayloadAtlas

variable {ls : List String} {line : String}

/-! ## Forms of lines -/

/-- Whether a line is indented as an entry below a title. -/
def isEntry (line : String) : Bool := "  - ".toList.isPrefixOf line.toList

/-- Whether a line is the heading of a part about a shape. -/
def isHeading (line : String) : Bool := "### ".toList.isPrefixOf line.toList

/-- The line before an example. -/
def openingFence : String := "\x60\x60\x60json"

/-- The line after an example. -/
def closingFence : String := "\x60\x60\x60"

/-- Whether a line has something in it, and begins as no title does. -/
def IsContent (line : String) : Prop := ∃ c ∈ line.toList.head?, c ≠ '#'

theorem IsContent.ne_empty (h : IsContent line) : line ≠ "" := by
  rintro rfl
  obtain ⟨c, hc, -⟩ := h
  cases hc

theorem IsContent.append (h : IsContent line) (text : String) : IsContent (line ++ text) := by
  obtain ⟨c, hc, hne⟩ := h
  refine ⟨c, ?_, hne⟩
  rw [String.toList_append, List.head?_append, hc]
  rfl

theorem IsContent.isHeading_eq_false (h : IsContent line) : isHeading line = false := by
  obtain ⟨c, hc, hne⟩ := h
  refine Bool.eq_false_iff.mpr fun hheading => ?_
  obtain ⟨rest, hrest⟩ := List.isPrefixOf_iff_prefix.mp hheading
  rw [← hrest] at hc
  exact hne (Option.some.inj hc).symm

theorem ne_empty_of_isHeading (h : isHeading line) : line ≠ "" := by
  rintro rfl
  exact absurd h (by decide)

theorem isContent_of_isEntry (h : isEntry line) : IsContent line := by
  obtain ⟨rest, hrest⟩ := List.isPrefixOf_iff_prefix.mp h
  exact ⟨' ', by rw [← hrest]; rfl, by decide⟩

theorem filter_isHeading_eq_nil (h : ∀ line ∈ ls, IsContent line) : ls.filter isHeading = [] :=
  List.filter_eq_nil_iff.mpr fun line hline => by simp [(h line hline).isHeading_eq_false]

theorem empty_notMem (h : ∀ line ∈ ls, IsContent line) : "" ∉ ls := fun hmem => (h "" hmem).ne_empty rfl

/-! ## Entries below titles -/

/-- The lines of titles with the entries below them, one after the other. -/
def ofSections (sections : List (String × List String)) : List String :=
  sections.flatMap fun (title, entries) => title :: entries

/-- The entries at the beginning of some lines, and the titles after them with the entries below them. -/
def sectionsIn : List String → List String × List (String × List String)
  | [] => ([], [])
  | line :: rest =>
    let (entries, sections) := sectionsIn rest
    if isEntry line then (line :: entries, sections) else ([], (line, entries) :: sections)

/-- What is split off is among the lines. -/
theorem mem_sectionsIn (ls : List String) : ∀ line ∈ (sectionsIn ls).1 ++ ofSections (sectionsIn ls).2, line ∈ ls := by
  induction ls with
  | nil => simp [sectionsIn, ofSections]
  | cons first rest ih =>
    rw [sectionsIn]
    dsimp only
    split
    · exact fun line hline => List.cons_subset_cons first ih hline
    · exact fun line hline => List.cons_subset_cons first ih hline

/-- Entries at the beginning belong to no title among these lines, as `sectionsIn` has it. -/
theorem sectionsIn_append {entries : List String} (h : ∀ line ∈ entries, isEntry line) (rest : List String) :
    sectionsIn (entries ++ rest) = (entries ++ (sectionsIn rest).1, (sectionsIn rest).2) := by
  induction entries with
  | nil => rfl
  | cons line entries ih =>
    obtain ⟨hline, hentries⟩ := List.forall_mem_cons.mp h
    rw [List.cons_append, sectionsIn, ih hentries]
    exact if_pos hline

/-- Sections come back from the lines of `ofSections`. -/
theorem sectionsIn_ofSections {sections : List (String × List String)}
    (h : ∀ p ∈ sections, isEntry p.1 = false ∧ ∀ line ∈ p.2, isEntry line) :
    sectionsIn (ofSections sections) = ([], sections) := by
  induction sections with
  | nil => rfl
  | cons p sections ih =>
    obtain ⟨⟨htitle, hentries⟩, hsections⟩ := List.forall_mem_cons.mp h
    rw [ofSections, List.flatMap_cons, List.cons_append, sectionsIn, sectionsIn_append hentries]
    rw [ofSections] at ih
    rw [ih hsections, List.append_nil]
    exact if_neg (by simp [htitle])

/-! ## Parts -/

/-- The part of a page about one shape. -/
structure Part where
  heading : String
  /-- Four lines that every shape has. -/
  facts : List String
  parameters : List String
  /-- The lines between the fences. -/
  example? : Option (List String)

namespace Part

/-- The lines of an example. -/
def exampleLines : Option (List String) → List String
  | some ls => "- Example payload:" :: openingFence :: ls ++ [closingFence]
  | none => []

/-- The lines of parameters. -/
def parameterLines (parameters : List String) : List String :=
  if parameters.isEmpty then [] else "- Parameters:" :: parameters

/-- The lines of a part. -/
def lines (p : Part) : List String := p.heading :: (p.facts ++ (parameterLines p.parameters ++ exampleLines p.example?))

/-- The example that some lines are, without its title and its fences. -/
def exampleIn (ls : List String) : Option (List String) :=
  if ["- Example payload:", openingFence] <+: ls then some ((ls.drop 2).takeWhile (· != closingFence)) else none

/-- The part that some lines are. -/
def ofLines (ls : List String) : Part :=
  let rest := ls.drop 5
  let below := if rest.head? = some "- Parameters:" then rest.drop 1 else rest
  { heading := ls.headD ""
    facts := (ls.drop 1).take 4
    parameters := below.takeWhile isEntry
    example? := exampleIn (below.dropWhile isEntry) }

/-- The lines of a part are of the forms that it is split by. -/
structure IsRegular (p : Part) : Prop where
  heading : isHeading p.heading
  length_facts : p.facts.length = 4
  facts : ∀ line ∈ p.facts, IsContent line
  parameters : ∀ line ∈ p.parameters, isEntry line
  example? : ∀ ls ∈ p.example?, closingFence ∉ ls ∧ ∀ line ∈ ls, IsContent line

theorem takeWhile_exampleLines (x : Option (List String)) :
    (exampleLines x).takeWhile isEntry = [] ∧ (exampleLines x).dropWhile isEntry = exampleLines x := by
  cases x with
  | none => exact ⟨rfl, rfl⟩
  | some ls =>
    have htitle : isEntry "- Example payload:" = false := by decide
    exact ⟨List.takeWhile_cons_of_neg (by simp [htitle]), List.dropWhile_cons_of_neg (by simp [htitle])⟩

/-- An example comes back by `exampleIn` from its lines. -/
theorem exampleIn_exampleLines {x : Option (List String)} (h : ∀ ls ∈ x, closingFence ∉ ls) :
    exampleIn (exampleLines x) = x := by
  cases x with
  | none => rfl
  | some ls =>
    have hls : ∀ line ∈ ls, (line != closingFence) = true := by
      intro line hline
      exact bne_iff_ne.mpr fun heq => h ls rfl (heq ▸ hline)
    have htake : (ls ++ [closingFence]).takeWhile (· != closingFence) = ls := by
      rw [List.takeWhile_append_of_pos hls, List.takeWhile_cons_of_neg (by simp), List.append_nil]
    rw [exampleIn, exampleLines, if_pos ⟨ls ++ [closingFence], rfl⟩]
    exact congrArg some htake

/-- A part comes back by `ofLines` from its lines: the heading, four facts, the parameters, and the example. -/
theorem ofLines_lines {p : Part} (h : p.IsRegular) : ofLines p.lines = p := by
  have hdrop (rest : List String) : (p.facts ++ rest).drop 4 = rest := by rw [← h.length_facts, List.drop_left]
  have htake (rest : List String) : (p.facts ++ rest).take 4 = p.facts := by rw [← h.length_facts, List.take_left]
  have hexample := exampleIn_exampleLines fun ls hls => (h.example? ls hls).1
  obtain ⟨hnone, hall⟩ := takeWhile_exampleLines p.example?
  -- the title of the parameters is there just if there are any
  have hbelow : (if (parameterLines p.parameters ++ exampleLines p.example?).head? = some "- Parameters:" then
      (parameterLines p.parameters ++ exampleLines p.example?).drop 1
      else parameterLines p.parameters ++ exampleLines p.example?) = p.parameters ++ exampleLines p.example? := by
    cases hparameters : p.parameters with
    | nil =>
      rw [parameterLines, List.isEmpty_nil, if_pos rfl, List.nil_append]
      cases p.example? with
      | none => rfl
      | some ls => exact if_neg (by simp [exampleLines])
    | cons line rest => rfl
  rw [ofLines, lines]
  simp only [List.drop_succ_cons, List.drop_zero, List.headD_cons, hdrop, htake, hbelow]
  rw [List.takeWhile_append_of_pos h.parameters, List.dropWhile_append_of_pos h.parameters, hnone, hall, hexample,
    List.append_nil]

/-- The lines of a part that are not in an example. -/
def texts (p : Part) : List String := p.heading :: (p.facts ++ p.parameters)

/-- What is split off some lines `ls` as a part is among them. -/
theorem mem_of_ofLines (ls : List String) : ∀ line ∈ (ofLines ls).texts, line ∈ ls ∨ line = "" := by
  have hbelow : ∀ {line}, line ∈ (if (ls.drop 5).head? = some "- Parameters:" then (ls.drop 5).drop 1 else ls.drop 5) →
      line ∈ ls := by
    intro line hline
    split at hline
    · exact List.mem_of_mem_drop (List.mem_of_mem_drop hline)
    · exact List.mem_of_mem_drop hline
  intro line hline
  rw [texts, List.mem_cons, List.mem_append] at hline
  rcases hline with rfl | hline | hline
  · cases ls with
    | nil => exact .inr rfl
    | cons first rest => exact .inl List.mem_cons_self
  · exact .inl (List.mem_of_mem_drop (List.mem_of_mem_take hline))
  · exact .inl (hbelow ((List.takeWhile_prefix _).subset hline))

/-- All lines of a part but the first are content. -/
theorem isContent_of_mem_tail {p : Part} (h : p.IsRegular) : ∀ line ∈ p.lines.tail, IsContent line := by
  have hparameters : ∀ line ∈ parameterLines p.parameters, IsContent line := by
    rw [parameterLines]
    split
    · nofun
    · exact List.forall_mem_cons.mpr
        ⟨⟨'-', rfl, by decide⟩, fun line hline => isContent_of_isEntry (h.parameters line hline)⟩
  have hexample : ∀ line ∈ exampleLines p.example?, IsContent line := by
    cases hsome : p.example? with
    | none => nofun
    | some ls =>
      have hfence : ∀ line ∈ [closingFence], IsContent line := List.forall_mem_singleton.mpr ⟨'\x60', rfl, by decide⟩
      refine List.forall_mem_cons.mpr ⟨⟨'-', rfl, by decide⟩, List.forall_mem_cons.mpr ⟨⟨'\x60', rfl, by decide⟩, ?_⟩⟩
      exact List.forall_mem_append.mpr ⟨(h.example? ls hsome).2, hfence⟩
  exact List.forall_mem_append.mpr ⟨h.facts, List.forall_mem_append.mpr ⟨hparameters, hexample⟩⟩

theorem empty_notMem_lines {p : Part} (h : p.IsRegular) : "" ∉ p.lines :=
  List.not_mem_cons_of_ne_of_not_mem (ne_empty_of_isHeading h.heading).symm (empty_notMem (isContent_of_mem_tail h))

/-- Of the lines of a part only the first is a heading. -/
theorem filter_isHeading_lines {p : Part} (h : p.IsRegular) : p.lines.filter isHeading = [p.heading] := by
  rw [lines, List.filter_cons_of_pos h.heading]
  exact congrArg (p.heading :: ·) (filter_isHeading_eq_nil (isContent_of_mem_tail h))

end Part

/-! ## Pages -/

/-- A page about a scan, split into its parts. -/
structure Page where
  facts : List String
  realm : List String
  shapes : List Part
  /-- Titles with the entries below them. -/
  drift : List (String × List String)
  note : String

namespace Page

/-- The lines of a page; the last one is what comes after the last line end. -/
def lines (p : Page) : List String :=
  ["# Payload Registry", ""] ++ p.facts ++ ["", "## Realm Metadata"] ++ p.realm ++ ["", "## Payload Shapes"]
    ++ p.shapes.flatMap (fun part => part.lines ++ [""])
    ++ "## Drift Observations" :: ofSections p.drift ++ ["", "## Notes", p.note, ""]

/-- What stands between the empty lines after the title of the shapes. -/
def body (p : Page) : List (List String) :=
  p.shapes.map Part.lines ++ ["## Drift Observations" :: ofSections p.drift, ["## Notes", p.note], []]

theorem exists_body_cons (p : Page) : ∃ first rest, p.body = first :: rest :=
  List.exists_cons_of_ne_nil (by simp [body])

/-- What stands between the empty lines. The title of the shapes has none after it, and so is in one block with the
first of the `body`. -/
def blocks (p : Page) : List (List String) :=
  ["# Payload Registry"] :: p.facts :: ("## Realm Metadata" :: p.realm) ::
    p.body.modifyHead ("## Payload Shapes" :: ·)

/-- The lines of a page that are neither its titles nor in an example. -/
def texts (p : Page) : List String :=
  p.facts ++ p.realm ++ p.shapes.flatMap Part.texts
    ++ ofSections p.drift ++ [p.note]

/-- The page that some lines are, by the empty ones among them, if they have the form of one. -/
def ofLines? (ls : List String) : Option Page :=
  match ls.splitOn "" with
  | _ :: facts :: (_ :: realm) :: (_ :: first) :: rest =>
    match (first :: rest).reverse with
    | _ :: (_ :: note :: _) :: (_ :: drift) :: shapes =>
      some { facts, realm, shapes := shapes.reverse.map Part.ofLines, drift := (sectionsIn drift).2, note }
    | _ => none
  | _ => none

/-- The lines of a page are of the forms that it is split by. -/
structure IsRegular (p : Page) : Prop where
  facts : ∀ line ∈ p.facts, IsContent line
  realm : ∀ line ∈ p.realm, IsContent line
  shapes : ∀ part ∈ p.shapes, part.IsRegular
  titles : ∀ below ∈ p.drift, IsContent below.1 ∧ isEntry below.1 = false
  entries : ∀ below ∈ p.drift, ∀ line ∈ below.2, isEntry line
  note : IsContent p.note

/-- The lines about drift are content. -/
theorem IsRegular.drift {p : Page} (h : p.IsRegular) : ∀ line ∈ ofSections p.drift, IsContent line := by
  intro line hline
  obtain ⟨below, hbelow, hline⟩ := List.mem_flatMap.mp hline
  rcases List.mem_cons.mp hline with rfl | hline
  · exact (h.titles below hbelow).1
  · exact isContent_of_isEntry (h.entries below hbelow line hline)

/-- There are no empty lines but those that the page is split at. -/
theorem empty_notMem_blocks {p : Page} (h : p.IsRegular) : ∀ block ∈ p.blocks, "" ∉ block := by
  have hdrift := empty_notMem h.drift
  have hrealm := empty_notMem h.realm
  have hbody : ∀ block ∈ p.body, "" ∉ block := by
    rw [body, List.forall_mem_append]
    constructor
    · intro block hblock
      obtain ⟨part, hpart, rfl⟩ := List.mem_map.mp hblock
      exact Part.empty_notMem_lines (h.shapes part hpart)
    · simp [hdrift, h.note.ne_empty.symm]
  obtain ⟨first, rest, heq⟩ := p.exists_body_cons
  rw [heq, List.forall_mem_cons] at hbody
  rw [blocks, heq, List.modifyHead_cons]
  refine List.forall_mem_cons.mpr ⟨by decide, List.forall_mem_cons.mpr ⟨empty_notMem h.facts, ?_⟩⟩
  refine List.forall_mem_cons.mpr ⟨?_, List.forall_mem_cons.mpr ⟨?_, hbody.2⟩⟩
  · simp [hrealm]
  · simp [hbody.1]

theorem intercalate_body (parts : List (List String)) (drift note : List String) :
    [""].intercalate (parts ++ [drift, note, []]) =
      parts.flatMap (· ++ [""]) ++ drift ++ [""] ++ note ++ [""] := by
  induction parts with
  | nil => simp [List.intercalate_cons_cons]
  | cons part parts ih =>
    obtain ⟨next, rest, hrest⟩ : ∃ next rest, parts ++ [drift, note, []] = next :: rest :=
      List.exists_cons_of_ne_nil (by simp)
    rw [List.cons_append, hrest, List.intercalate_cons_cons, ← hrest, ih, List.flatMap_cons]
    simp only [List.append_assoc]

/-- The lines of a page are its `blocks` with empty lines between them. -/
theorem lines_eq_intercalate (p : Page) : p.lines = [""].intercalate p.blocks := by
  obtain ⟨first, rest, hbody⟩ := p.exists_body_cons
  have htitle : [""].intercalate (("## Payload Shapes" :: first) :: rest) =
      "## Payload Shapes" :: [""].intercalate (first :: rest) := by
    cases rest with
    | nil => simp
    | cons next rest => rw [List.intercalate_cons_cons, List.intercalate_cons_cons]; rfl
  rw [blocks, hbody, List.modifyHead_cons, List.intercalate_cons_cons, List.intercalate_cons_cons,
    List.intercalate_cons_cons, htitle, ← hbody, body, intercalate_body, lines, List.flatMap_map]
  simp only [List.append_assoc, List.cons_append, List.nil_append]

/-- A page comes back by `ofLines?` from its lines. -/
theorem ofLines?_lines {p : Page} (h : p.IsRegular) : ofLines? p.lines = some p := by
  have hblocks : p.lines.splitOn "" = p.blocks := by
    rw [lines_eq_intercalate, List.splitOn_intercalate "" (empty_notMem_blocks h) (by simp [blocks])]
  obtain ⟨first, rest, hbody⟩ := p.exists_body_cons
  have hparts : (p.shapes.map Part.lines).map Part.ofLines = p.shapes := by
    rw [List.map_map]
    exact (List.map_congr_left fun part hpart => Part.ofLines_lines (h.shapes part hpart)).trans (List.map_id _)
  -- the parts about shapes are those before the three blocks at the end
  have hreverse : p.body.reverse =
      [] :: ["## Notes", p.note] :: ("## Drift Observations" :: ofSections p.drift) ::
        (p.shapes.map Part.lines).reverse := by
    simp [body]
  rw [ofLines?, hblocks, blocks, hbody, List.modifyHead_cons]
  dsimp only
  rw [← hbody, hreverse]
  dsimp only
  rw [List.reverse_reverse, hparts, sectionsIn_ofSections fun below hbelow =>
    ⟨(h.titles below hbelow).2, h.entries below hbelow⟩]

/-- There is one heading for each part, and no other. -/
theorem filter_isHeading_lines {p : Page} (h : p.IsRegular) : p.lines.filter isHeading = p.shapes.map Part.heading := by
  have hshapes : (p.shapes.flatMap fun part => part.lines ++ [""]).filter isHeading = p.shapes.map Part.heading := by
    rw [List.filter_flatMap, List.map_eq_flatMap]
    refine List.flatMap_congr fun part hpart => ?_
    rw [List.filter_append, Part.filter_isHeading_lines (h.shapes part hpart)]
    rfl
  have htitles : isHeading "# Payload Registry" = false ∧ isHeading "" = false ∧ isHeading "## Realm Metadata" = false ∧
      isHeading "## Payload Shapes" = false ∧ isHeading "## Drift Observations" = false ∧
      isHeading "## Notes" = false := by decide
  rw [lines]
  simp [hshapes, filter_isHeading_eq_nil h.facts, filter_isHeading_eq_nil h.realm, filter_isHeading_eq_nil h.drift,
    h.note.isHeading_eq_false, htitles]

/-- A line of a block is a line of the page. -/
theorem mem_intercalate {blocks : List (List String)} {block : List String} (hblock : block ∈ blocks)
    (hline : line ∈ block) : line ∈ [""].intercalate blocks := by
  induction blocks with
  | nil => cases hblock
  | cons first rest ih =>
    cases rest with
    | nil =>
      obtain rfl := List.mem_singleton.mp hblock
      rwa [List.intercalate_singleton]
    | cons next rest =>
      rw [List.intercalate_cons_cons, List.mem_append]
      rcases List.mem_cons.mp hblock with rfl | hblock
      · exact .inl (List.mem_append_left _ hline)
      · exact .inr (ih hblock)

/-- What is split off some lines is among them. -/
theorem mem_of_ofLines? {p : Page} (h : ofLines? ls = some p) : ∀ line ∈ p.texts, line ∈ ls ∨ line = "" := by
  have hsplit : ∀ block ∈ ls.splitOn "", ∀ line ∈ block, line ∈ ls := by
    intro block hblock line hline
    have hjoin : [""].intercalate (ls.splitOn "") = ls := List.intercalate_splitOn ""
    rw [← hjoin]
    exact mem_intercalate hblock hline
  rw [ofLines?] at h
  split at h
  · next title facts realmTitle realm shapesTitle first rest heq =>
    rw [heq] at hsplit
    split at h
    · next last notes note more driftTitle drift shapes hreverse =>
      have hbody : ∀ block ∈ last :: (notes :: note :: more) :: (driftTitle :: drift) :: shapes, ∀ line ∈ block,
          line ∈ ls := by
        rw [← hreverse]
        intro block hblock line hline
        rcases List.mem_cons.mp (List.mem_reverse.mp hblock) with rfl | hblock
        · exact hsplit (shapesTitle :: block) (by simp) line (List.mem_cons_of_mem _ hline)
        · exact hsplit block (by simp [hblock]) line hline
      cases h
      intro line hline
      -- a text is in the facts, the realm, a shape or the drift, or it is the note
      simp only [texts, List.mem_append, List.mem_singleton] at hline
      rcases hline with (((hline | hline) | hline) | hline) | rfl
      · exact .inl (hsplit facts (by simp) line hline)
      · exact .inl (hsplit (realmTitle :: realm) (by simp) line (List.mem_cons_of_mem _ hline))
      · obtain ⟨part, hpart, hline⟩ := List.mem_flatMap.mp hline
        obtain ⟨block, hblock, rfl⟩ := List.mem_map.mp hpart
        have hmem : block ∈ last :: (notes :: note :: more) :: (driftTitle :: drift) :: shapes := by
          simp [List.mem_reverse.mp hblock]
        exact (Part.mem_of_ofLines block line hline).imp_left (hbody block hmem line)
      · have hentry := mem_sectionsIn drift line (List.mem_append_right _ hline)
        exact .inl (hbody (driftTitle :: drift) (by simp) line (List.mem_cons_of_mem _ hentry))
      · exact .inl (hbody (notes :: line :: more) (by simp) line (by simp))
    · cases h
  · cases h

end Page

end PayloadAtlas
