import Mathlib.Data.List.Pairwise
import PayloadAtlas.Proofs.Path.Module
import PayloadAtlas.Proofs.Store.Memory
import PayloadAtlas.Proofs.Sync.ReviewLogs
import PayloadAtlas.Proofs.Sync.Row

/-!
# The names of documents

A known file has a fixed name as a document, and a review log has the stem of its file's name. The fixed names differ,
and so do the stems of logs, with one exception: `.md` has no extension and is its own stem, which is that of `.md.md`
too. So the documents that are collected have different names if and only if no log is called after a known file that
is there, and these two logs do not both occur (`nodup_collect_iff`). Then each of them is found again in a table that
they are written to.
-/

namespace PayloadAtlas

namespace Document

open MemoryStore (placeAll textAt)

/-- A review log of this file name is one of `latestLogs`, and can be read. -/
def Takes (c : Config) (d : Disk) (name : String) : Prop :=
  ∃ l ∈ latestLogs c d, isReadable d l = true ∧ Path.fileName? l.path = some name

/-! ## Stems -/

/-- The stem of a name with `logEnding` is what stands before it. -/
theorem stem_append_ending {stem : String} (h : stem ≠ "") : (Path.splitName (stem ++ logEnding)).1 = stem := by
  have hsplit : Path.splitName (stem ++ "." ++ "md") = (stem, some "md") := Path.splitName_append h (by decide)
  rw [String.append_assoc] at hsplit
  exact congrArg Prod.fst hsplit

/-- The name of a log file is its stem with `logEnding`, unless it is that ending. -/
theorem stem_of_ending {name : String} (h : logEnding.toList <:+ name.toList) :
    name = logEnding ∧ (Path.splitName name).1 = logEnding ∨
      ∃ stem, stem ≠ "" ∧ name = stem ++ logEnding ∧ (Path.splitName name).1 = stem := by
  obtain ⟨cs, hcs⟩ := h
  have hname : name = String.ofList cs ++ logEnding := by
    apply String.toList_injective
    rw [String.toList_append, String.toList_ofList, hcs]
  by_cases hstem : String.ofList cs = ""
  · left
    rw [hname, hstem]
    exact ⟨by decide, by decide⟩
  · right
    refine ⟨String.ofList cs, hstem, hname, ?_⟩
    rw [hname, stem_append_ending hstem]

/-- Two names of log files with one stem are one name, or are `.md` and `.md.md`. -/
theorem eq_or_of_stem_eq {a b : String} (ha : logEnding.toList <:+ a.toList) (hb : logEnding.toList <:+ b.toList)
    (h : (Path.splitName a).1 = (Path.splitName b).1) :
    a = b ∨ a = ".md" ∧ b = ".md.md" ∨ a = ".md.md" ∧ b = ".md" := by
  rcases stem_of_ending ha with ⟨ha, hstem⟩ | ⟨stem, -, ha, hstem⟩ <;>
    rcases stem_of_ending hb with ⟨hb, hstem'⟩ | ⟨stem', -, hb, hstem'⟩
  · exact .inl (ha.trans hb.symm)
  · rw [hstem, hstem'] at h
    rw [← h] at hb
    exact .inr (.inl ⟨ha, hb⟩)
  · rw [hstem, hstem'] at h
    rw [h] at ha
    exact .inr (.inr ⟨ha, hb⟩)
  · rw [hstem, hstem'] at h
    exact .inl (by rw [ha, hb, h])

section Names

variable {c : Config} {d : Disk} {summaryTime generatedAt : String} {l : Log} {doc : Document} {name : String}

/-- The document of a log has the stem of its file name as its `name`. -/
theorem name_of_ofLog? (h : ofLog? c d generatedAt l = some doc) (hname : Path.fileName? l.path = some name) :
    doc.name = (Path.splitName name).1 := by
  unfold ofLog? at h
  split at h
  · cases h
  · cases h
    show (Path.stem? l.path).getD l.path = _
    rw [Path.stem?, hname]
    rfl

/-- Only a log that can be read becomes a document. -/
theorem isReadable_of_ofLog? (h : ofLog? c d generatedAt l = some doc) : isReadable d l = true := by
  rw [← ofLog?_isSome c d generatedAt, h]
  rfl

theorem exists_ofLog? (c : Config) (generatedAt : String) (h : isReadable d l = true) :
    ∃ doc, ofLog? c d generatedAt l = some doc := by
  rw [← ofLog?_isSome c d generatedAt] at h
  exact Option.isSome_iff_exists.mp h

/-- The document of a known file has the `name` it is known by. -/
theorem name_of_ofKnown? {k : Known} (h : ofKnown? c d summaryTime generatedAt k = some doc) : doc.name = k.name := by
  unfold ofKnown? at h
  dsimp only at h
  split at h
  · cases h
  · obtain ⟨body, -, rfl⟩ := Option.map_eq_some_iff.mp h
    rfl

/-- The `latestLogs` are logs. -/
theorem latestLogs_subset (hl : l ∈ latestLogs c d) : l ∈ logs c d := List.mem_of_mem_drop hl

/-! ## Documents of one kind -/

/-- Known files have different names, as `known` lists them. -/
theorem pairwise_known (a : ArtifactConfig) : (known a).Pairwise fun k k' => k.name ≠ k'.name := by
  simp [known]

theorem name_ne_empty {a : ArtifactConfig} {k : Known} (hk : k ∈ known a) : k.name ≠ "" := by
  have hall : ∀ k ∈ known a, k.name ≠ "" := by simp [known]
  exact hall k hk

theorem pairwise_ofKnown? (c : Config) (d : Disk) (summaryTime generatedAt : String) :
    ((known c.artifacts).filterMap (ofKnown? c d summaryTime generatedAt)).Pairwise fun a b => a.name ≠ b.name := by
  rw [List.pairwise_filterMap]
  refine (pairwise_known c.artifacts).imp fun hne a ha b hb heq => hne ?_
  rw [← name_of_ofKnown? ha, ← name_of_ofKnown? hb, heq]

theorem pairwise_ofLog?_iff (hd : d.Sound) :
    ((latestLogs c d).filterMap (ofLog? c d generatedAt)).Pairwise (fun a b => a.name ≠ b.name) ↔
      ¬(Takes c d ".md" ∧ Takes c d ".md.md") := by
  rw [List.pairwise_filterMap]
  constructor
  · rintro h ⟨⟨l, hl, hread, hname⟩, ⟨l', hl', hread', hname'⟩⟩
    obtain ⟨doc, hdoc⟩ := exists_ofLog? c generatedAt hread
    obtain ⟨doc', hdoc'⟩ := exists_ofLog? c generatedAt hread'
    have hne : l ≠ l' := by
      rintro rfl
      rw [hname] at hname'
      exact absurd (Option.some.inj hname') (by decide)
    have hsymm : Std.Symm fun l l' : Log =>
        ∀ a, ofLog? c d generatedAt l = some a → ∀ b, ofLog? c d generatedAt l' = some b → a.name ≠ b.name :=
      ⟨fun _ _ h b hb a ha => (h a ha b hb).symm⟩
    refine h.forall hl hl' hne doc hdoc doc' hdoc' ?_
    rw [name_of_ofLog? hdoc hname, name_of_ofLog? hdoc' hname']
    decide
  · intro hnot
    have hpaths : (latestLogs c d).Pairwise fun a b => Path.fileName? a.path ≠ Path.fileName? b.path :=
      (pairwise_fileNames hd).sublist (List.drop_sublist _ _)
    refine hpaths.imp_of_mem fun {l l'} hl hl' hne a ha b hb heq => ?_
    obtain ⟨name, hname, hending⟩ := exists_fileName hd (latestLogs_subset hl)
    obtain ⟨name', hname', hending'⟩ := exists_fileName hd (latestLogs_subset hl')
    rw [name_of_ofLog? ha hname, name_of_ofLog? hb hname'] at heq
    have htakes : Takes c d name := ⟨l, hl, isReadable_of_ofLog? ha, hname⟩
    have htakes' : Takes c d name' := ⟨l', hl', isReadable_of_ofLog? hb, hname'⟩
    -- names with one stem are the same, or are `.md` and `.md.md`
    rcases eq_or_of_stem_eq hending hending' heq with rfl | ⟨rfl, rfl⟩ | ⟨rfl, rfl⟩
    · exact hne (hname.trans hname'.symm)
    · exact hnot ⟨htakes, htakes'⟩
    · exact hnot ⟨htakes', htakes⟩

/-! ## All documents -/

/-- A log has the name of a known file if and only if one with that name and `.md` is taken. -/
theorem exists_log_named_iff (hd : d.Sound) (generatedAt : String) {k : Known} (hk : k ∈ known c.artifacts) :
    (∃ b ∈ (latestLogs c d).filterMap (ofLog? c d generatedAt), k.name = b.name) ↔ Takes c d (k.name ++ ".md") := by
  constructor
  · rintro ⟨b, hb, heq⟩
    obtain ⟨l, hl, hlb⟩ := List.mem_filterMap.mp hb
    obtain ⟨name, hname, hending⟩ := exists_fileName hd (latestLogs_subset hl)
    refine ⟨l, hl, isReadable_of_ofLog? hlb, hname.trans (congrArg some ?_)⟩
    rw [name_of_ofLog? hlb hname] at heq
    rcases stem_of_ending hending with ⟨-, hstem⟩ | ⟨stem, -, hname, hstem⟩
    · -- no known file has the name `.md`
      have hall : ∀ k ∈ known c.artifacts, k.name ≠ logEnding := by simp [known, logEnding]
      exact absurd (heq.trans hstem) (hall k hk)
    · rw [hname, heq, hstem]
      rfl
  · -- the stem of such a file name is the name that is known
    rintro ⟨l, hl, hread, hname⟩
    obtain ⟨b, hb⟩ := exists_ofLog? c generatedAt hread
    refine ⟨b, List.mem_filterMap.mpr ⟨l, hl, hb⟩, ?_⟩
    rw [name_of_ofLog? hb hname]
    exact (stem_append_ending (name_ne_empty hk)).symm

/-- The documents have different names if and only if no log is called after a known file that is collected, and `.md`
and `.md.md` are not both among the logs. Then each document is found by its name in the table, once all are placed.
-/
theorem nodup_collect_iff (hd : d.Sound) (summaryTime generatedAt : String) :
    let documents := collect c d summaryTime generatedAt
    ((documents.map (·.name)).Nodup ↔
      (∀ k ∈ known c.artifacts, (ofKnown? c d summaryTime generatedAt k).isSome = true → ¬Takes c d (k.name ++ ".md")) ∧
        ¬(Takes c d ".md" ∧ Takes c d ".md.md")) ∧
    ((documents.map (·.name)).Nodup → ∀ rows, ∀ doc ∈ documents,
      (placeAll "name" (documents.map toJson) rows).find? (textAt "name" · = some doc.name) = some doc.toJson) := by
  intro documents
  constructor
  · -- pairs of known files always differ, pairs of logs differ but for the two endings, and what is left is the mixed
    -- pairs
    have hdocuments : documents = (known c.artifacts).filterMap (ofKnown? c d summaryTime generatedAt) ++
      (latestLogs c d).filterMap (ofLog? c d generatedAt) := rfl
    rw [hdocuments, List.Nodup, List.pairwise_map, List.pairwise_append, pairwise_ofLog?_iff hd,
      and_iff_right (pairwise_ofKnown? c d summaryTime generatedAt), and_comm]
    refine and_congr_left fun _ => ?_
    constructor
    · intro h k hk hthere htakes
      obtain ⟨a, ha⟩ := Option.isSome_iff_exists.mp hthere
      obtain ⟨b, hb, heq⟩ := (exists_log_named_iff hd generatedAt hk).mpr htakes
      exact h a (List.mem_filterMap.mpr ⟨k, hk, ha⟩) b hb ((name_of_ofKnown? ha).trans heq)
    · intro h a ha b hb heq
      obtain ⟨k, hk, hka⟩ := List.mem_filterMap.mp ha
      refine h k hk (by rw [hka]; rfl) ((exists_log_named_iff hd generatedAt hk).mp ⟨b, hb, ?_⟩)
      rw [← name_of_ofKnown? hka, heq]
  · intro hnodup rows doc hdoc
    have hkeys : ((documents.map toJson).map (textAt "name")).Nodup := by
      rw [MemoryStore.map_textAt_map get?_toJson]
      exact List.Pairwise.map _ (fun _ _ hne heq => hne (Option.some.inj heq)) (List.pairwise_map.mp hnodup)
    have hfound := MemoryStore.find?_placeAll (X := rows) (MemoryStore.keyed_map get?_toJson documents) hkeys
      (List.mem_map_of_mem hdoc)
    rwa [MemoryStore.textAt_of_get? (get?_toJson doc)] at hfound

end Names

/-! ## A log that is a known file -/

/-- The artifact directory with the log `review_log_a.md` and with the known file `routes_compact.md`. -/
def compactDisk : Disk where
  entries := [([[119]], ⟨.directory, 0⟩), ([[119], Text.bytesOf "analysis"], ⟨.directory, 0⟩),
    ([[119], Text.bytesOf "analysis", Text.bytesOf "review_log_a.md"], ⟨.file (.bytes "a".toUTF8), 1000⟩),
    ([[119], Text.bytesOf "analysis", Text.bytesOf "routes_compact.md"], ⟨.file (.bytes "x".toUTF8), 1000⟩)]
  working := [[119]]

/-- What `list` answers for the directory, in the order of the disk. -/
def compactEntries : List (Bytes × Entry) :=
  compactDisk.entries.filterMap (Disk.entryIn [[119], Text.bytesOf "analysis"])

/-- The configuration with the prefix `routes`, under which the known file counts as a log too. -/
def routesConfig : Config := { artifacts := { reviewLogPrefix := "routes" } }

theorem sound_compactDisk : compactDisk.Sound := Disk.sound_of_entries (by decide)

/-- What `find` answers on the disk, and which entries are logs under either configuration. -/
theorem looked_compactDisk :
    compactDisk.find true (Text.bytesOf ({} : Config).artifactDir) =
        .ok ([[119], Text.bytesOf "analysis"], ⟨.directory, 0⟩) ∧
      compactEntries.Pairwise (fun a b => (!decide (b.1 < a.1)) = true) ∧
      compactEntries.filterMap (logOf? {}) = [⟨"./analysis/review_log_a.md", 1000⟩] ∧
      compactEntries.filterMap (logOf? routesConfig) = [⟨"./analysis/routes_compact.md", 1000⟩] := by
  decide

/-- The directory is listed as `compactEntries`. -/
theorem list_compactDisk : compactDisk.list ({} : Config).artifactDir = .ok compactEntries := by
  obtain ⟨hfind, hentries, -⟩ := looked_compactDisk
  have hchildren : compactDisk.children [[119], Text.bytesOf "analysis"] = compactEntries :=
    List.mergeSort_of_pairwise hentries
  rw [Disk.list, hfind, ← hchildren]
  rfl

/-- One of the two files is a log under either configuration. -/
theorem logs_compactDisk : logs {} compactDisk = [⟨"./analysis/review_log_a.md", 1000⟩] ∧
    logs routesConfig compactDisk = [⟨"./analysis/routes_compact.md", 1000⟩] := by
  obtain ⟨-, -, hlog, hroutes⟩ := looked_compactDisk
  constructor
  · rw [logs_of_list list_compactDisk, hlog]
    exact List.mergeSort_singleton _
  · have hlist : compactDisk.list routesConfig.artifactDir = .ok compactEntries := list_compactDisk
    rw [logs_of_list hlist, hroutes]
    exact List.mergeSort_singleton _

/-- Under the default prefix only `review_log_a.md` is taken. -/
theorem eq_of_takes_compactDisk {name : String} (h : Takes {} compactDisk name) : name = "review_log_a.md" := by
  obtain ⟨l, hl, -, hname⟩ := h
  rw [latestLogs, logs_compactDisk.1] at hl
  obtain rfl := List.mem_singleton.mp hl
  have hfile : Path.fileName? "./analysis/review_log_a.md" = some "review_log_a.md" := by decide
  exact Option.some.inj (hname.symm.trans hfile)

/-- Under the default prefix both documents are found again in a table that has one of these names already. -/
theorem nodup_collect_compact :
    let documents := collect {} compactDisk "t" "now"
    let rows : List Json.Value := [.object [("name", .string "routes_compact")]]
    compactDisk.Sound ∧ documents.map (·.name) = ["routes_compact", "review_log_a"] ∧
      (documents.map (·.name)).Nodup ∧ ∀ doc ∈ documents,
        (placeAll "name" (documents.map toJson) rows).find? (textAt "name" · = some doc.name) = some doc.toJson := by
  intro documents rows
  have hnames : (collect {} compactDisk "t" "now").map (·.name) = ["routes_compact", "review_log_a"] := by
    rw [collect, latestLogs, logs_compactDisk.1]
    decide
  have hother : ∀ k ∈ known ({} : Config).artifacts, k.name ++ ".md" ≠ "review_log_a.md" := by decide
  have h := nodup_collect_iff (c := {}) sound_compactDisk "t" "now"
  have hnodup : (documents.map (·.name)).Nodup := h.1.mpr
    ⟨fun k hk _ htakes => hother k hk (eq_of_takes_compactDisk htakes),
      fun htakes => absurd (eq_of_takes_compactDisk htakes.1) (by decide)⟩
  exact ⟨sound_compactDisk, hnames, hnodup, h.2 hnodup rows⟩

/-- Under another prefix the known file is taken twice, and has one name both times. -/
theorem not_nodup_collect_routes :
    compactDisk.Sound ∧
      (collect routesConfig compactDisk "t" "now").map (·.name) = ["routes_compact", "routes_compact"] ∧
      (placeAll "name" ((collect routesConfig compactDisk "t" "now").map toJson) []).length = 1 := by
  rw [collect, latestLogs, logs_compactDisk.2]
  exact ⟨sound_compactDisk, by decide, by decide⟩

end Document

end PayloadAtlas
