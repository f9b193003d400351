import PayloadAtlas.Proofs.Disk.Directory
import PayloadAtlas.Proofs.Path
import PayloadAtlas.Proofs.Text.Utf8
import PayloadAtlas.Sync.Document

/-!
# The latest review logs

Review logs are told by their names, ordered by the time of their last change and then by their paths (`Log.Before`),
and cut to the last so many; only then they are read. So an entry that cannot be read, as is a directory, counts among
the last ones. What is taken is as if only readable logs had been counted if and only if there is no such entry among
the last ones, or no readable log besides them (`collect_latest_iff`).
-/

namespace PayloadAtlas

namespace Document

/-! ## The order of logs -/

/-- What logs are ordered by: their times, then the components of their paths by `Path.key`. -/
def Log.rank (l : Log) : Int ×ₗ List (Nat ×ₗ String) :=
  toLex (l.modified, (Path.components l.path).map Path.key)

/-- One log comes before another, by `rank`. -/
def Log.Before (a b : Log) : Prop := a.rank < b.rank

/-- The last `n` of the logs that satisfy `p`, or all if there are fewer, in order. -/
structure IsLatest (n : Nat) (p : Log → Prop) (logs : List Log) : Prop where
  sorted : logs.Pairwise Log.Before
  each : ∀ l ∈ logs, p l
  bound : logs.length ≤ n
  /-- A log is left out only if there are so many after it. -/
  others : ∀ l, p l → l ∉ logs → logs.length = n ∧ ∀ k ∈ logs, l.Before k

section Order

variable {a b c : Log} {n : Nat} {p q : Log → Prop} {K L : List Log}

/-- Of two logs one is not before the other both ways. -/
theorem Log.Before.asymm (h : a.Before b) : ¬b.Before a := lt_asymm h

/-- A log is not before itself. -/
theorem Log.Before.ne (h : a.Before b) : a ≠ b := by
  rintro rfl
  exact lt_irrefl a.rank h

/-- What `notAfter` decides is the order of `rank`. -/
theorem Log.notAfter_iff : a.notAfter b = true ↔ a.rank ≤ b.rank := by
  rw [notAfter, rank, rank, Prod.Lex.toLex_le_toLex, Bool.or_eq_true, Bool.and_eq_true, decide_eq_true_eq, beq_iff_eq,
    Path.notAfter_iff]

theorem Log.notAfter_trans (a b c : Log) (hab : a.notAfter b = true) (hbc : b.notAfter c = true) :
    a.notAfter c = true :=
  notAfter_iff.mpr (le_trans (notAfter_iff.mp hab) (notAfter_iff.mp hbc))

theorem Log.notAfter_total (a b : Log) : (a.notAfter b || b.notAfter a) = true := by
  rw [Bool.or_eq_true, notAfter_iff, notAfter_iff]
  exact le_total a.rank b.rank

theorem nodup_of_sorted (h : L.Pairwise Log.Before) : L.Nodup := h.imp Log.Before.ne

theorem eq_of_mem_iff (hK : K.Pairwise Log.Before) (hL : L.Pairwise Log.Before) (h : ∀ l, l ∈ K ↔ l ∈ L) : K = L :=
  ((List.perm_ext_iff_of_nodup (nodup_of_sorted hK) (nodup_of_sorted hL)).mpr h).eq_of_pairwise
    (fun _ _ _ _ hab hba => absurd hba hab.asymm) hK hL

/-- There are always the latest ones, namely the last `n` of those in order. -/
theorem isLatest_drop (n : Nat) (h : L.Pairwise Log.Before) : IsLatest n (· ∈ L) (L.drop (L.length - n)) := by
  refine ⟨h.sublist (List.drop_sublist _ _), fun l hl => List.mem_of_mem_drop hl, ?_, fun l hl hnot => ⟨?_, ?_⟩⟩
  · rw [List.length_drop]
    omega
  · rw [List.length_drop]
    -- if there are fewer than `n`, none is left out
    by_cases hn : n ≤ L.length
    · omega
    · rw [Nat.sub_eq_zero_of_le (by omega), List.drop_zero] at hnot
      exact absurd hl hnot
  · rw [← List.take_append_drop (L.length - n) L] at h hl
    rcases List.mem_append.mp hl with hl | hl
    · exact fun k hk => (List.pairwise_append.mp h).2.2 l hl k hk
    · exact absurd hl hnot

/-- Of the latest ones that satisfy `p`, those that satisfy `q` too are the latest of these, or some of them. -/
theorem IsLatest.mem_of_mem (hK : IsLatest n p K) (hL : IsLatest n q L) (hqp : ∀ l, q l → p l) {l : Log}
    (hl : l ∈ K) (hq : q l) : l ∈ L := by
  by_contra hnot
  obtain ⟨hlength, hbefore⟩ := hL.others l hq hnot
  -- then all of `L` come after `l`, and are among the latest ones, which are too many
  have hsubset : l :: L ⊆ K := by
    intro k hk
    rcases List.mem_cons.mp hk with rfl | hk
    · exact hl
    · by_contra hnotK
      obtain ⟨-, hbeforeK⟩ := hK.others k (hqp k (hL.each k hk)) hnotK
      exact (hbefore k hk).asymm (hbeforeK l hl)
  have hnodup : (l :: L).Nodup := List.nodup_cons.mpr ⟨hnot, nodup_of_sorted hL.sorted⟩
  have hle := (List.subperm_of_subset hnodup hsubset).length_le
  have hbound := hK.bound
  rw [List.length_cons] at hle
  omega

/-- There is one list of the latest ones only. -/
theorem IsLatest.unique (hK : IsLatest n p K) (hL : IsLatest n p L) : K = L :=
  eq_of_mem_iff hK.sorted hL.sorted fun l =>
    ⟨fun hl => hK.mem_of_mem hL (fun _ => id) hl (hK.each l hl),
      fun hl => hL.mem_of_mem hK (fun _ => id) hl (hL.each l hl)⟩

/-- The latest ones that also satisfy `q` are among the latest ones if and only if each of these does so, or no other
does. -/
theorem IsLatest.filter_eq_iff {q : Log → Bool} (hK : IsLatest n p K) (hL : IsLatest n (fun l => p l ∧ q l = true) L) :
    K.filter q = L ↔ (∀ k ∈ K, q k = true) ∨ ∀ l, p l → q l = true → l ∈ K := by
  constructor
  · intro h
    by_contra hnot
    rw [not_or] at hnot
    obtain ⟨hk, hl⟩ := hnot
    push Not at hk hl
    obtain ⟨k, hkmem, hkq⟩ := hk
    obtain ⟨l, hlp, hlq, hlmem⟩ := hl
    -- `k` leaves room for `l` among the latest ones that satisfy both
    have hlength := (hL.others l ⟨hlp, hlq⟩ fun hmem => hlmem (List.mem_of_mem_filter (h ▸ hmem))).1
    have hlt := List.length_filter_lt_length_iff_exists.mpr ⟨k, hkmem, hkq⟩
    have hbound := hK.bound
    rw [h] at hlt
    omega
  · rintro (hall | hall)
    · rw [List.filter_eq_self.mpr hall]
      refine IsLatest.unique (p := fun l => p l ∧ q l = true) ?_ hL
      exact ⟨hK.sorted, fun l hl => ⟨hK.each l hl, hall l hl⟩, hK.bound, fun l hl hnot => hK.others l hl.1 hnot⟩
    · refine IsLatest.unique (p := fun l => p l ∧ q l = true) ?_ hL
      refine ⟨hK.sorted.filter q, fun l hl => ?_, (List.length_filter_le q K).trans hK.bound, fun l hl hnot => ?_⟩
      · obtain ⟨hmem, hq⟩ := List.mem_filter.mp hl
        exact ⟨hK.each l hmem, hq⟩
      · exact absurd (List.mem_filter.mpr ⟨hall l hl.1 hl.2, hl.2⟩) hnot

end Order

/-! ## Entries with the names of logs -/

/-- What is in the artifact directory under the name of a review log, with the prefix and `logEnding`, a file or
anything else. -/
def IsEntry (c : Config) (d : Disk) (l : Log) : Prop :=
  ∃ entries, d.list c.artifactDir = .ok entries ∧ ∃ bytes e name, (bytes, e) ∈ entries ∧
    Text.ofBytes? bytes = some name ∧ c.artifacts.reviewLogPrefix.toList <+: name.toList ∧
      logEnding.toList <:+ name.toList ∧ l = ⟨Path.join c.artifactDir name, e.modified⟩

/-- The log that an entry of the artifact directory may be, by its name. -/
def logOf? (c : Config) (entry : Bytes × Entry) : Option Log := do
  let name ← Text.ofBytes? entry.1
  if isLogName c.artifacts.reviewLogPrefix name then some ⟨Path.join c.artifactDir name, entry.2.modified⟩ else none

section Entries

variable {c : Config} {d : Disk} {l : Log} {entries : List (Bytes × Entry)} {entry : Bytes × Entry}

/-- An entry is a log just if its name is text, with the prefix and `logEnding`. -/
theorem logOf?_eq_some_iff : logOf? c entry = some l ↔
    ∃ name, Text.ofBytes? entry.1 = some name ∧ c.artifacts.reviewLogPrefix.toList <+: name.toList ∧
      logEnding.toList <:+ name.toList ∧ l = ⟨Path.join c.artifactDir name, entry.2.modified⟩ := by
  rw [logOf?, Option.bind_eq_bind, Option.bind_eq_some_iff]
  simp only [isLogName, Option.ite_none_right_eq_some, Bool.and_eq_true, List.isPrefixOf_iff_prefix,
    List.isSuffixOf_iff_suffix, Option.some.injEq, and_assoc]
  constructor
  · rintro ⟨name, hname, hstart, hending, rfl⟩
    exact ⟨name, hname, hstart, hending, rfl⟩
  · rintro ⟨name, hname, hstart, hending, rfl⟩
    exact ⟨name, hname, hstart, hending, rfl⟩

/-- The `logs` are those of the entries that `list` answers, in order. -/
theorem logs_of_list (h : d.list c.artifactDir = .ok entries) :
    logs c d = (entries.filterMap (logOf? c)).mergeSort Log.notAfter := by
  rw [logs, h]
  rfl

theorem logs_congr {c' : Config} (hdir : c.artifactDir = c'.artifactDir)
    (hstart : c.artifacts.reviewLogPrefix = c'.artifacts.reviewLogPrefix) : logs c d = logs c' d := by
  rw [logs, logs, hdir, hstart]

/-- The `logs` are the entries with the names of logs, be they files or not. -/
theorem mem_logs : l ∈ logs c d ↔ IsEntry c d l := by
  cases h : d.list c.artifactDir with
  | error e => simp [logs, IsEntry, h]
  | ok entries =>
    rw [logs_of_list h, List.mem_mergeSort, List.mem_filterMap, IsEntry]
    simp only [logOf?_eq_some_iff, h, Except.ok.injEq, exists_eq_left', Prod.exists]
    constructor
    · rintro ⟨bytes, e, hmem, name, hname⟩
      exact ⟨bytes, e, name, hmem, hname⟩
    · rintro ⟨bytes, e, name, hmem, hname⟩
      exact ⟨bytes, e, hmem, name, hname⟩

/-- What `list` answers is what is in some directory. -/
theorem exists_children_of_list {path : String} (h : d.list path = .ok entries) :
    ∃ place, entries = d.children place := by
  rw [Disk.list] at h
  cases hfind : d.find true (Text.bytesOf path) with
  | error e =>
    rw [hfind] at h
    cases h
  | ok found =>
    obtain ⟨place, node, modified⟩ := found
    rw [hfind] at h
    cases node with
    | directory => exact ⟨place, (Except.ok.inj h).symm⟩
    | file | link => cases h

theorem isName_of_mem_children (hd : d.Sound) {place : Location} (h : entry ∈ d.children place) :
    Disk.IsName entry.1 ∧ Disk.slash ∉ entry.1 := by
  have hat := (Disk.mem_children hd).mp h
  refine hd.name (l := place) ?_
  rw [Disk.nodeAt, hat]
  exact Option.some_ne_none _

/-- The path of a log ends with the name that it has in the directory. -/
theorem exists_fileName_of_logOf? (h : logOf? c entry = some l) (hentry : Disk.IsName entry.1 ∧ Disk.slash ∉ entry.1) :
    ∃ name, Path.fileName? l.path = some name ∧ Text.bytesOf name = entry.1 ∧ logEnding.toList <:+ name.toList := by
  obtain ⟨name, hname, -, hending, rfl⟩ := logOf?_eq_some_iff.mp h
  have hbytes := Text.bytesOf_of_ofBytes? hname
  rw [← hbytes] at hentry
  obtain ⟨hslash, hcounts, hisName⟩ := hentry.1.text hentry.2
  obtain ⟨before, hcomponents⟩ := Path.exists_components_join c.artifactDir hslash hcounts
  refine ⟨name, ?_, hbytes, hending⟩
  rw [Path.fileName?, hcomponents, List.getLast?_concat, Option.bind_some, if_pos hisName]

/-- A log has a file name, which ends as a log's name does. -/
theorem exists_fileName (hd : d.Sound) (hl : l ∈ logs c d) :
    ∃ name, Path.fileName? l.path = some name ∧ logEnding.toList <:+ name.toList := by
  cases h : d.list c.artifactDir with
  | error e => simp [logs, h] at hl
  | ok entries =>
    obtain ⟨place, rfl⟩ := exists_children_of_list h
    rw [logs_of_list h, List.mem_mergeSort, List.mem_filterMap] at hl
    obtain ⟨entry, hentry, hlog⟩ := hl
    obtain ⟨name, hname, -, hending⟩ := exists_fileName_of_logOf? hlog (isName_of_mem_children hd hentry)
    exact ⟨name, hname, hending⟩

/-- Logs are told by `fileName?`. -/
theorem pairwise_fileNames (hd : d.Sound) :
    (logs c d).Pairwise fun a b => Path.fileName? a.path ≠ Path.fileName? b.path := by
  cases h : d.list c.artifactDir with
  | error e => simp [logs, h]
  | ok entries =>
    -- entries of one directory have different names, and sorting keeps that
    obtain ⟨place, rfl⟩ := exists_children_of_list h
    have hnames : (d.children place).Pairwise fun a b => a.1 ≠ b.1 := List.pairwise_map.mp (d.nodup_names hd place)
    rw [logs_of_list h]
    refine (List.mergeSort_perm _ Log.notAfter).symm.pairwise ?_ fun hne => hne.symm
    rw [List.pairwise_filterMap]
    refine hnames.imp_of_mem fun {p q} hp hq hne a ha b hb heq => hne ?_
    obtain ⟨name, hname, hbytes, -⟩ := exists_fileName_of_logOf? ha (isName_of_mem_children hd hp)
    obtain ⟨name', hname', hbytes', -⟩ := exists_fileName_of_logOf? hb (isName_of_mem_children hd hq)
    rw [hname, hname', Option.some.injEq] at heq
    rw [← hbytes, ← hbytes', heq]

/-- The `logs` are in strict order. -/
theorem pairwise_logs (hd : d.Sound) : (logs c d).Pairwise Log.Before := by
  have hsorted : (logs c d).Pairwise fun a b => a.notAfter b = true := by
    unfold logs
    split
    · exact .nil
    · exact List.pairwise_mergeSort Log.notAfter_trans Log.notAfter_total _
  refine (hsorted.and (pairwise_fileNames hd)).imp fun {a b} h => ?_
  refine lt_of_le_of_ne (Log.notAfter_iff.mp h.1) fun hrank => h.2 ?_
  have hkeys : (Path.components a.path).map Path.key = (Path.components b.path).map Path.key :=
    congrArg (fun r => (ofLex r).2) hrank
  rw [Path.fileName?, Path.fileName?, List.map_injective_iff.mpr Path.key_injective hkeys]

/-- The last ones of `logs` are the latest entries with the names of logs. -/
theorem isLatest_logs (hd : d.Sound) (n : Nat) :
    IsLatest n (IsEntry c d) ((logs c d).drop ((logs c d).length - n)) := by
  have h := isLatest_drop n (pairwise_logs (c := c) hd)
  exact ⟨h.sorted, fun l hl => mem_logs.mp (h.each l hl), h.bound, fun l hl => h.others l (mem_logs.mpr hl)⟩

/-- The last ones that satisfy `q` are the latest of these. -/
theorem isLatest_readable (hd : d.Sound) (n : Nat) (q : Log → Bool) :
    IsLatest n (fun l => IsEntry c d l ∧ q l = true)
      (((logs c d).filter q).drop (((logs c d).filter q).length - n)) := by
  have h := isLatest_drop n ((pairwise_logs (c := c) hd).filter q)
  have hmem : ∀ l, l ∈ (logs c d).filter q ↔ IsEntry c d l ∧ q l = true := fun l => by rw [List.mem_filter, mem_logs]
  exact ⟨h.sorted, fun l hl => (hmem l).mp (h.each l hl), h.bound, fun l hl => h.others l ((hmem l).mpr hl)⟩

end Entries

/-! ## What is collected -/

/-- Where review logs come from, in the `source` of their documents. -/
def logSource : String := "review_log"

/-- Whether a log can be read, as `readLossy` does it. -/
def isReadable (d : Disk) (l : Log) : Bool := (d.readLossy l.path).isOk

section Collecting

variable {c : Config} {d : Disk} {summaryTime generatedAt : String} {K L : List Log}

/-- A log becomes a document just if it can be read. -/
theorem ofLog?_isSome (c : Config) (d : Disk) (generatedAt : String) (l : Log) :
    (ofLog? c d generatedAt l).isSome = isReadable d l := by
  unfold ofLog? isReadable
  cases d.readLossy l.path <;> rfl

/-- Of the collected documents those of `logSource` are the ones of the latest logs. -/
theorem filter_collect (c : Config) (d : Disk) (summaryTime generatedAt : String) :
    (collect c d summaryTime generatedAt).filter (·.source = logSource) =
      (latestLogs c d).filterMap (ofLog? c d generatedAt) := by
  have hknown : ∀ doc ∈ (known c.artifacts).filterMap (ofKnown? c d summaryTime generatedAt),
      doc.source ≠ logSource := by
    intro doc hdoc
    obtain ⟨k, -, hk⟩ := List.mem_filterMap.mp hdoc
    rw [ofKnown?] at hk
    split at hk
    · cases hk
    · obtain ⟨body, -, rfl⟩ := Option.map_eq_some_iff.mp hk
      exact (by decide : "analysis_runner" ≠ "review_log")
  have hlogs : ∀ doc ∈ (latestLogs c d).filterMap (ofLog? c d generatedAt), doc.source = logSource := by
    intro doc hdoc
    obtain ⟨l, -, hl⟩ := List.mem_filterMap.mp hdoc
    rw [ofLog?] at hl
    split at hl
    · cases hl
    · cases hl
      rfl
  rw [collect, List.filter_append, List.filter_eq_nil_iff.mpr fun doc hdoc => by simpa using hknown doc hdoc,
    List.nil_append, List.filter_eq_self.mpr fun doc hdoc => by simpa using hlogs doc hdoc]

/-- As many documents as logs that can be read. -/
theorem length_filterMap_ofLog? (h : ∀ l ∈ L, isReadable d l = true) :
    (L.filterMap (ofLog? c d generatedAt)).length = L.length := by
  rw [List.length_filterMap_eq_countP]
  exact List.countP_eq_length.mpr fun l hl => (ofLog?_isSome c d generatedAt l).trans (h l hl)

/-- The documents of logs, as far as these can be read. -/
theorem filterMap_ofLog?_filter (c : Config) (d : Disk) (generatedAt : String) (L : List Log) :
    (L.filter (isReadable d)).filterMap (ofLog? c d generatedAt) = L.filterMap (ofLog? c d generatedAt) := by
  rw [List.filterMap_filter]
  refine List.filterMap_congr fun l _ => ?_
  split
  · rfl
  · next h =>
    rw [← ofLog?_isSome c d generatedAt, Bool.not_eq_true, Option.isSome_eq_false_iff] at h
    exact (Option.isNone_iff_eq_none.mp h).symm

/-- The documents of review logs are those of the latest readable logs if and only if all of the latest entries with
the names of logs can be read, or all readable logs are among them. -/
theorem collect_latest_iff (hd : d.Sound) (summaryTime generatedAt : String)
    (hK : IsLatest c.sync.latestLogsLimit (IsEntry c d) K)
    (hL : IsLatest c.sync.latestLogsLimit (fun l => IsEntry c d l ∧ isReadable d l = true) L) :
    let documents := (collect c d summaryTime generatedAt).filter (·.source = logSource)
    documents = (K.filter (isReadable d)).filterMap (ofLog? c d generatedAt) ∧
      (documents = L.filterMap (ofLog? c d generatedAt) ↔
        (∀ k ∈ K, isReadable d k = true) ∨ ∀ l, IsEntry c d l → isReadable d l = true → l ∈ K) := by
  intro documents
  obtain rfl := hK.unique (isLatest_logs hd _)
  have hdocuments : documents = ((latestLogs c d).filter (isReadable d)).filterMap (ofLog? c d generatedAt) :=
    (filter_collect c d summaryTime generatedAt).trans (filterMap_ofLog?_filter c d generatedAt _).symm
  refine ⟨hdocuments, ?_⟩
  rw [← hK.filter_eq_iff hL, hdocuments]
  refine ⟨fun h => ?_, fun h => congrArg _ h⟩
  -- documents of as many logs, all of them readable, and the ones among the others
  have hlength : ((latestLogs c d).filter (isReadable d)).length = L.length := by
    have hlengths := congrArg List.length h
    rwa [length_filterMap_ofLog? fun l hl => (List.mem_filter.mp hl).2,
      length_filterMap_ofLog? fun l hl => (hL.each l hl).2] at hlengths
  have hsorted := hK.sorted.filter (isReadable d)
  have hsubset : (latestLogs c d).filter (isReadable d) ⊆ L := by
    intro l hl
    obtain ⟨hmem, hreadable⟩ := List.mem_filter.mp hl
    exact hK.mem_of_mem hL (fun _ hq => hq.1) hmem ⟨hK.each l hmem, hreadable⟩
  have hperm := (List.subperm_of_subset (nodup_of_sorted hsorted) hsubset).perm_of_length_le hlength.ge
  exact eq_of_mem_iff hsorted hL.sorted fun _ => hperm.mem_iff

end Collecting

/-! ## A directory among the logs -/

/-- The artifact directory with three review logs, and a directory `review_log_z.md` that was changed after them. -/
def crowdedDisk : Disk where
  entries := [([[119]], ⟨.directory, 0⟩), ([[119], Text.bytesOf "analysis"], ⟨.directory, 0⟩),
    ([[119], Text.bytesOf "analysis", Text.bytesOf "review_log_a.md"], ⟨.file (.bytes "a".toUTF8), 1000⟩),
    ([[119], Text.bytesOf "analysis", Text.bytesOf "review_log_b.md"], ⟨.file (.bytes "b".toUTF8), 2000⟩),
    ([[119], Text.bytesOf "analysis", Text.bytesOf "review_log_c.md"], ⟨.file (.bytes "c".toUTF8), 3000⟩),
    ([[119], Text.bytesOf "analysis", Text.bytesOf "review_log_z.md"], ⟨.directory, 4000⟩)]
  working := [[119]]

/-- The three review logs there, `a`, `b` and `c`. -/
def crowdedLogs : List Log :=
  [⟨"./analysis/review_log_a.md", 1000⟩, ⟨"./analysis/review_log_b.md", 2000⟩, ⟨"./analysis/review_log_c.md", 3000⟩]

/-- What `list` answers for the directory, in the order of the disk. -/
def crowdedEntries : List (Bytes × Entry) :=
  crowdedDisk.entries.filterMap (Disk.entryIn [[119], Text.bytesOf "analysis"])

/-- The entries that count as `logs`. -/
def crowdedNames : List Log := crowdedLogs ++ [⟨"./analysis/review_log_z.md", 4000⟩]

theorem sound_crowdedDisk : crowdedDisk.Sound := Disk.sound_of_entries (by decide)

/-- What `find`, `list` and reading answer on the disk. The entries are in order already, by names as well as by
times. -/
theorem looked_crowdedDisk :
    crowdedDisk.find true (Text.bytesOf ({} : Config).artifactDir) =
        .ok ([[119], Text.bytesOf "analysis"], ⟨.directory, 0⟩) ∧
      crowdedEntries.Pairwise (fun a b => (!decide (b.1 < a.1)) = true) ∧
      crowdedEntries.filterMap (logOf? {}) = crowdedNames ∧
      crowdedNames.Pairwise (fun a b => a.notAfter b = true) ∧
      crowdedNames.filter (isReadable crowdedDisk) = crowdedLogs ∧
      (crowdedLogs.filterMap (ofLog? {} crowdedDisk "now")).map (·.name) =
        ["review_log_a", "review_log_b", "review_log_c"] ∧
      ((crowdedNames.drop (crowdedNames.length - 3)).filterMap (ofLog? {} crowdedDisk "now")).map (·.name) =
        ["review_log_b", "review_log_c"] := by
  decide

/-- The directory counts among the `logs`, whatever the limit. -/
theorem logs_crowdedDisk (sync : SyncConfig) : logs { sync := sync } crowdedDisk = crowdedNames := by
  obtain ⟨hfind, hentries, hlogs, hnames, -⟩ := looked_crowdedDisk
  have hsync : logs { sync := sync } crowdedDisk = logs {} crowdedDisk := logs_congr rfl rfl
  have hchildren : crowdedDisk.children [[119], Text.bytesOf "analysis"] = crowdedEntries :=
    List.mergeSort_of_pairwise hentries
  have hlist : crowdedDisk.list ({} : Config).artifactDir = .ok crowdedEntries := by
    rw [Disk.list, hfind, ← hchildren]
    rfl
  rw [hsync, logs_of_list hlist, hlogs]
  exact List.mergeSort_of_pairwise hnames

/-- With place for four logs the directory keeps none of the three out. -/
theorem collect_latest_crowded :
    let c : Config := { sync := { latestLogsLimit := 4 } }
    let documents := (collect c crowdedDisk "t" "now").filter (·.source = logSource)
    let entries := crowdedLogs ++ [⟨"./analysis/review_log_z.md", 4000⟩]
    crowdedDisk.Sound ∧ IsLatest c.sync.latestLogsLimit (IsEntry c crowdedDisk) entries ∧
      IsLatest c.sync.latestLogsLimit (fun l => IsEntry c crowdedDisk l ∧ isReadable crowdedDisk l = true) crowdedLogs ∧
      (∀ l, IsEntry c crowdedDisk l → isReadable crowdedDisk l = true → l ∈ entries) ∧
      documents = crowdedLogs.filterMap (ofLog? c crowdedDisk "now") ∧
      documents.map (·.name) = ["review_log_a", "review_log_b", "review_log_c"] := by
  intro c documents entries
  have hlogs : logs c crowdedDisk = entries := logs_crowdedDisk _
  obtain ⟨-, -, -, -, hreadable, hread, -⟩ := looked_crowdedDisk
  have hreadable : entries.filter (isReadable crowdedDisk) = crowdedLogs := hreadable
  have hK : IsLatest c.sync.latestLogsLimit (IsEntry c crowdedDisk) entries := by
    have h := isLatest_logs (c := c) sound_crowdedDisk 4
    rwa [hlogs] at h
  have hL : IsLatest c.sync.latestLogsLimit
      (fun l => IsEntry c crowdedDisk l ∧ isReadable crowdedDisk l = true) crowdedLogs := by
    have h := isLatest_readable (c := c) sound_crowdedDisk 4 (isReadable crowdedDisk)
    rwa [hlogs, hreadable] at h
  have hall : ∀ l, IsEntry c crowdedDisk l → isReadable crowdedDisk l = true → l ∈ entries :=
    fun l hl _ => hlogs ▸ mem_logs.mpr hl
  have hdocuments : documents = crowdedLogs.filterMap (ofLog? c crowdedDisk "now") :=
    (collect_latest_iff sound_crowdedDisk "t" "now" hK hL).2.mpr (.inr hall)
  refine ⟨sound_crowdedDisk, hK, hL, hall, hdocuments, ?_⟩
  rw [hdocuments]
  exact hread

/-- With place for three logs the directory takes the place of one of the three. -/
theorem not_collect_latest_crowded :
    IsLatest 3 (fun l => IsEntry {} crowdedDisk l ∧ isReadable crowdedDisk l = true) crowdedLogs ∧
      ((collect {} crowdedDisk "t" "now").filter (·.source = logSource)).map (·.name) =
        ["review_log_b", "review_log_c"] ∧
      (crowdedLogs.filterMap (ofLog? {} crowdedDisk "now")).map (·.name) =
        ["review_log_a", "review_log_b", "review_log_c"] := by
  obtain ⟨-, -, -, -, hreadable, hread, hlatest⟩ := looked_crowdedDisk
  have hlogs : logs {} crowdedDisk = crowdedNames := logs_crowdedDisk {}
  refine ⟨?_, ?_, hread⟩
  · have h := isLatest_readable (c := {}) sound_crowdedDisk 3 (isReadable crowdedDisk)
    rwa [hlogs, hreadable] at h
  · rw [filter_collect, latestLogs, hlogs]
    exact hlatest

end Document

end PayloadAtlas
