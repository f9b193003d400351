import PayloadAtlas.Proofs.Sync.Stored

/-!
# Synchronising twice

A second synchronisation of a store in memory, with the same summary and the same files, leaves the documents
as they are, but for their times. Of the records the same holds just when the second one sees the columns of
each table that the first one saw (`Steady`). There are two ways to miss that, both by way of a table that the
synchronisation writes itself. If the events are among the tables that are synchronised, and were empty, the
second synchronisation sees the event of the first one. And if the registry is among them, the first row that
is in it when its turn comes may not be a record yet.

So two synchronisations do the same as one if none of the tables that are synchronised is the registry or that
of the events, and not in general (`not_same_again_events`).
-/

namespace PayloadAtlas.Sync

open Json (Value)
open MemoryStore (world firstKeys placeAll)

/-- Two stores have the same documents, but for the times that `Document.timeless` leaves out. -/
def SameDocuments (c : SyncConfig) (m m' : MemoryStore) : Prop :=
  (m'.rows (documentsTable c)).map Document.timeless = (m.rows (documentsTable c)).map Document.timeless

/-- Two stores have the same records, but for the times that `Record.timeless` leaves out. -/
def SameRecords (c : SyncConfig) (m m' : MemoryStore) : Prop :=
  (m'.rows (registryTable c)).map Record.timeless = (m.rows (registryTable c)).map Record.timeless

/-- What is seen of the tables that are `synced` does not change by synchronising them. -/
structure Steady (c : SyncConfig) (m : MemoryStore) (synced : List String) : Prop where
  /-- The first row of the registry has the columns, when its own turn comes, that it has in the end. -/
  registry : (registryTable c).toText ∈ synced →
    headColumns (m.rows (registryTable c)) (synced.filter (· < (registryTable c).toText)) =
      headColumns (m.rows (registryTable c)) synced
  /-- The first event was there before, or nothing comes of it. -/
  events : (eventsTable c).toText ∈ synced →
    m.rows (eventsTable c) ≠ [] ∨ (eventsTable c).toText ∈ m.failingSelects ∨
      (eventsTable c).toText ∈ m.rejectedWrites

/-- If neither the registry nor the events are synchronised, the store is `Steady`. -/
theorem steady_of_notMem {c : SyncConfig} {m : MemoryStore} {synced : List String}
    (hreg : (registryTable c).toText ∉ synced) (hev : (eventsTable c).toText ∉ synced) :
    Steady c m synced :=
  ⟨fun h => absurd h hreg, fun h => absurd h hev⟩

/-! ## Two synchronisations that write -/

namespace Stored

variable {c : Config} {d : Disk} {s : Summary} {tables : List String} {m m' m'' : MemoryStore}

section Once

variable (h : Stored c d s tables m m')

include h

/-- After the first synchronisation the registry's first row is as if all records counted as `written`. -/
theorem headColumns_registry (written : List String) :
    headColumns (m'.rows (registryTable c.sync)) written =
      headColumns (m.rows (registryTable c.sync)) (takenTables c.sync m tables ++ written) := by
  rw [← headColumns_timeless, h.records, headColumns_placeAll, headColumns_timeless]
  · exact fun t => Record.get?_undated ..
  · exact fun t => (Record.keys_timeless _).trans (Record.keys_ofTable ..)

/-- The first event stays the first one, unless there was none and one is taken. -/
theorem firstKeys_events :
    firstKeys (m'.rows (eventsTable c.sync)) = firstKeys (m.rows (eventsTable c.sync)) ↔
      m.rows (eventsTable c.sync) ≠ [] ∨ (eventsTable c.sync).toText ∈ m.rejectedWrites := by
  obtain ⟨row, hkeys, hrows⟩ := h.events
  rw [hrows]
  split
  · next hrejected => simp [hrejected]
  · next hrejected =>
    cases m.rows (eventsTable c.sync) with
    | nil => simp [firstKeys, hkeys, hrejected, Record.eventKeys]
    | cons first rest => simp [firstKeys]

/-- The registry is seen alike by both synchronisations just if its first row has the same columns. -/
theorem seen_registry_eq_iff (hprobe : (registryTable c.sync).toText ∉ m.failingSelects)
    {written : List String} (hwritten : written ⊆ takenTables c.sync m tables) :
    seen c.sync m' m'' written (registryTable c.sync).toText =
        seen c.sync m m' written (registryTable c.sync).toText ↔
      headColumns (m.rows (registryTable c.sync)) written =
        headColumns (m.rows (registryTable c.sync)) (takenTables c.sync m tables) := by
  have hall : ∀ t, t ∈ takenTables c.sync m tables ++ written ↔
      t ∈ takenTables c.sync m tables := by
    intro t
    rw [List.mem_append, or_iff_left_of_imp fun ht => hwritten ht]
  rw [seen, seen, h.rules.failingSelects, if_neg hprobe, if_pos rfl, if_neg hprobe, if_pos rfl,
    h.headColumns_registry, headColumns_congr hall, eq_comm]

/-- The events are seen alike just if there was one before, or none can be read or taken. -/
theorem seen_events_eq_iff (written : List String) :
    seen c.sync m' m'' written (eventsTable c.sync).toText =
        seen c.sync m m' written (eventsTable c.sync).toText ↔
      m.rows (eventsTable c.sync) ≠ [] ∨ (eventsTable c.sync).toText ∈ m.failingSelects ∨
        (eventsTable c.sync).toText ∈ m.rejectedWrites := by
  obtain ⟨-, hre, hde⟩ := h.hasTables.texts_ne
  rw [seen, seen, h.rules.failingSelects]
  by_cases hfails : (eventsTable c.sync).toText ∈ m.failingSelects
  · simp [hfails]
  · rw [if_neg hfails, if_neg hfails, if_neg hre.symm, if_neg hre.symm, if_neg hde.symm,
      if_neg hde.symm, rows_ofString, rows_ofString, h.firstKeys_events, or_iff_right hfails]

end Once

section Twice

variable (h : Stored c d s tables m m') (h' : Stored c d s tables m' m'')

include h h'

/-- Two synchronisations that write leave the same documents. -/
theorem sameDocuments : SameDocuments c.sync m' m'' := by
  have hkeyed : MemoryStore.Keyed "name" ((takenDocuments c d s m).map
      fun doc => Document.timeless (doc.dated "").toJson) := by
    have hname : ∀ doc : Document,
        (Document.timeless (doc.dated "").toJson).get? "name" = some (.string doc.name) := by
      intro doc
      rw [Document.get?_timeless, Document.get?_toJson, Document.dated]
    exact MemoryStore.keyed_map hname _
  rw [SameDocuments, h'.documents, h.documents, takenDocuments_congr h.rules,
    MemoryStore.placeAll_placeAll hkeyed hkeyed rfl]

/-- The records are the same just if the same columns are `seen` of each table. -/
theorem sameRecords_iff (hsorted : tables.Pairwise (· < ·)) :
    SameRecords c.sync m' m'' ↔ ∀ t ∈ takenTables c.sync m tables,
      seen c.sync m' m'' ((takenTables c.sync m tables).filter (· < t)) t =
        seen c.sync m m' ((takenTables c.sync m tables).filter (· < t)) t := by
  have hnodup : (takenTables c.sync m tables).Nodup := (hsorted.imp ne_of_lt).filter _
  have hkey : ∀ (f : String → List String) t, (Record.undated s
      ((takenDocuments c d s m).map Document.name) (f t) t).get? "table_name" = some (.string t) :=
    fun f t => Record.get?_undated ..
  rw [SameRecords, h'.records, h.records, takenDocuments_congr h.rules, takenTables_congr h.rules,
    MemoryStore.placeAll_placeAll (MemoryStore.keyed_map (hkey _) _)
      (MemoryStore.keyed_map (hkey _) _)
      ((MemoryStore.map_textAt_map (hkey _) _).trans (MemoryStore.map_textAt_map (hkey _) _).symm)]
  -- what the first synchronisation wrote is gone, so that only what was seen by either is compared
  constructor
  · intro heq t ht
    exact Record.undated_inj.mp (MemoryStore.eq_of_placeAll_eq hnodup (hkey _) (hkey _) heq t ht)
  · intro hseen
    rw [List.map_congr_left fun t ht => Record.undated_inj.mpr (hseen t ht)]

/-- What is seen of a table that is neither the registry nor that of the events stays the same. -/
theorem seen_eq_of_ne {t : String} (hreg : t ≠ (registryTable c.sync).toText)
    (hev : t ≠ (eventsTable c.sync).toText) (written : List String) :
    seen c.sync m' m'' written t = seen c.sync m m' written t := by
  have hdocs : firstKeys (m''.rows (documentsTable c.sync)) =
      firstKeys (m'.rows (documentsTable c.sync)) := by
    rw [← firstKeys_timeless, h.sameDocuments h', firstKeys_timeless]
  rw [seen, seen, h.rules.failingSelects, if_neg hreg, if_neg hreg, hdocs]
  by_cases hdoc : t = (documentsTable c.sync).toText
  · rw [if_pos hdoc, if_pos hdoc]
  · rw [if_neg hdoc, if_neg hdoc, h.others] <;> rwa [Table.toText_ofString]

/-- Two synchronisations that write leave the same records just if what is seen is steady. -/
theorem sameRecords_iff_steady (hsorted : tables.Pairwise (· < ·))
    (hprobe : (registryTable c.sync).toText ∉ m.failingSelects) :
    SameRecords c.sync m' m'' ↔ Steady c.sync m (takenTables c.sync m tables) := by
  have hearlier : (takenTables c.sync m tables).filter (· < (registryTable c.sync).toText) ⊆
      takenTables c.sync m tables := List.filter_subset_self _
  rw [h.sameRecords_iff h' hsorted]
  constructor
  · intro hseen
    refine ⟨fun hreg => ?_, fun hev => ?_⟩
    · exact (h.seen_registry_eq_iff hprobe hearlier).mp (hseen _ hreg)
    · exact (h.seen_events_eq_iff _).mp (hseen _ hev)
  · intro hsteady t ht
    by_cases hreg : t = (registryTable c.sync).toText
    · subst hreg
      exact (h.seen_registry_eq_iff hprobe hearlier).mpr (hsteady.registry ht)
    · by_cases hev : t = (eventsTable c.sync).toText
      · subst hev
        exact (h.seen_events_eq_iff _).mpr (hsteady.events ht)
      · exact h.seen_eq_of_ne h' hreg hev _

end Twice

end Stored

/-! ## Any two synchronisations -/

/-- A second synchronisation leaves the documents as they are, and the records just if the store is `Steady` for the
tables that were synchronised. -/
theorem same_again_iff_steady (clock : Nat → String) (c : Config) (d : Disk) (s : Summary)
    (m : MemoryStore) (n : Nat) (h : HasTables c.sync m) :
    let once := (session c d s).run (world clock) (m, n)
    let twice := (session c d s).run (world clock) once.2
    SameDocuments c.sync once.2.1 twice.2.1 ∧
      (SameRecords c.sync once.2.1 twice.2.1 ↔ Steady c.sync m once.1.syncedTables) := by
  dsimp only
  obtain ⟨o, m', n', hrun, hcourse⟩ := run_session clock n h d s
  -- a synchronisation that stops writes nothing, and so does the next one
  by_cases hstops : told c.sync.allowedSchemas m c.sync.discoveryHelpers = [] ∨
      (registryTable c.sync).toText ∈ m.failingSelects
  · rw [if_pos hstops] at hcourse
    obtain ⟨htables, rfl⟩ := hcourse
    obtain ⟨o', m'', n'', hrun', hcourse'⟩ := run_session clock n' h d s
    rw [if_pos hstops] at hcourse'
    obtain ⟨-, rfl⟩ := hcourse'
    rw [hrun, hrun', htables]
    exact ⟨rfl, fun _ => ⟨by simp, by simp⟩, fun _ => rfl⟩
  · rw [if_neg hstops] at hcourse
    obtain ⟨htables, hstored⟩ := hcourse
    obtain ⟨o', m'', n'', hrun', hcourse'⟩ := run_session clock n' hstored.hasTables d s
    rw [hstored.rules.failingSelects, told_congr hstored.rules, if_neg hstops] at hcourse'
    rw [not_or] at hstops
    rw [hrun, hrun', htables]
    exact ⟨hstored.sameDocuments hcourse'.2,
      hstored.sameRecords_iff_steady hcourse'.2 (pairwise_told _ _ _) hstops.2⟩

/-- A store in which the three tables are empty, and a helper names `table`. -/
def storeNaming (table : String) : MemoryStore where
  procedures := [("list_tables_ext", .array [.string table])]
  tables := [("kitenga.payload_registry", []), ("kitenga.analysis_documents", []),
    ("kitenga.analysis_sync_events", [])]

theorem hasTables_storeNaming (table : String) : HasTables {} (storeNaming table) :=
  ⟨rfl, rfl, rfl, by decide⟩

/-- A table that a synchronisation does not write to has the same record afterwards. -/
theorem same_again_notes :
    let once := (session {} {} {}).run (world toString) (storeNaming "public.notes", 0)
    let twice := (session {} {} {}).run (world toString) once.2
    HasTables {} (storeNaming "public.notes") ∧ once.1.syncedTables = ["public.notes"] ∧
      SameDocuments {} once.2.1 twice.2.1 ∧ SameRecords {} once.2.1 twice.2.1 := by
  have hsynced : ((session {} {} {}).run (world toString) (storeNaming "public.notes", 0)).1.syncedTables =
      ["public.notes"] := by decide +kernel
  have hsteady : Steady {} (storeNaming "public.notes") ["public.notes"] :=
    steady_of_notMem (by decide) (by decide)
  obtain ⟨hdocuments, hrecords⟩ :=
    same_again_iff_steady toString {} {} {} _ 0 (hasTables_storeNaming "public.notes")
  rw [hsynced] at hrecords
  exact ⟨hasTables_storeNaming _, hsynced, hdocuments, hrecords.mpr hsteady⟩

/-- The record of the events has other columns afterwards if the first of them came with the first
synchronisation. -/
theorem not_same_again_events :
    let once := (session {} {} {}).run (world toString) (storeNaming "kitenga.analysis_sync_events", 0)
    let twice := (session {} {} {}).run (world toString) once.2
    HasTables {} (storeNaming "kitenga.analysis_sync_events") ∧
      (once.2.1.rows (registryTable {})).map Record.columnNames = [[]] ∧
      (twice.2.1.rows (registryTable {})).map Record.columnNames = [Record.eventKeys] ∧
      ¬SameRecords {} once.2.1 twice.2.1 := by
  refine ⟨hasTables_storeNaming _, by decide +kernel, by decide +kernel, fun h => ?_⟩
  have hcolumns := congrArg (List.map Record.columnNames) h
  exact absurd hcolumns (by decide +kernel)

end PayloadAtlas.Sync
