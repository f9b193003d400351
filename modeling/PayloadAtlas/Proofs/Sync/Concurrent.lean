import PayloadAtlas.Proofs.Store.Calls
import PayloadAtlas.Proofs.Store.Interleaving
import PayloadAtlas.Proofs.Store.Keys
import PayloadAtlas.Proofs.Sync.Repetition

/-!
# Synchronisations at the same time

Any number of synchronisations may go on with one store in memory at the same time, in whatever order their
calls come. What a call can do to the store is said once (`MemoryStore.answer_cases`): nothing, or to write a
row to one table. A synchronisation writes to three tables, and to each in one way (`Writes`, `asks_session`).
So each record and each document is one that was written as a whole, and there is one for each key; the events
are all there in the order in which they came (`keptWhole_concurrent`).
-/

namespace PayloadAtlas

open Json (Value)
open Session (Exchange Asks Talks)

/-! ## What a store took -/

namespace MemoryStore

/-- The rows that a store took by `upsert`, in place of others. -/
def upserted (t : Table) (log : List Exchange) : List Value :=
  log.filterMap fun e =>
    match e.1 with
    | .upsert u row _ => if u = t ∧ e.2.succeeded then some row else none
    | _ => none

/-- The rows that a store took by `insert`, in addition to others. -/
def inserted (t : Table) (log : List Exchange) : List Value :=
  log.filterMap fun e =>
    match e.1 with
    | .insert u row => if u = t ∧ e.2.succeeded then some row else none
    | _ => none

variable {m : MemoryStore} {t : Table} {column : String} {call : Call} {log : List Exchange}
  {before : List Value}

/-- A call that writes to the table `t` puts rows with a text in `column` in the place of others. -/
def UpsertsOnly (t : Table) (column : String) : Call → Prop
  | .upsert u row c => (u = t ∧ c = column ∧ ∃ k, row.get? column = some (.string k)) ∨ u.toText ≠ t.toText
  | .insert u _ => u.toText ≠ t.toText
  | .rpc _ | .select .. => True

/-- A call that writes to the table `t` adds rows. -/
def InsertsOnly (t : Table) : Call → Prop
  | .upsert u _ _ => u.toText ≠ t.toText
  | .insert u _ => u = t ∨ u.toText ≠ t.toText
  | .rpc _ | .select .. => True

/-- A refused call adds nothing to `upserted`. -/
theorem upserted_concat_refused {a : Answer} (h : call.target?.isSome → a.succeeded = false) :
    upserted t (log ++ [(call, a)]) = upserted t log := by
  cases call <;> simp_all [upserted, Call.target?]

/-- A refused call adds nothing to `inserted`. -/
theorem inserted_concat_refused {a : Answer} (h : call.target?.isSome → a.succeeded = false) :
    inserted t (log ++ [(call, a)]) = inserted t log := by
  cases call <;> simp_all [inserted, Call.target?]

/-- One more call keeps `OneEach` between the rows of `t` and what was written over in it. -/
theorem oneEach_answer (hcall : UpsertsOnly t column call)
    (h : OneEach column before (upserted t log) (m.rows t)) :
    OneEach column before (upserted t (log ++ [(call, (m.answer call).1)])) ((m.answer call).2.rows t) := by
  rcases answer_cases m call with ⟨hm, hrefused⟩ | ⟨u, hu, hok, hm⟩
  · rw [hm, upserted_concat_refused hrefused]
    exact h
  · rw [hm]
    cases call with
    | rpc | select => simp [Call.target?] at hu
    | insert v row =>
      obtain rfl := Option.some.inj hu
      rw [rows_withTable_of_ne (Ne.symm hcall)]
      simpa [upserted] using h
    | upsert v row c =>
      obtain rfl := Option.some.inj hu
      -- the row goes to this table under its key, or to another table
      obtain ⟨rfl, rfl, k, hk⟩ | hne := hcall
      · rw [rows_withTable_self, upserted, List.filterMap_append, ← upserted]
        simpa [hok, Call.applyTo] using h.place hk
      · have hvt : v ≠ t := fun hvt => hne (hvt ▸ rfl)
        rw [rows_withTable_of_ne (Ne.symm hne), upserted, List.filterMap_append, ← upserted]
        simpa [hvt] using h

/-- One more call keeps the rows of `t` as the old rows followed by `inserted`. -/
theorem rows_answer_of_insertsOnly (hcall : InsertsOnly t call)
    (h : m.rows t = before ++ inserted t log) :
    (m.answer call).2.rows t = before ++ inserted t (log ++ [(call, (m.answer call).1)]) := by
  rcases answer_cases m call with ⟨hm, hrefused⟩ | ⟨u, hu, hok, hm⟩
  · rw [hm, inserted_concat_refused hrefused]
    exact h
  · rw [hm]
    cases call with
    | rpc | select => simp [Call.target?] at hu
    | upsert v row c =>
      obtain rfl := Option.some.inj hu
      rw [rows_withTable_of_ne (Ne.symm hcall), h]
      simp [inserted]
    | insert v row =>
      obtain rfl := Option.some.inj hu
      obtain rfl | hne := hcall
      · rw [rows_withTable_self, Call.applyTo, h, inserted, inserted, List.filterMap_append]
        simp [hok]
      · have hvt : v ≠ t := fun hvt => hne (hvt ▸ rfl)
        rw [rows_withTable_of_ne (Ne.symm hne), h, inserted, inserted, List.filterMap_append]
        simp [hvt]

end MemoryStore

namespace Sync

open MemoryStore (Distinct OneEach UpsertsOnly InsertsOnly textAt upserted inserted)

/-! ## What a synchronisation asks -/

/-- A table whose rows are written over by the value of a column: `table_name` in the registry, `name` among the
documents. -/
def IsKeyed (c : SyncConfig) (t : Table) (column : String) : Prop :=
  (t = registryTable c ∧ column = "table_name") ∨ (t = documentsTable c ∧ column = "name")

/-- The calls of a synchronisation: records are written to the registry, documents to their table and events to
theirs, and `select` and `rpc` write nothing. -/
def Writes (c : SyncConfig) : Call → Prop
  | .upsert t row column => IsKeyed c t column ∧ ∃ k, row.get? column = some (.string k)
  | .insert t _ => t = eventsTable c
  | .rpc _ | .select .. => True

theorem asks_discover (c : SyncConfig) (allowed helpers : List String) :
    Asks (Writes c) (discover allowed helpers) := by
  induction helpers with
  | nil => exact .pure []
  | cons helper rest ih =>
    refine .bind (.call trivial) fun a => ?_
    cases tablesOf allowed a with
    | nil => exact ih
    | cons first others => exact .pure _

/-- Documents are written under `name`. -/
theorem asks_writeDocuments (c : SyncConfig) (docs : List Document) :
    Asks (Writes c) (writeDocuments (documentsTable c) docs) := by
  induction docs with
  | nil => exact .pure []
  | cons doc rest ih =>
    have hdoc : Writes c (.upsert (documentsTable c) doc.toJson "name") :=
      ⟨.inr ⟨rfl, rfl⟩, doc.name, doc.get?_toJson⟩
    exact .bind (.call hdoc) fun _ => .bind ih fun _ => .pure _

/-- A record is written under `table_name`, after a `select`. -/
theorem asks_writeTable (c : SyncConfig) (s : Summary) (refs : List String) (table : String) :
    Asks (Writes c) (writeTable c s refs table) := by
  refine .bind (.call trivial) fun sample => .bind .now fun time => ?_
  have hrecord : Writes c (.upsert (registryTable c)
      (Record.ofTable s table (columnsOf sample) refs time) "table_name") :=
    ⟨.inl ⟨rfl, rfl⟩, table, Record.get?_ofTable ..⟩
  exact .bind (.call hrecord) fun _ => .pure _

theorem asks_writeTables (c : SyncConfig) (s : Summary) (refs tables : List String) :
    Asks (Writes c) (writeTables c s refs tables) := by
  induction tables with
  | nil => exact .pure []
  | cons table rest ih =>
    exact .bind (asks_writeTable c s refs table) fun _ => .bind ih fun _ => .pure _

theorem asks_write (c : Config) (d : Disk) (s : Summary) (tables : List String) :
    Asks (Writes c.sync) (write c d s tables) := by
  refine .bind .now fun time => .bind (asks_writeDocuments c.sync _) fun refs => ?_
  refine .bind (asks_writeTables c.sync s refs tables) fun synced => .bind .now fun time => ?_
  exact .bind (.call rfl) fun _ => .pure _

/-- A whole synchronisation stays within `Writes`. -/
theorem asks_session (c : Config) (d : Disk) (s : Summary) : Asks (Writes c.sync) (session c d s) := by
  refine .bind (asks_discover c.sync _ _) fun tables => ?_
  cases tables with
  | nil => exact .pure _
  | cons first rest =>
    have hprobe : Asks (Writes c.sync) (probe (registryTable c.sync)) :=
      .bind (.call trivial) fun _ => .pure _
    refine .bind hprobe fun found => ?_
    cases found with
    | false => exact .pure _
    | true => exact asks_write c d s _

namespace Writes

variable {c : SyncConfig} (hc : [registryTable c, documentsTable c, eventsTable c].Nodup) {call : Call}
  (h : Writes c call)

include hc h

/-- As the three tables differ, `Writes` puts rows over others in the two tables of `IsKeyed`. -/
theorem upsertsOnly {t : Table} {column : String} (ht : IsKeyed c t column) : UpsertsOnly t column call := by
  obtain ⟨hrd, hre, hde⟩ := texts_ne_of_nodup hc
  cases call with
  | rpc | select => trivial
  | insert u row =>
    obtain rfl := h
    rcases ht with ⟨rfl, -⟩ | ⟨rfl, -⟩
    · exact hre.symm
    · exact hde.symm
  | upsert u row column' =>
    obtain ⟨hu, hkey⟩ := h
    -- the call is for the table itself or for the other one of the two
    rcases ht with ⟨rfl, rfl⟩ | ⟨rfl, rfl⟩ <;> rcases hu with ⟨rfl, rfl⟩ | ⟨rfl, rfl⟩
    · exact .inl ⟨rfl, rfl, hkey⟩
    · exact .inr hrd.symm
    · exact .inr hrd
    · exact .inl ⟨rfl, rfl, hkey⟩

/-- As the three tables differ, `Writes` only adds to the events. -/
theorem insertsOnly : InsertsOnly (eventsTable c) call := by
  obtain ⟨-, hre, hde⟩ := texts_ne_of_nodup hc
  cases call with
  | rpc | select => trivial
  | insert t row => exact .inl h
  | upsert t row column =>
    obtain ⟨⟨rfl, rfl⟩ | ⟨rfl, rfl⟩, -⟩ := h
    · exact hre
    · exact hde

omit hc in
/-- A table that is none of the three is not written to. -/
theorem target_ne {key : String} (hkey : key ∉ [registryTable c, documentsTable c, eventsTable c].map Table.toText)
    (t : Table) (ht : call.target? = some t) : t.toText ≠ key := by
  rintro rfl
  apply hkey
  cases call with
  | rpc | select => simp [Call.target?] at ht
  | insert u row =>
    obtain rfl := Option.some.inj ht
    obtain rfl := h
    simp
  | upsert u row column =>
    obtain rfl := Option.some.inj ht
    obtain ⟨⟨rfl, rfl⟩ | ⟨rfl, rfl⟩, -⟩ := h <;> simp

end Writes

/-! ## Many synchronisations -/

/-- What a store `m` has become, as `m'`, when synchronisations wrote to it what `log` says. -/
structure KeptWhole (c : SyncConfig) (m : MemoryStore) (log : List Exchange) (m' : MemoryStore) : Prop where
  registry : OneEach "table_name" (m.rows (registryTable c)) (upserted (registryTable c) log)
    (m'.rows (registryTable c))
  documents : OneEach "name" (m.rows (documentsTable c)) (upserted (documentsTable c) log)
    (m'.rows (documentsTable c))
  events : m'.rows (eventsTable c) = m.rows (eventsTable c) ++ inserted (eventsTable c) log
  others : ∀ key ∉ [registryTable c, documentsTable c, eventsTable c].map Table.toText,
    m'.tables.lookup key = m.tables.lookup key

/-- One call of `Writes` keeps `KeptWhole`, whatever the store answers. -/
theorem KeptWhole.call {c : SyncConfig} (hc : [registryTable c, documentsTable c, eventsTable c].Nodup)
    {m m' : MemoryStore} {log : List Exchange} {call : Call} (hcall : Writes c call)
    (h : KeptWhole c m log m') :
    KeptWhole c m (log ++ [(call, (m'.answer call).1)]) (m'.answer call).2 where
  registry := MemoryStore.oneEach_answer (hcall.upsertsOnly hc (.inl ⟨rfl, rfl⟩)) h.registry
  documents := MemoryStore.oneEach_answer (hcall.upsertsOnly hc (.inr ⟨rfl, rfl⟩)) h.documents
  events := MemoryStore.rows_answer_of_insertsOnly (hcall.insertsOnly hc) h.events
  others key hkey := (MemoryStore.lookup_answer (hcall.target_ne hkey)).trans (h.others key hkey)

/-- Synchronisations that go on at the same time, by whatever `schedule`, keep one whole row for each key. -/
theorem keptWhole_concurrent {ι : Type} [DecidableEq ι] {c : SyncConfig}
    (hc : [registryTable c, documentsTable c, eventsTable c].Nodup) (config : ι → Config) (disk : ι → Disk)
    (summary : ι → Summary) (hconfig : ∀ i, (config i).sync = c) {m : MemoryStore}
    (hregistry : Distinct "table_name" (m.rows (registryTable c)))
    (hdocuments : Distinct "name" (m.rows (documentsTable c))) (schedule : List (ι × String)) :
    let start : Talks ι SyncOutcome MemoryStore :=
      { parties := fun i => session (config i) (disk i) (summary i), state := m }
    let now := start.follow MemoryStore.answer schedule
    KeptWhole c m now.log now.state := by
  intro start now
  have hasks : ∀ i, Asks (Writes c) (start.parties i) := by
    intro i
    rw [← hconfig i]
    exact asks_session (config i) (disk i) (summary i)
  have hstart : KeptWhole c m start.log start.state :=
    ⟨MemoryStore.oneEach_refl hregistry, MemoryStore.oneEach_refl hdocuments, by simp [start, inserted],
      fun _ _ => rfl⟩
  -- what is kept does not depend on whose call it is, so that the schedule does not matter
  exact Talks.follow_induction hasks hstart (fun log m' call hcall h => h.call hc hcall) schedule

/-- Two synchronisations take turns. Both write a record of `public.notes` over an old one; the second one's
is there in the end, next to a record that neither writes. -/
theorem keptWhole_concurrent_two :
    let row table := Value.object [("table_name", .string table)]
    let m := (storeNaming "public.notes").withTable "kitenga.payload_registry"
      [row "public.notes", row "public.users"]
    let start : Talks Bool SyncOutcome MemoryStore :=
      { parties := fun i => session {} {} { timestamp := if i then "second" else "first" }, state := m }
    -- they take turns, call by call
    let schedule := (List.replicate 8 [(false, "early"), (true, "late")]).flatten
    let now := start.follow MemoryStore.answer schedule
    [registryTable {}, documentsTable {}, eventsTable {}].Nodup ∧
      Distinct "table_name" (m.rows (registryTable {})) ∧ Distinct "name" (m.rows (documentsTable {})) ∧
      KeptWhole {} m now.log now.state ∧
      (now.state.rows (registryTable {})).map (fun x => (textAt "table_name" x, textAt "synced_at" x)) =
        [(some "public.notes", some "late"), (some "public.users", none)] ∧
      (now.state.rows (eventsTable {})).map (textAt "run_id") = [some "first", some "second"] := by
  intro row m start schedule now
  have htables : [registryTable {}, documentsTable {}, eventsTable {}].Nodup := by decide
  have hregistry : Distinct "table_name" (m.rows (registryTable {})) := by decide
  have hdocuments : Distinct "name" (m.rows (documentsTable {})) := by decide
  have hkept : KeptWhole {} m now.log now.state :=
    keptWhole_concurrent htables (fun _ => {}) (fun _ => {}) _ (fun _ => rfl) hregistry hdocuments schedule
  exact ⟨htables, hregistry, hdocuments, hkept, by decide +kernel, by decide +kernel⟩

end Sync

end PayloadAtlas
