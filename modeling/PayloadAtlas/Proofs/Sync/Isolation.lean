import PayloadAtlas.Proofs.Sync.Course
import PayloadAtlas.Proofs.Sync.Row

/-!
# Failures of single items

A synchronisation that does not stop tells what was written: its outcome, its event and each of its records
list just those items that the store took (`Reported`). And what becomes of one table is a matter of that
table alone. Let two worlds answer alike but for the calls that concern the table (`AlikeBut`). Then the two
conversations ask the same about everything else, whatever the times, and come to outcomes that differ at
most in that table (`reported_and_isolated`).

The comparison goes stage by stage, as `Session.Parallel` puts it together.
-/

namespace PayloadAtlas

open Json (Value)

/-- Whether a call is an `insert`, as only that of an event is. -/
def Call.isInsert : Call → Bool
  | .insert .. => true
  | .rpc _ | .select .. | .upsert .. => false

/-- A call without the times in its row, be it a record or a document. -/
def Call.timeless : Call → Call
  | .upsert t row column => .upsert t (Record.timeless (Document.timeless row)) column
  | c => c

namespace Sync

open Session (World Exchange exchanges Parallel)

/-! ## What concerns a table -/

/-- Whether a call samples the columns of `table` or writes its record. -/
def concerns (c : SyncConfig) (table : String) : Call → Bool
  | .select t columns _ => decide (t = Table.ofString table) && columns == "*"
  | .upsert t row column =>
    decide (t = registryTable c) && column == "table_name" &&
      (row.get? "table_name").bind Value.string? == some table
  | .rpc _ | .insert .. => false

/-- What can be seen of a call when the `table` and the event are left out, and the times. -/
def view (c : SyncConfig) (table : String) (call : Call) : Option Call :=
  if call.isInsert || concerns c table call then none else some call.timeless

/-- Two worlds answer alike, from states related by `R` on, but for the calls that concern a table. -/
structure AlikeBut {σ τ : Type} (c : SyncConfig) (table : String) (w : World σ) (v : World τ)
    (R : σ → τ → Prop) : Prop where
  /-- Calls that differ at most in times are answered alike. -/
  other {x y a b} : R x y → a.timeless = b.timeless → concerns c table a = false →
    (w.answer a x).1 = (v.answer b y).1 ∧ R (w.answer a x).2 (v.answer b y).2
  /-- The table is sampled with any answers. -/
  sample {x y} : R x y →
    R (w.answer (.select (Table.ofString table) "*" 1) x).2
      (v.answer (.select (Table.ofString table) "*" 1) y).2
  /-- The record of the table is written with any answers. -/
  record {x y row row'} : R x y →
    row.get? "table_name" = some (.string table) → row'.get? "table_name" = some (.string table) →
    R (w.answer (.upsert (registryTable c) row "table_name") x).2
      (v.answer (.upsert (registryTable c) row' "table_name") y).2

/-- The times do not tell what a call `concerns`. -/
theorem concerns_eq {c : SyncConfig} {table : String} {a b : Call} (h : a.timeless = b.timeless) :
    concerns c table a = concerns c table b := by
  cases a <;> cases b <;> simp only [Call.timeless, reduceCtorEq, Call.upsert.injEq] at h
  case upsert.upsert t row column t' row' column' =>
    obtain ⟨rfl, hrow, rfl⟩ := h
    have hkey := congrArg (Value.get? "table_name") hrow
    simp only [Record.timeless, Document.timeless, ne_eq, String.reduceEq, not_false_eq_true,
      Value.get?_blankAt_of_ne] at hkey
    simp only [concerns, hkey]
  all_goals rw [h]

/-- Calls that differ in their times have one `view`. -/
theorem view_eq {c : SyncConfig} {table : String} {a b : Call} (h : a.timeless = b.timeless) :
    view c table a = view c table b := by
  have hinsert : a.isInsert = b.isInsert := by
    cases a <;> cases b <;> first | rfl | simp [Call.timeless] at h
  rw [view, view, hinsert, concerns_eq h, h]

/-- The time of a record is left out by `timeless`. -/
theorem timeless_upsert_record (t : Table) (column : String) (s : Summary) (table : String)
    (columnNames refs : List String) (time time' : String) :
    (Call.upsert t (Record.ofTable s table columnNames refs time) column).timeless =
      (Call.upsert t (Record.ofTable s table columnNames refs time') column).timeless := by
  have hrow := Record.timeless_ofTable s table columnNames refs time time'
  unfold Record.timeless at hrow
  simp only [Call.timeless, Record.timeless, Document.timeless]
  rw [Value.blankAt_comm (by decide), hrow, Value.blankAt_comm (by decide)]

/-- The time of a document is left out by `timeless`. -/
theorem timeless_upsert_document (t : Table) (column : String) (doc : Document)
    (time time' : String) :
    (Call.upsert t (doc.dated time).toJson column).timeless =
      (Call.upsert t (doc.dated time').toJson column).timeless := by
  simp only [Call.timeless, Document.timeless_dated doc time time']

/-- The record of a table `concerns` that table and no other. -/
theorem concerns_record (c : SyncConfig) (s : Summary) (table other : String)
    (columnNames refs : List String) (time : String) :
    concerns c table (.upsert (registryTable c) (Record.ofTable s other columnNames refs time)
      "table_name") = decide (other = table) := by
  simp [concerns, Record.get?_ofTable, Value.string?, Bool.beq_eq_decide_eq]

/-! ## Stage by stage -/

/-- The outcomes differ at most in whether `table` is listed. -/
structure SameBut (table : String) (o o' : SyncOutcome) : Prop where
  fault : o.fault = o'.fault
  documentRefs : o.documentRefs = o'.documentRefs
  syncedTables : o.syncedTables.filter (· ≠ table) = o'.syncedTables.filter (· ≠ table)

section Stages

variable {σ τ : Type} {c : SyncConfig} {table : String} {w : World σ} {v : World τ}
  {R : σ → τ → Prop} (h : AlikeBut c table w v R)

include h

/-- A call that does not concern the `table` is answered alike in both worlds. -/
theorem parallel_call {a b : Call} (hab : a.timeless = b.timeless)
    (ha : concerns c table a = false) :
    Parallel w v (view c table) R (Session.call a) (Session.call b) Eq R :=
  .ask (view_eq hab) fun _ _ hxy => h.other hxy hab ha

/-- Both worlds name the same tables. -/
theorem parallel_discover (allowed helpers : List String) :
    Parallel w v (view c table) R (discover allowed helpers) (discover allowed helpers) Eq R := by
  induction helpers with
  | nil => exact .done rfl
  | cons helper rest ih =>
    refine .bind (parallel_call h rfl rfl) ?_
    rintro a _ rfl
    cases tablesOf allowed a with
    | nil => exact ih
    | cons first others => exact .done rfl

/-- Both worlds tell alike whether the registry is there. -/
theorem parallel_probe (registry : Table) :
    Parallel w v (view c table) R (probe registry) (probe registry) Eq R := by
  refine .bind (parallel_call h rfl ?_) ?_
  · simp [concerns]
  · rintro a _ rfl
    exact .done rfl

/-- The documents are written alike, but for their times. -/
theorem parallel_writeDocuments (t : Table) (docs : List Document) (time time' : String) :
    Parallel w v (view c table) R (writeDocuments t (docs.map (Document.dated time)))
      (writeDocuments t (docs.map (Document.dated time'))) Eq R := by
  induction docs with
  | nil => exact .done rfl
  | cons doc rest ih =>
    refine .bind (parallel_call h ?_ ?_) ?_
    · exact timeless_upsert_document ..
    · simp [concerns]
    · rintro a _ rfl
      refine .bind ih ?_
      rintro names _ rfl
      exact .done rfl

/-- The record of any `other` table is written alike. -/
theorem parallel_writeTable_other (s : Summary) (refs : List String) {other : String}
    (hother : other ≠ table) :
    Parallel w v (view c table) R (writeTable c s refs other) (writeTable c s refs other) Eq R := by
  refine .bind (parallel_call h rfl ?_) ?_
  · simp [concerns, Table.ofString_inj, hother]
  · rintro sample _ rfl
    refine .bind .clock fun time time' _ => ?_
    refine .bind (parallel_call h ?_ ?_) ?_
    · exact timeless_upsert_record ..
    · rw [concerns_record]
      exact decide_eq_false hother
    · rintro a _ rfl
      exact .done rfl

/-- Of the record of the `table` itself nothing is seen, whatever the answers. -/
theorem parallel_writeTable_own (s : Summary) (refs : List String) :
    Parallel w v (view c table) R (writeTable c s refs table) (writeTable c s refs table)
      (fun _ _ => True) R := by
  have hsample : Parallel w v (view c table) R
      (Session.call (.select (Table.ofString table) "*" 1))
      (Session.call (.select (Table.ofString table) "*" 1)) (fun _ _ => True) R :=
    .ask rfl fun _ _ hxy => ⟨trivial, h.sample hxy⟩
  refine .bind hsample fun sample sample' _ => ?_
  refine .bind .clock fun time time' _ => ?_
  have hrecord : Parallel w v (view c table) R
      (Session.call (.upsert (registryTable c)
        (Record.ofTable s table (columnsOf sample) refs time) "table_name"))
      (Session.call (.upsert (registryTable c)
        (Record.ofTable s table (columnsOf sample') refs time') "table_name"))
      (fun _ _ => True) R := by
    refine .ask ?_ fun _ _ hxy => ⟨trivial, h.record hxy rfl rfl⟩
    simp only [view, concerns_record, decide_true, Bool.or_true, if_true]
  exact .bind hrecord fun _ _ _ => .done trivial

/-- The same tables are reported, but for the one. -/
theorem parallel_writeTables (s : Summary) (refs tables : List String) :
    Parallel w v (view c table) R (writeTables c s refs tables) (writeTables c s refs tables)
      (fun l l' => l.filter (· ≠ table) = l'.filter (· ≠ table)) R := by
  -- on the tables: the one itself is skipped over, and any other one keeps the two worlds related
  induction tables with
  | nil => exact .done rfl
  | cons first rest ih =>
    by_cases hfirst : first = table
    · subst hfirst
      refine .bind (parallel_writeTable_own h s refs) fun written written' _ => ?_
      refine .bind ih fun l l' hl => .done ?_
      cases written <;> cases written' <;> simpa using hl
    · refine .bind (parallel_writeTable_other h s refs hfirst) ?_
      rintro written _ rfl
      refine .bind ih fun l l' hl => .done ?_
      cases written with
      | false => exact hl
      | true => simpa [hfirst] using hl

end Stages

section Whole

variable {σ τ : Type} {c : Config} {table : String} {w : World σ} {v : World τ}
  {R : σ → τ → Prop} (h : AlikeBut c.sync table w v R) (d : Disk) (s : Summary)

include h

/-- All that is written is seen alike. -/
theorem parallel_write (tables : List String) :
    Parallel w v (view c.sync table) R (write c d s tables) (write c d s tables) (SameBut table)
      (fun _ _ => True) := by
  refine .bind .clock fun time time' _ => ?_
  simp only [Document.collect_dated c d s.timestamp "" time,
    Document.collect_dated c d s.timestamp "" time']
  refine .bind (parallel_writeDocuments h _ _ _ _) ?_
  rintro refs _ rfl
  refine .bind (parallel_writeTables h _ _ _) fun synced synced' hsynced => ?_
  refine .bind .clock fun eventTime eventTime' _ => ?_
  have hevent : ∀ row row' : Value, Parallel w v (view c.sync table) R
      (Session.call (.insert (eventsTable c.sync) row))
      (Session.call (.insert (eventsTable c.sync) row')) (fun _ _ => True) (fun _ _ => True) :=
    fun row row' => .ask rfl fun _ _ _ => ⟨trivial, trivial⟩
  exact .bind (hevent _ _) fun _ _ _ => .done ⟨rfl, rfl, hsynced⟩

/-- A whole synchronisation is seen alike, and comes to the same but for the `table`. -/
theorem parallel_session :
    Parallel w v (view c.sync table) R (session c d s) (session c d s) (SameBut table)
      (fun _ _ => True) := by
  have hstop : ∀ f, Parallel w v (view c.sync table) R (pure (.stopped f) : Session SyncOutcome)
      (pure (.stopped f)) (SameBut table) (fun _ _ => True) :=
    fun f _ _ _ => ⟨rfl, ⟨rfl, rfl, rfl⟩, trivial⟩
  refine .bind (parallel_discover h _ _) ?_
  rintro tables _ rfl
  cases tables with
  | nil => exact hstop .noTables
  | cons first rest =>
    refine .bind (parallel_probe h _) ?_
    rintro found _ rfl
    cases found with
    | false => exact hstop .registryMissing
    | true => exact parallel_write h d s _

end Whole

/-! ## What the outcome tells -/

instance (a : Answer) : Decidable (Accepted a) := decidable_of_iff _ accepted_iff.symm

/-- An outcome tells of a conversation what the store took, and so do the rows of the records and of the event that
were written. -/
structure Reported (c : Config) (d : Disk) (s : Summary) (talk : List Exchange) (o : SyncOutcome) :
    Prop where
  /-- The outcome lists those documents and those tables that the store took, in order. -/
  taken : ∃ (asked : List (String × Answer)) (probe : Answer) (tables : List String) (W : Writing)
    (generatedAt : String),
    Found c.sync.allowedSchemas c.sync.discoveryHelpers asked tables ∧
      W.documents.map (·.document) = Document.collect c d s.timestamp generatedAt ∧
      W.records.map (·.table) = tables ∧
      talk = asked.map question ++ (probeCall c.sync, probe) :: W.exchanges c.sync s ∧
      o.documentRefs = (W.documents.filter (Accepted ·.answer)).map (·.document.name) ∧
      o.syncedTables = (W.records.filter (Accepted ·.answer)).map (·.table)
  /-- Each record has the list of documents, or nothing if it is empty. -/
  records : ∀ row a, (.upsert (registryTable c.sync) row "table_name", a) ∈ talk →
    row.get? "document_refs" =
      some (if o.documentRefs = [] then .null else .ofStrings o.documentRefs)
  /-- The event has both lists. -/
  event : ∀ t row a, (.insert t row, a) ∈ talk →
    row.get? "synced_tables" = some (.ofStrings o.syncedTables) ∧
      row.get? "document_refs" = some (.ofStrings o.documentRefs)

/-- A call of `Writing` is about a document, about a record or is the event. -/
theorem Writing.mem_exchanges {c : SyncConfig} {s : Summary} {W : Writing} {e : Exchange} :
    e ∈ W.exchanges c s ↔
      (∃ dw ∈ W.documents, e = dw.exchange (documentsTable c)) ∨
        (∃ rw ∈ W.records, e ∈ rw.exchanges c s W.outcome.documentRefs) ∨
          e = (.insert (eventsTable c) (W.event c s), W.eventAnswer) := by
  simp only [Writing.exchanges, List.mem_append, List.mem_map, List.mem_flatMap,
    List.mem_singleton, eq_comm]

/-- What is asked before anything is written is neither an `upsert` nor an `insert`. -/
theorem mem_exchanges_of_mem_talk {c : SyncConfig} {s : Summary} {asked : List (String × Answer)}
    {probe : Answer} {W : Writing} {e : Exchange}
    (he : e ∈ asked.map question ++ (probeCall c, probe) :: W.exchanges c s)
    (hwrite : e.1.isWrite = true) : e ∈ W.exchanges c s := by
  rcases List.mem_append.mp he with he | he
  · obtain ⟨e', -, rfl⟩ := List.mem_map.mp he
    exact absurd hwrite (by simp [question_isWrite])
  · rcases List.mem_cons.mp he with rfl | he
    · exact absurd hwrite (by simp [probeCall, Call.isWrite])
    · exact he

/-- A course without a `fault` reports what the store took. -/
theorem Course.reported {c : Config} {d : Disk} {s : Summary} {talk : List Exchange}
    {o : SyncOutcome} (h : Course c d s true talk o) (hf : o.fault = none) :
    Reported c d s talk o := by
  cases h with
  | noTables _ => exact absurd hf (by simp [SyncOutcome.stopped])
  | registryMissing _ _ => exact absurd hf (by simp [SyncOutcome.stopped])
  | @finished asked tables probe W generatedAt hfound _ _ hdocs htables =>
    refine ⟨⟨asked, probe, tables, W, generatedAt, hfound, hdocs, htables, rfl, ?_, ?_⟩, ?_, ?_⟩
    · simp only [Writing.outcome, acceptedDocuments, accepted_iff, Bool.decide_eq_true]
    · simp only [Writing.outcome, acceptedTables, accepted_iff, Bool.decide_eq_true]
    · -- nothing but a record is upserted by this column
      intro row a he
      rcases Writing.mem_exchanges.mp (mem_exchanges_of_mem_talk he rfl) with
        ⟨dw, -, hdw⟩ | ⟨rw, -, hrw⟩ | hevent
      · simp [DocumentWrite.exchange] at hdw
      · simp only [RecordWrite.exchanges, List.mem_cons, Prod.mk.injEq, reduceCtorEq, false_and,
          Call.upsert.injEq, true_and, and_true, List.not_mem_nil, or_false, false_or] at hrw
        rw [hrw.1]
        show some (Record.documents W.outcome.documentRefs) = _
        simp only [Record.documents, List.isEmpty_iff]
      · simp at hevent
    · intro t row a he
      rcases Writing.mem_exchanges.mp (mem_exchanges_of_mem_talk he rfl) with
        ⟨dw, -, hdw⟩ | ⟨rw, -, hrw⟩ | hevent
      · simp [DocumentWrite.exchange] at hdw
      · simp [RecordWrite.exchanges] at hrw
      · simp only [Prod.mk.injEq, Call.insert.injEq] at hevent
        rw [hevent.1.2]
        exact ⟨rfl, rfl⟩

/-- A synchronisation that does not stop reports what the store took, and two that differ in how one table
fares are the same in all else. -/
theorem reported_and_isolated (c : Config) (d : Disk) (s : Summary) :
    (∀ {σ : Type} (w : World σ) (x : σ), ((session c d s).run w x).1.fault = none →
        Reported c d s (exchanges w (session c d s) x) ((session c d s).run w x).1) ∧
      ∀ {σ τ : Type} {table : String} {w : World σ} {v : World τ} {R : σ → τ → Prop},
        AlikeBut c.sync table w v R → ∀ x y, R x y →
          (Session.calls w (session c d s) x).filterMap (view c.sync table) =
              (Session.calls v (session c d s) y).filterMap (view c.sync table) ∧
            SameBut table ((session c d s).run w x).1 ((session c d s).run v y).1 := by
  constructor
  · intro σ w x hf
    exact (course_session w x c d s).reported hf
  · intro σ τ table w v R h x y hxy
    obtain ⟨hcalls, hsame, -⟩ := parallel_session h d s x y hxy
    exact ⟨hcalls, hsame⟩

/-- A store with the table `notes` that does all it is asked, but for the `refused` calls. -/
def fickleStore (refused : Call → Bool) (time : String) : World Unit where
  answer call _ :=
    if refused call then (.error (.unavailable "refused"), ())
    else (.ok ⟨200, .array [.string "notes"]⟩, ())
  time _ := time

/-- One store takes everything; another one, at another time, nothing that concerns `notes`. -/
theorem reported_and_isolated_notes :
    AlikeBut ({} : Config).sync "notes" (fickleStore (fun _ => false) "today")
        (fickleStore (concerns {} "notes") "tomorrow") (fun _ _ => True) ∧
      ((session {} {} {}).run (fickleStore (fun _ => false) "today") ()).1 =
        { syncedTables := ["notes"] } ∧
      ((session {} {} {}).run (fickleStore (concerns {} "notes") "tomorrow") ()).1 = {} ∧
      (Session.calls (fickleStore (fun _ => false) "today") (session {} {} {}) ()).filterMap
          (view {} "notes") =
        (Session.calls (fickleStore (concerns {} "notes") "tomorrow") (session {} {} {}) ()).filterMap
          (view {} "notes") := by
  -- the stores differ in calls that concern the table only
  have halike : AlikeBut ({} : Config).sync "notes" (fickleStore (fun _ => false) "today")
      (fickleStore (concerns {} "notes") "tomorrow") (fun _ _ => True) := by
    refine ⟨fun {_ _ a b} _ hab ha => ⟨?_, trivial⟩, fun _ => trivial, fun _ _ _ => trivial⟩
    have hb : concerns {} "notes" b = false := (concerns_eq hab).symm.trans ha
    simp [fickleStore, hb]
  have h := (reported_and_isolated {} {} {}).2 halike () () trivial
  exact ⟨halike, by decide +kernel, by decide +kernel, h.1⟩

end Sync

end PayloadAtlas
