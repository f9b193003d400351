import PayloadAtlas.Proofs.Store.Conversation
import PayloadAtlas.Proofs.Text.Order
import PayloadAtlas.Sync.Stages

/-!
# The course of a synchronisation

Whatever a store answers, a synchronisation takes one of four courses (`Course`): there is no store, no helper
names tables, the registry cannot be read, or all is written. The calls of a course are given in full. Those
of the last part are a `Writing`: one call for each document, two for each table, and one for the event, each
with what the store answered, so that what was written can be read off (`Writing.outcome`).

Each stage has one lemma that says what it asks and what it comes to, in any world and from any state; the
course of the whole is put together from these (`course_sessionWith`).
-/

namespace PayloadAtlas

/-- Whether a call writes something: `upsert` and `insert` do. -/
def Call.isWrite : Call → Bool
  | .upsert .. | .insert .. => true
  | .rpc _ | .select .. => false

namespace Sync

open Session (World Exchange exchanges)

variable {σ : Type} (w : World σ) (x : σ)

/-! ## Answers -/

/-- The store did what it was asked: it answered, with a status below 400. -/
def Accepted (a : Answer) : Prop := ∃ r, a = .ok r ∧ r.status < 400

/-- An answer names `tables`, at least one. -/
def Names (allowed : List String) (a : Answer) (tables : List String) : Prop :=
  tables ≠ [] ∧ ∃ r, a = .ok r ∧ r.status < 400 ∧ Discovery.tables r.rows allowed = tables

/-- A `success?` is an answer whose status is below 400. -/
theorem success?_eq_some_iff {a : Answer} {r : Response} :
    a.success? = some r ↔ a = .ok r ∧ r.status < 400 := by
  cases a with
  | error e => simp [Answer.success?]
  | ok r' =>
    simp only [Answer.success?, Response.isSuccess, decide_eq_true_eq, Option.ite_none_right_eq_some,
      Option.some.injEq, Except.ok.injEq]
    constructor
    · rintro ⟨h, rfl⟩
      exact ⟨rfl, h⟩
    · rintro ⟨rfl, h⟩
      exact ⟨h, rfl⟩

/-- `Accepted` is what `succeeded` decides. -/
theorem accepted_iff {a : Answer} : Accepted a ↔ a.succeeded = true := by
  rw [Answer.succeeded, Option.isSome_iff_exists]
  simp only [success?_eq_some_iff, Accepted]

/-- `Names` is what `tablesOf` reads, if it reads anything. -/
theorem names_iff {allowed : List String} {a : Answer} {tables : List String} :
    Names allowed a tables ↔ tables ≠ [] ∧ tablesOf allowed a = tables := by
  refine and_congr_right fun hne => ?_
  unfold tablesOf
  cases h : a.success? with
  | none =>
    constructor
    · rintro ⟨r, hok, hstatus, -⟩
      rw [success?_eq_some_iff.mpr ⟨hok, hstatus⟩] at h
      exact absurd h (Option.some_ne_none r)
    · intro h
      exact absurd h.symm hne
  | some r =>
    obtain ⟨rfl, hstatus⟩ := success?_eq_some_iff.mp h
    constructor
    · rintro ⟨r', hok, -, htables⟩
      rw [Except.ok.inj hok]
      exact htables
    · intro htables
      exact ⟨r, rfl, hstatus, htables⟩

/-- The tables of rows are named in strictly increasing order of `<`, so that none comes twice. -/
theorem pairwise_tables (rows : List Json.Value) (allowed : List String) :
    (Discovery.tables rows allowed).Pairwise (· < ·) := by
  unfold Discovery.tables
  cases rows with
  | nil => exact List.Pairwise.nil
  | cons first rest => exact Text.pairwise_sortedSet _

theorem Names.pairwise {allowed : List String} {a : Answer} {tables : List String}
    (h : Names allowed a tables) : tables.Pairwise (· < ·) := by
  obtain ⟨-, r, -, -, rfl⟩ := h
  exact pairwise_tables r.rows allowed

/-! ## The search for tables -/

/-- A helper that is asked, as a call of `rpc`, and its answer. -/
def question (e : String × Answer) : Exchange := (.rpc e.1, e.2)

/-- All `helpers` are asked, and none names tables. -/
structure NotFound (allowed helpers : List String) (asked : List (String × Answer)) : Prop where
  all : asked.map Prod.fst = helpers
  none_names : ∀ e ∈ asked, ∀ tables, ¬Names allowed e.2 tables

/-- The first `helpers` are asked, up to the first one that names `tables`. -/
structure Found (allowed helpers : List String) (asked : List (String × Answer))
    (tables : List String) : Prop where
  first : asked.map Prod.fst <+: helpers
  last : ∃ earlier e, asked = earlier ++ [e] ∧ Names allowed e.2 tables ∧
    ∀ e' ∈ earlier, ∀ tables', ¬Names allowed e'.2 tables'

/-- A helper before the others that names nothing is one more of `NotFound`. -/
theorem NotFound.cons {allowed helpers : List String} {asked : List (String × Answer)}
    {helper : String} {a : Answer} (h : NotFound allowed helpers asked)
    (ha : ∀ tables, ¬Names allowed a tables) :
    NotFound allowed (helper :: helpers) ((helper, a) :: asked) := by
  refine ⟨by rw [List.map_cons, h.all], ?_⟩
  intro e he
  rcases List.mem_cons.mp he with rfl | he
  · exact ha
  · exact h.none_names e he

/-- A helper before the others that names nothing is asked as well. -/
theorem Found.cons {allowed helpers : List String} {asked : List (String × Answer)}
    {tables : List String} {helper : String} {a : Answer} (h : Found allowed helpers asked tables)
    (ha : ∀ tables, ¬Names allowed a tables) :
    Found allowed (helper :: helpers) ((helper, a) :: asked) tables := by
  obtain ⟨earlier, e, rfl, he, hearlier⟩ := h.last
  refine ⟨?_, (helper, a) :: earlier, e, rfl, he, ?_⟩
  · rw [List.map_cons]
    exact List.cons_prefix_cons.mpr ⟨rfl, h.first⟩
  · intro e' he'
    rcases List.mem_cons.mp he' with rfl | he'
    · exact ha
    · exact hearlier e' he'

/-- The search `discover` asks one helper after the other, and ends with the first that names tables. -/
theorem exchanges_discover (allowed helpers : List String) :
    ∃ asked, exchanges w (discover allowed helpers) x = asked.map question ∧
      (((discover allowed helpers).run w x).1 = [] ∧ NotFound allowed helpers asked ∨
        Found allowed helpers asked ((discover allowed helpers).run w x).1) := by
  -- on the helpers: the world goes on to the next one as the first answer has left it
  induction helpers generalizing x with
  | nil => exact ⟨[], rfl, Or.inl ⟨rfl, rfl, by simp⟩⟩
  | cons helper rest ih =>
    simp only [discover, Session.exchanges_bind, Session.exchanges_call, Session.run_bind,
      Session.run_call, List.singleton_append]
    split
    · next htables =>
      have hno : ∀ tables, ¬Names allowed (w.answer (.rpc helper) x).1 tables := by
        intro tables hnames
        obtain ⟨hne, heq⟩ := names_iff.mp hnames
        exact hne (heq.symm.trans htables)
      obtain ⟨asked, hasked, hcourse⟩ := ih (w.answer (.rpc helper) x).2
      refine ⟨(helper, (w.answer (.rpc helper) x).1) :: asked, by rw [hasked]; rfl, ?_⟩
      rcases hcourse with ⟨hnil, hnot⟩ | hfound
      · exact Or.inl ⟨hnil, hnot.cons hno⟩
      · exact Or.inr (hfound.cons hno)
    · next hne =>
      refine ⟨[(helper, (w.answer (.rpc helper) x).1)], rfl, Or.inr ⟨?_, [], _, rfl, ?_, by simp⟩⟩
      · exact List.cons_prefix_cons.mpr ⟨rfl, List.nil_prefix⟩
      · exact names_iff.mpr ⟨hne, rfl⟩

/-! ## What is written -/

/-- A document that is written, and the answer. -/
structure DocumentWrite where
  document : Document
  answer : Answer

/-- A table whose columns are sampled and whose record is written, with the answers and the time between. -/
structure RecordWrite where
  table : String
  sample : Answer
  time : String
  answer : Answer

/-- The call of `upsert` and its answer. -/
def DocumentWrite.exchange (t : Table) (dw : DocumentWrite) : Exchange :=
  (.upsert t dw.document.toJson "name", dw.answer)

/-- The record of the table, with the columns that its `sample` has. -/
def RecordWrite.record (s : Summary) (refs : List String) (rw : RecordWrite) : Json.Value :=
  Record.ofTable s rw.table (columnsOf rw.sample) refs rw.time

/-- The two calls, `select` and then `upsert`, and their answers. -/
def RecordWrite.exchanges (c : SyncConfig) (s : Summary) (refs : List String) (rw : RecordWrite) :
    List Exchange :=
  [(.select (Table.ofString rw.table) "*" 1, rw.sample),
    (.upsert (registryTable c) (rw.record s refs) "table_name", rw.answer)]

/-- The names of the documents whose writing `succeeded`. -/
def acceptedDocuments (dws : List DocumentWrite) : List String :=
  (dws.filter (·.answer.succeeded)).map (·.document.name)

/-- The tables the writing of whose record `succeeded`. -/
def acceptedTables (rws : List RecordWrite) : List String :=
  (rws.filter (·.answer.succeeded)).map (·.table)

/-- All that is written in a synchronisation, and what the store answers. -/
structure Writing where
  documents : List DocumentWrite
  records : List RecordWrite
  eventTime : String
  eventAnswer : Answer

namespace Writing

/-- What comes of it, without a `fault`. -/
def outcome (W : Writing) : SyncOutcome :=
  { syncedTables := acceptedTables W.records, documentRefs := acceptedDocuments W.documents }

/-- The record of the synchronisation itself. -/
def event (c : SyncConfig) (s : Summary) (W : Writing) : Json.Value :=
  Record.ofEvent s c.eventType W.outcome.syncedTables W.outcome.documentRefs W.eventTime

/-- The calls and their answers, in order: documents, records and then the event. -/
def exchanges (c : SyncConfig) (s : Summary) (W : Writing) : List Exchange :=
  W.documents.map (·.exchange (documentsTable c)) ++
    (W.records.flatMap (·.exchanges c s W.outcome.documentRefs) ++
      [(.insert (eventsTable c) (W.event c s), W.eventAnswer)])

end Writing

/-- The documents are written in order, each by one call, and `acceptedDocuments` are reported. -/
theorem exchanges_writeDocuments (t : Table) (docs : List Document) :
    ∃ dws : List DocumentWrite, dws.map (·.document) = docs ∧
      exchanges w (writeDocuments t docs) x = dws.map (·.exchange t) ∧
      ((writeDocuments t docs).run w x).1 = acceptedDocuments dws := by
  induction docs generalizing x with
  | nil => exact ⟨[], rfl, rfl, rfl⟩
  | cons doc rest ih =>
    obtain ⟨dws, hdocs, hexchanges, hnames⟩ := ih (w.answer (.upsert t doc.toJson "name") x).2
    refine ⟨⟨doc, (w.answer (.upsert t doc.toJson "name") x).1⟩ :: dws, ?_, ?_, ?_⟩
    · rw [List.map_cons, hdocs]
    · simp only [writeDocuments, Session.exchanges_bind, Session.exchanges_call, Session.run_call,
        Session.exchanges_pure, List.append_nil, List.singleton_append, List.map_cons, hexchanges]
      rfl
    · simp only [writeDocuments, Session.run_bind, Session.run_call, Session.run_pure, hnames,
        acceptedDocuments, List.filter_cons]
      split <;> rfl

/-- The tables are sampled and written in order, and `acceptedTables` are reported. -/
theorem exchanges_writeTables (c : SyncConfig) (s : Summary) (refs tables : List String) :
    ∃ rws : List RecordWrite, rws.map (·.table) = tables ∧
      exchanges w (writeTables c s refs tables) x = rws.flatMap (·.exchanges c s refs) ∧
      ((writeTables c s refs tables).run w x).1 = acceptedTables rws := by
  induction tables generalizing x with
  | nil => exact ⟨[], rfl, rfl, rfl⟩
  | cons table rest ih =>
    obtain ⟨rws, htables, hexchanges, hnames⟩ := ih ((writeTable c s refs table).run w x).2
    -- the first table, with the world as each of its two answers leaves it
    let sampled := w.answer (.select (Table.ofString table) "*" 1) x
    let record := Record.ofTable s table (columnsOf sampled.1) refs (w.time sampled.2)
    let written := w.answer (.upsert (registryTable c) record "table_name") sampled.2
    refine ⟨⟨table, sampled.1, w.time sampled.2, written.1⟩ :: rws, ?_, ?_, ?_⟩
    · rw [List.map_cons, htables]
    · rw [List.flatMap_cons, ← hexchanges]
      simp only [writeTables, Session.exchanges_bind, Session.exchanges_pure, List.append_nil]
      rfl
    · simp only [writeTables, Session.run_bind, Session.run_pure, hnames, acceptedTables,
        List.filter_cons]
      show (if written.1.succeeded then _ else _) = _
      split <;> rfl

/-- The last part of a synchronisation is a `Writing` of the collected documents and the tables. -/
theorem exchanges_write (c : Config) (d : Disk) (s : Summary) (tables : List String) :
    ∃ (W : Writing) (generatedAt : String),
      W.documents.map (·.document) = Document.collect c d s.timestamp generatedAt ∧
        W.records.map (·.table) = tables ∧
        exchanges w (write c d s tables) x = W.exchanges c.sync s ∧
        ((write c d s tables).run w x).1 = W.outcome := by
  let docs := Document.collect c d s.timestamp (w.time x)
  obtain ⟨dws, hdocs, hdocExchanges, hrefs⟩ :=
    exchanges_writeDocuments w x (documentsTable c.sync) docs
  let x' := ((writeDocuments (documentsTable c.sync) docs).run w x).2
  obtain ⟨rws, htables, htableExchanges, hsynced⟩ :=
    exchanges_writeTables w x' c.sync s (acceptedDocuments dws) tables
  -- each part starts in the world that the part before has left
  let x'' := ((writeTables c.sync s (acceptedDocuments dws) tables).run w x').2
  let event := Record.ofEvent s c.sync.eventType (acceptedTables rws) (acceptedDocuments dws) (w.time x'')
  refine ⟨⟨dws, rws, w.time x'', (w.answer (.insert (eventsTable c.sync) event) x'').1⟩, w.time x,
    hdocs, htables, ?_, ?_⟩
  · simp only [write, Session.exchanges_bind, Session.exchanges_now, Session.run_now,
      Session.exchanges_call, Session.exchanges_pure, List.nil_append, List.append_nil,
      hdocExchanges, hrefs, htableExchanges, hsynced, docs, x']
    rfl
  · simp only [write, Session.run_bind, Session.run_now, Session.run_pure, hrefs, hsynced, docs, x']
    rfl

/-! ## The courses -/

/-- The call of `select` that tells whether the registry is there. -/
def probeCall (c : SyncConfig) : Call := .select (registryTable c) "table_name" 1

/-- What a synchronisation asks and is answered, and what it comes to. The truth value `client` says whether there is
a store. -/
inductive Course (c : Config) (d : Disk) (s : Summary) : Bool → List Exchange → SyncOutcome → Prop
  /-- Without a store nothing is asked. -/
  | clientMissing : Course c d s false [] (.stopped .clientMissing)
  /-- No helper names tables. -/
  | noTables {asked : List (String × Answer)} :
      NotFound c.sync.allowedSchemas c.sync.discoveryHelpers asked →
      Course c d s true (asked.map question) (.stopped .noTables)
  /-- There are tables, and the registry cannot be read. -/
  | registryMissing {asked : List (String × Answer)} {tables : List String} {probe : Answer} :
      Found c.sync.allowedSchemas c.sync.discoveryHelpers asked tables → ¬Accepted probe →
      Course c d s true (asked.map question ++ [(probeCall c.sync, probe)])
        (.stopped .registryMissing)
  /-- All is written: the collected documents, and the tables in strictly increasing order. -/
  | finished {asked : List (String × Answer)} {tables : List String} {probe : Answer} {W : Writing}
      {generatedAt : String} :
      Found c.sync.allowedSchemas c.sync.discoveryHelpers asked tables → Accepted probe →
      tables.Pairwise (· < ·) →
      W.documents.map (·.document) = Document.collect c d s.timestamp generatedAt →
      W.records.map (·.table) = tables →
      Course c d s true (asked.map question ++ (probeCall c.sync, probe) :: W.exchanges c.sync s)
        W.outcome

/-- A helper is asked by `rpc`, which writes nothing. -/
theorem question_isWrite (e : String × Answer) : (question e).1.isWrite = false := rfl

/-- A synchronisation with a store takes one of the courses of `Course`. -/
theorem course_session (c : Config) (d : Disk) (s : Summary) :
    Course c d s true (exchanges w (session c d s) x) ((session c d s).run w x).1 := by
  obtain ⟨asked, hasked, hcourse⟩ :=
    exchanges_discover w x c.sync.allowedSchemas c.sync.discoveryHelpers
  simp only [session, Session.exchanges_bind, Session.run_bind, hasked]
  generalize hrun : (discover c.sync.allowedSchemas c.sync.discoveryHelpers).run w x = found at hcourse ⊢
  obtain ⟨tables, x'⟩ := found
  rcases hcourse with ⟨rfl, hnot⟩ | hfound
  · simp only [Session.exchanges_pure, List.append_nil, Session.run_pure]
    exact .noTables hnot
  · obtain ⟨-, e, -, hnames, -⟩ := hfound.last
    -- what follows depends on there being a first table only
    match tables, hfound, hnames with
    | [], _, hnames => exact absurd rfl hnames.1
    | first :: rest, hfound, hnames =>
      simp only [probe, Session.exchanges_bind, Session.run_bind, Session.exchanges_call,
        Session.run_call, Session.exchanges_pure, Session.run_pure, List.append_nil,
        List.singleton_append]
      by_cases hprobe : (w.answer (probeCall c.sync) x').1.succeeded = true
      · obtain ⟨W, generatedAt, hdocs, htables, hwrite, houtcome⟩ :=
          exchanges_write w (w.answer (probeCall c.sync) x').2 c d s (first :: rest)
        rw [probeCall] at hprobe hwrite houtcome
        rw [if_pos hprobe, hwrite, houtcome]
        exact .finished hfound (accepted_iff.mpr hprobe) hnames.pairwise hdocs htables
      · rw [probeCall] at hprobe
        rw [if_neg hprobe]
        exact .registryMissing hfound (fun h => hprobe (accepted_iff.mp h))

/-- A course that ends with a `fault` has written nothing. -/
theorem Course.of_fault {c : Config} {d : Disk} {s : Summary} {client : Bool} {talk : List Exchange}
    {o : SyncOutcome} (h : Course c d s client talk o) {f : SyncFault} (hf : o.fault = some f) :
    (∀ e ∈ talk, e.1.isWrite = false) ∧ o.syncedTables = [] ∧ o.documentRefs = [] := by
  have hasked : ∀ asked : List (String × Answer), ∀ e ∈ asked.map question, e.1.isWrite = false := by
    intro asked e he
    obtain ⟨e', -, rfl⟩ := List.mem_map.mp he
    exact question_isWrite e'
  -- one course after the other: only the last one writes, and it has no fault
  cases h with
  | clientMissing => exact ⟨by simp, rfl, rfl⟩
  | noTables _ => exact ⟨hasked _, rfl, rfl⟩
  | registryMissing _ _ =>
    refine ⟨?_, rfl, rfl⟩
    intro e he
    rcases List.mem_append.mp he with he | he
    · exact hasked _ e he
    · rw [List.mem_singleton.mp he]
      rfl
  | finished _ _ _ _ _ => exact absurd hf (by simp [Writing.outcome])

/-- A synchronisation takes one of the courses, and one that ends with a `fault` has written nothing. -/
theorem course_sessionWith {κ : Type} (client : Option κ) (c : Config) (d : Disk) (s : Summary) :
    Course c d s client.isSome (exchanges w (sessionWith client c d s) x)
        ((sessionWith client c d s).run w x).1 ∧
      ∀ f, ((sessionWith client c d s).run w x).1.fault = some f →
        (∀ call ∈ Session.calls w (sessionWith client c d s) x, call.isWrite = false) ∧
          ((sessionWith client c d s).run w x).1.syncedTables = [] ∧
          ((sessionWith client c d s).run w x).1.documentRefs = [] := by
  have hcourse : Course c d s client.isSome (exchanges w (sessionWith client c d s) x)
      ((sessionWith client c d s).run w x).1 := by
    cases client with
    | none => exact .clientMissing
    | some _ => exact course_session w x c d s
  -- the calls are the first halves of the exchanges, of which the course tells
  refine ⟨hcourse, fun f hf => ?_⟩
  obtain ⟨hwrites, htables, hdocs⟩ := hcourse.of_fault hf
  refine ⟨?_, htables, hdocs⟩
  intro call hcall
  rw [← Session.map_fst_exchanges] at hcall
  obtain ⟨e, he, rfl⟩ := List.mem_map.mp hcall
  exact hwrites e he

end Sync

end PayloadAtlas
