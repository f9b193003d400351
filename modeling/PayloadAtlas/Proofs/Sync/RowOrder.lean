import PayloadAtlas.Proofs.Sync.Qualified

/-!
# The order of rows

The first row of a list decides how all of its rows are read, so that another order may name other tables. Which
tables a list names in whatever order depends on the forms of its rows (`tables_perm_iff`): rows of one form are read
alike in any order. Texts beside rows of another form have to be just the names that those give; qualified rows beside
plain ones have to name nothing at all, as a table that is read with its schema has a longer name than without it
(`not_names_of_alike`).

In any order the names are strictly increasing. The empty text is a name only where it is itself a row of a list that
is read as names.
-/

namespace PayloadAtlas.Discovery

open Json (Value)

variable {allowed : List String} {rows rows' : List Value} {row : Value} {form form' : RowForm} {name : String}

/-- Rows give a `name` when they are read in a `form`. -/
def Reads (allowed : List String) (rows : List Value) (form : RowForm) (name : String) : Prop :=
  ∃ row ∈ rows, tableOf? allowed form row = some name

/-- Some row is of a `form`. -/
def Has (rows : List Value) (form : RowForm) : Prop := ∃ row ∈ rows, formOf row = form

/-- Rows give the same names in `form` and `form'`. -/
def Alike (allowed : List String) (rows : List Value) (form form' : RowForm) : Prop :=
  ∀ name, Reads allowed rows form name ↔ Reads allowed rows form' name

/-- A row names a table in an `allowed` schema, with that schema. -/
def NamesQualified (allowed : List String) (row : Value) (name : String) : Prop :=
  ∃ schema table, IsOf row schema table ∧ schema ∈ allowed ∧ name = (Table.mk (some schema) table).toText

/-! ## Reading in each form -/

/-- Read as texts, rows give the texts among them. -/
theorem reads_names_iff : Reads allowed rows .names name ↔ .string name ∈ rows := by
  constructor
  · rintro ⟨row, hrow, hname⟩
    cases row with
    | string s => exact Option.some.inj hname ▸ hrow
    | _ => cases hname
  · exact fun h => ⟨.string name, h, rfl⟩

/-- Read with schemas, rows give what `NamesQualified` says. -/
theorem reads_qualified_iff : Reads allowed rows .qualified name ↔ ∃ row ∈ rows, NamesQualified allowed row name := by
  simp only [Reads, tableOf?_qualified_iff, NamesQualified]

/-- Read without schemas, rows give what `Names` says. -/
theorem reads_objects_iff : Reads allowed rows .objects name ↔ ∃ row ∈ rows, Names row name := Iff.rfl

/-- Once the form is known, the order does not count. -/
theorem Reads.perm (h : rows'.Perm rows) : Reads allowed rows' form name ↔ Reads allowed rows form name := by
  simp only [Reads, h.mem_iff]

/-- The tables are the names that the rows give in the form of the first one, by `formOf`. -/
theorem mem_tables_cons_iff {first : Value} :
    name ∈ tables (first :: rows) allowed ↔ Reads allowed (first :: rows) (formOf first) name := by
  rw [tables, Text.mem_sortedSet, List.mem_filterMap]
  rfl

/-- Lists name the same tables just if they give the same names, each in its own form. -/
theorem tables_eq_iff {first first' : Value} :
    tables (first :: rows) allowed = tables (first' :: rows') allowed ↔
      ∀ name, Reads allowed (first :: rows) (formOf first) name ↔
        Reads allowed (first' :: rows') (formOf first') name := by
  rw [tables, tables, Text.sortedSet_eq_iff]
  simp only [List.mem_filterMap]
  rfl

/-! ## Any order -/

/-- All orders name the same tables if and only if the rows are read `Alike` in all of their forms. -/
theorem tables_perm_iff_alike :
    (∀ rows', rows'.Perm rows → tables rows' allowed = tables rows allowed) ↔
      ∀ form form', Has rows form → Has rows form' → Alike allowed rows form form' := by
  constructor
  · -- a row of each form may come first
    have hread : ∀ {form}, Has rows form → ∃ rows', rows'.Perm rows ∧
        ∀ name, name ∈ tables rows' allowed ↔ Reads allowed rows form name := by
      rintro _ ⟨row, hrow, rfl⟩
      obtain ⟨before, behind, rfl⟩ := List.mem_iff_append.mp hrow
      refine ⟨row :: (before ++ behind), List.perm_middle.symm, fun name => ?_⟩
      rw [mem_tables_cons_iff, Reads.perm List.perm_middle]
    intro h form form' hform hform' name
    obtain ⟨rows₁, hperm₁, hreads₁⟩ := hread hform
    obtain ⟨rows₂, hperm₂, hreads₂⟩ := hread hform'
    rw [← hreads₁, ← hreads₂, h rows₁ hperm₁, h rows₂ hperm₂]
  · intro h rows' hperm
    match rows', rows, hperm with
    | [], rows, hperm => rw [hperm.nil_eq]
    | first' :: rest', [], hperm => exact absurd hperm.eq_nil (List.cons_ne_nil first' rest')
    | first' :: rest', first :: rest, hperm =>
      rw [tables_eq_iff]
      intro name
      rw [Reads.perm hperm]
      exact h _ _ ⟨first', hperm.mem_iff.mp List.mem_cons_self, rfl⟩ ⟨first, List.mem_cons_self, rfl⟩ name

theorem length_lt_of_toText {schema table : String} (hname : name = (Table.mk (some schema) table).toText) :
    table.toList.length < name.toList.length := by
  rw [hname, Table.toList_toText, List.length_append, List.length_cons]
  omega

/-- Rows that give the same names with and without schemas give none: the shortest of the names that can be read with
a schema would have to be that of a shorter one. -/
theorem not_names_of_alike (h : Alike allowed rows .qualified .objects) (hrow : row ∈ rows) : ¬Names row name := by
  have hnone : ∀ name row, row ∈ rows → textAt? "table_name" row ≠ some name := by
    intro name
    -- on the length: a name that is read is that of a table in a schema, and the table's name is read too
    induction hn : name.toList.length using Nat.strongRecOn generalizing name with
    | _ n ih =>
      intro row hrow htext
      have hreads : Reads allowed rows .objects name := ⟨row, hrow, by rw [tableOf?, htext]; rfl⟩
      obtain ⟨row', hrow', schema, table, hof, -, hname⟩ := reads_qualified_iff.mp ((h name).mpr hreads)
      have hlt : table.toList.length < n := hn ▸ length_lt_of_toText hname
      exact ih _ hlt table rfl row' hrow' (textAt?_eq_some_iff.mpr ⟨hof.table_eq, hof.table_ne⟩)
  intro hnames
  obtain ⟨row', hrow', schema, table, hof, -⟩ := reads_qualified_iff.mp ((h name).mpr ⟨row, hrow, hnames⟩)
  exact hnone table row' hrow' (textAt?_eq_some_iff.mpr ⟨hof.table_eq, hof.table_ne⟩)

/-- Rows that name no table without a schema name none with one. -/
theorem alike_of_not_names (h : ∀ row ∈ rows, ∀ name, ¬Names row name) : Alike allowed rows .qualified .objects := by
  intro name
  rw [reads_qualified_iff, reads_objects_iff]
  refine iff_of_false ?_ ?_
  · rintro ⟨row, hrow, schema, table, hof, -⟩
    have htext := textAt?_eq_some_iff.mpr ⟨hof.table_eq, hof.table_ne⟩
    exact h row hrow table (by rw [Names, htext]; rfl)
  · rintro ⟨row, hrow, hname⟩
    exact h row hrow name hname

/-- Reading with and without schemas comes to the same only for rows without names. -/
theorem alike_qualified_objects_iff :
    Alike allowed rows .qualified .objects ↔ ∀ row ∈ rows, ∀ name, ¬Names row name :=
  ⟨fun h _ hrow _ => not_names_of_alike h hrow, alike_of_not_names⟩

theorem Alike.symm (h : Alike allowed rows form form') : Alike allowed rows form' form := fun name => (h name).symm

/-- Three pairs of forms are all that matter. -/
theorem forall_alike_iff :
    (∀ form form', Has rows form → Has rows form' → Alike allowed rows form form') ↔
      (Has rows .names → Has rows .qualified → Alike allowed rows .names .qualified) ∧
      (Has rows .names → Has rows .objects → Alike allowed rows .names .objects) ∧
      (Has rows .qualified → Has rows .objects → Alike allowed rows .qualified .objects) := by
  constructor
  · exact fun h => ⟨h _ _, h _ _, h _ _⟩
  · rintro ⟨hnq, hno, hqo⟩ form form' hform hform'
    cases form <;> cases form'
    case names.names | qualified.qualified | objects.objects => exact fun _ => Iff.rfl
    case names.qualified => exact hnq hform hform'
    case names.objects => exact hno hform hform'
    case qualified.objects => exact hqo hform hform'
    case qualified.names => exact (hnq hform' hform).symm
    case objects.names => exact (hno hform' hform).symm
    case objects.qualified => exact (hqo hform' hform).symm

/-! ## Empty names -/

/-- The empty text is taken for a name just if the list begins with a text and it is one of the texts. -/
theorem empty_mem_tables_iff :
    "" ∈ tables rows allowed ↔ (∃ s, rows.head? = some (.string s)) ∧ .string "" ∈ rows := by
  cases rows with
  | nil => simp [tables]
  | cons first rest =>
    rw [mem_tables_cons_iff]
    -- rows with members are only read where the text is not empty
    rcases formOf_cases first with ⟨hstring, hform⟩ | ⟨hqualified, hform⟩ | ⟨hstring, -, hform⟩
    · rw [hform, reads_names_iff]
      exact (and_iff_right (hstring.imp fun s hs => congrArg some hs)).symm
    · rw [hform, reads_qualified_iff]
      refine iff_of_false ?_ ?_
      · rintro ⟨row, -, schema, table, -, -, hname⟩
        exact absurd (length_lt_of_toText hname) (Nat.not_lt_zero _)
      · rintro ⟨⟨s, hs⟩, -⟩
        cases Option.some.inj hs
        cases hqualified.1
    · rw [hform, reads_objects_iff]
      refine iff_of_false ?_ ?_
      · rintro ⟨row, -, hname⟩
        rcases Option.or_eq_some_iff.mp hname with h | ⟨-, h⟩
        · exact (textAt?_eq_some_iff.mp h).2 rfl
        · exact (textAt?_eq_some_iff.mp h).2 rfl
      · rintro ⟨⟨s, hs⟩, -⟩
        exact hstring s (Option.some.inj hs)

/-! ## The tables of a list in any order -/

/-- A list names the same tables in any order if and only if any texts are just the names that its other rows give in
each of their forms, and qualified rows stand beside plain ones only where no row names a table. The names are strictly
increasing, and the empty text is one if and only if it is a row of a list that begins with a text. -/
theorem tables_perm_iff (rows : List Value) (allowed : List String) :
    ((∀ rows', rows'.Perm rows → tables rows' allowed = tables rows allowed) ↔
      (Has rows .names → Has rows .qualified →
        ∀ name, .string name ∈ rows ↔ ∃ row ∈ rows, NamesQualified allowed row name) ∧
      (Has rows .names → Has rows .objects → ∀ name, .string name ∈ rows ↔ ∃ row ∈ rows, Names row name) ∧
      (Has rows .qualified → Has rows .objects → ∀ row ∈ rows, ∀ name, ¬Names row name)) ∧
    (tables rows allowed).Pairwise (· < ·) ∧
    ("" ∈ tables rows allowed ↔ (∃ s, rows.head? = some (.string s)) ∧ .string "" ∈ rows) := by
  refine ⟨?_, Sync.pairwise_tables rows allowed, empty_mem_tables_iff⟩
  rw [tables_perm_iff_alike, forall_alike_iff, alike_qualified_objects_iff]
  simp only [Alike, reads_names_iff, reads_qualified_iff, reads_objects_iff]

/-- Two orders of two rows name different tables, and an empty text is taken for a name. -/
theorem tables_ne_of_perm :
    let qualified := Value.object [("schema_name", .string "public"), ("table_name", .string "notes")]
    let plain := Value.string "users"
    [plain, qualified].Perm [qualified, plain] ∧
      tables [qualified, plain] ["public"] = ["public.notes"] ∧ tables [plain, qualified] ["public"] = ["users"] ∧
      "" ∈ tables [.string "", plain] ["public"] := by
  intro qualified plain
  refine ⟨.swap _ _ _, Text.sortedSet_of_pairwise (by decide), Text.sortedSet_of_pairwise (by decide), ?_⟩
  exact empty_mem_tables_iff.mpr ⟨⟨"", rfl⟩, List.mem_cons_self⟩

end PayloadAtlas.Discovery
