import PayloadAtlas.Proofs.Text.Order
import PayloadAtlas.Sync.Discovery

/-!
# Which rows name the tables

The tables of a list are those that its rows give it (`mem_tables_iff`). What a row gives depends on the form
of the first row. Lists that begin with a text or with a qualified row take no table from a row of another
schema than those that are allowed (`not_excluded_of_gives`). A list that begins with anything else does not
look at schemas, so that it keeps to those that are allowed just when each table that an excluded row names is
named by another row as well (`keeps_to_allowed_iff`).
-/

namespace PayloadAtlas.Discovery

open Json (Value)

variable {allowed : List String} {rows : List Value} {row first : Value} {key table : String}

/-- A row of the list `rows` gives it a table, as the form of its first row has it read. -/
def Gives (allowed : List String) (rows : List Value) (row : Value) (table : String) : Prop :=
  row ∈ rows ∧ ∃ first ∈ rows.head?, tableOf? allowed (formOf first) row = some table

/-- A row is of a schema that is not `allowed`. -/
def Excluded (allowed : List String) (row : Value) : Prop :=
  ∃ schema, row.get? "schema_name" = some (.string schema) ∧ schema ∉ allowed

/-- A row has a `table_name` and a `schema_name`, whatever these are. -/
def IsQualified (row : Value) : Prop := (row.get? "table_name").isSome ∧ (row.get? "schema_name").isSome

/-- A row names a table without its schema, by `table_name` or by `tablename`. -/
def Names (row : Value) (table : String) : Prop :=
  (textAt? "table_name" row).or (textAt? "tablename" row) = some table

/-- The tables of a list are those that `Gives` says. -/
theorem mem_tables_iff : table ∈ tables rows allowed ↔ ∃ row, Gives allowed rows row table := by
  cases rows with
  | nil => simp [tables, Gives]
  | cons first rest =>
    rw [tables, Text.mem_sortedSet, List.mem_filterMap]
    simp [Gives]

/-! ## Forms -/

/-- The test of `formOf` is `IsQualified`. -/
theorem isQualified_iff :
    IsQualified row ↔ ((row.get? "table_name").isSome && (row.get? "schema_name").isSome) = true := by
  rw [IsQualified, Bool.and_eq_true]

theorem formOf_of_ne_string (h : ∀ s, first ≠ .string s) :
    formOf first = if (first.get? "table_name").isSome && (first.get? "schema_name").isSome
      then .qualified else .objects := by
  cases first with
  | string s => exact absurd rfl (h s)
  | _ => rfl

/-- The three forms of a list, by what its first row is. -/
theorem formOf_cases (first : Value) :
    (∃ s, first = .string s) ∧ formOf first = .names ∨ IsQualified first ∧ formOf first = .qualified ∨
      (∀ s, first ≠ .string s) ∧ ¬IsQualified first ∧ formOf first = .objects := by
  by_cases hstring : ∃ s, first = .string s
  · obtain ⟨s, rfl⟩ := hstring
    exact .inl ⟨⟨s, rfl⟩, rfl⟩
  · have hne : ∀ s, first ≠ .string s := fun s hs => hstring ⟨s, hs⟩
    refine .inr ?_
    rw [formOf_of_ne_string hne]
    by_cases hqualified : IsQualified first
    · exact .inl ⟨hqualified, if_pos (isQualified_iff.mp hqualified)⟩
    · exact .inr ⟨hne, hqualified, if_neg (mt isQualified_iff.mpr hqualified)⟩

/-- A text is not `Excluded`: it has no members. -/
theorem not_excluded_of_names (h : tableOf? allowed .names row = some table) : ¬Excluded allowed row := by
  rintro ⟨schema, hschema, -⟩
  cases row with
  | string s => simp [Value.get?] at hschema
  | _ => simp [tableOf?, Value.string?] at h

/-- A qualified row is read only if its schema is `allowed`. -/
theorem not_excluded_of_qualified (h : tableOf? allowed .qualified row = some table) :
    ¬Excluded allowed row := by
  rintro ⟨schema, hschema, hnot⟩
  simp only [tableOf?, hschema, Option.bind_some, Value.string?, Option.getD_some, if_neg hnot] at h
  simp at h

/-- In a list of texts or of qualified rows no row that is `Excluded` gives a table. -/
theorem not_excluded_of_gives (hfirst : first ∈ rows.head?) (h : (∃ s, first = .string s) ∨ IsQualified first)
    (hgives : Gives allowed rows row table) : ¬Excluded allowed row := by
  obtain ⟨-, first', hfirst', htable⟩ := hgives
  obtain rfl : first = first' := Option.mem_unique hfirst hfirst'
  rcases formOf_cases first with ⟨-, hform⟩ | ⟨-, hform⟩ | ⟨hstring, hqualified, -⟩
  · rw [hform] at htable
    exact not_excluded_of_names htable
  · rw [hform] at htable
    exact not_excluded_of_qualified htable
  · rcases h with ⟨s, hs⟩ | h
    · exact absurd hs (hstring s)
    · exact absurd h hqualified

/-- In a list of the third form the schema of a row does not count. -/
theorem gives_iff_of_objects (hfirst : first ∈ rows.head?) (hform : formOf first = .objects) :
    Gives allowed rows row table ↔ row ∈ rows ∧ Names row table := by
  refine and_congr_right fun _ => ?_
  constructor
  · rintro ⟨first', hfirst', htable⟩
    rw [← Option.mem_unique hfirst hfirst', hform] at htable
    exact htable
  · intro hnames
    refine ⟨first, hfirst, ?_⟩
    rw [hform]
    exact hnames

/-! ## Allowed schemas -/

/-- Each table of a list comes from a row that is not `Excluded`, if and only if the list begins with a text or with a
qualified row, or other rows name all that the excluded ones do. -/
theorem keeps_to_allowed_iff (rows : List Value) (allowed : List String) :
    (∀ table ∈ tables rows allowed, ∃ row, Gives allowed rows row table ∧ ¬Excluded allowed row) ↔
      (∃ first ∈ rows.head?, (∃ s, first = .string s) ∨ IsQualified first) ∨
        ∀ row ∈ rows, Excluded allowed row → ∀ table, Names row table →
          ∃ row' ∈ rows, Names row' table ∧ ¬Excluded allowed row' := by
  simp only [mem_tables_iff]
  cases hhead : rows.head? with
  | none =>
    obtain rfl := List.head?_eq_none_iff.mp hhead
    simp [Gives]
  | some first =>
    have hfirst : first ∈ rows.head? := hhead
    -- by the form of the list: only in the third one an excluded row is read
    rcases formOf_cases first with ⟨hstring, -⟩ | ⟨hqualified, -⟩ | ⟨hstring, hqualified, hform⟩
    · refine iff_of_true ?_ (.inl ⟨first, rfl, .inl hstring⟩)
      rintro table ⟨row, hrow⟩
      exact ⟨row, hrow, not_excluded_of_gives hfirst (.inl hstring) hrow⟩
    · refine iff_of_true ?_ (.inl ⟨first, rfl, .inr hqualified⟩)
      rintro table ⟨row, hrow⟩
      exact ⟨row, hrow, not_excluded_of_gives hfirst (.inr hqualified) hrow⟩
    · have hother : ¬∃ first' ∈ some first, (∃ s, first' = .string s) ∨ IsQualified first' := by
        rintro ⟨_, ⟨⟩, ⟨s, hs⟩ | h⟩
        · exact hstring s hs
        · exact hqualified h
      simp only [gives_iff_of_objects hfirst hform, or_iff_right hother]
      constructor
      · intro h row hrow _ table htable
        obtain ⟨row', ⟨hrow', hnames⟩, hallowed⟩ := h table ⟨row, hrow, htable⟩
        exact ⟨row', hrow', hnames, hallowed⟩
      · rintro h table ⟨row, hrow, htable⟩
        by_cases hexcluded : Excluded allowed row
        · obtain ⟨row', hrow', hnames, hallowed⟩ := h row hrow hexcluded table htable
          exact ⟨row', ⟨hrow', hnames⟩, hallowed⟩
        · exact ⟨row, ⟨hrow, htable⟩, hexcluded⟩

/-- A table of a schema that is not allowed is taken if the first row has no schema. -/
theorem not_keeps_to_allowed_unqualified :
    let rows := [Value.object [("tablename", .string "notes")],
      Value.object [("schema_name", .string "auth"), ("table_name", .string "users")]]
    "users" ∈ tables rows ["public"] ∧
      ∀ row, Gives ["public"] rows row "users" → Excluded ["public"] row := by
  intro rows
  constructor
  · exact mem_tables_iff.mpr ⟨rows[1], List.getElem_mem _, rows[0], rfl, rfl⟩
  · rintro row ⟨hrow, _, ⟨⟩, htable⟩
    rcases List.mem_pair.mp hrow with rfl | rfl
    · exact absurd htable (by decide)
    · exact ⟨"auth", rfl, by decide⟩

end PayloadAtlas.Discovery
