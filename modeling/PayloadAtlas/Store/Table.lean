/-!
# Tables of a store

A table is named by itself or with the schema that it is in. `Table.ofString` cuts a text at its first
dot; `toText` writes a table as such a text, and gives back the text that was cut (`toText_ofString`).
-/

namespace PayloadAtlas

/-- A table, perhaps with its schema. -/
structure Table where
  schema : Option String
  name : String
  deriving DecidableEq, Repr, Inhabited

namespace Table

/-- The schema `public` of tables that are named by themselves. -/
def defaultSchema : String := "public"

/-- The texts before and after the first `.`, if there is one. -/
def cutAtDot : List Char → Option (List Char × List Char)
  | [] => none
  | c :: rest =>
    if c = '.' then some ([], rest) else (cutAtDot rest).map fun (a, b) => (c :: a, b)

/-- The table that a text names: `schema.name`, or the name alone. -/
def ofString (s : String) : Table :=
  match cutAtDot s.toList with
  | some (schema, name) => ⟨some (String.ofList schema), String.ofList name⟩
  | none => ⟨none, s⟩

/-- A table as a text: `schema.name`, or the name alone. -/
def toText (t : Table) : String :=
  match t.schema with
  | some schema => schema ++ "." ++ t.name
  | none => t.name

/-- The schema that a table is in, `defaultSchema` if it has none. -/
def schemaOrDefault (t : Table) : String := t.schema.getD defaultSchema

/-- Put together again with the dot, the parts that `cutAtDot` gives are the text that was cut. -/
theorem eq_of_cutAtDot {cs a b : List Char} (h : cutAtDot cs = some (a, b)) : cs = a ++ '.' :: b := by
  induction cs generalizing a with
  | nil => simp [cutAtDot] at h
  | cons c rest ih =>
    rw [cutAtDot] at h
    split at h
    · next hc =>
      obtain ⟨rfl, rfl⟩ := Prod.mk.inj (Option.some.inj h)
      rw [hc, List.nil_append]
    · obtain ⟨⟨a', b'⟩, hcut, heq⟩ := Option.map_eq_some_iff.mp h
      obtain ⟨rfl, rfl⟩ := Prod.mk.inj heq
      rw [List.cons_append, ← ih hcut]

/-- Writing the table that `s` names gives `s` back. -/
theorem toText_ofString (s : String) : (ofString s).toText = s := by
  rw [ofString]
  split
  · next a b hcut =>
    apply String.toList_inj.mp
    simp [toText, eq_of_cutAtDot hcut]
  · rfl

/-- Different texts name different tables, which follows from `toText_ofString`. -/
theorem ofString_inj {s t : String} : ofString s = ofString t ↔ s = t := by
  refine ⟨fun h => ?_, fun h => by rw [h]⟩
  rw [← toText_ofString s, h, toText_ofString]

end Table

end PayloadAtlas
