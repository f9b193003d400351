import Mathlib.Data.List.Basic
import PayloadAtlas.Sync.Document
import PayloadAtlas.Sync.Record

/-!
# Rows without their times

Two synchronisations at different times write rows that differ in the times. `Value.blankAt` blanks the value
at the end of a way of keys and leaves all else as it is: the keys and their order (`keys_blankAt`) and the
values of other keys (`get?_blankAt_of_ne`). With the time blanked, a record and a document no longer depend
on when they were written (`timeless_ofTable`, `collect_dated`, `timeless_dated`).
-/

namespace PayloadAtlas

open Json (Value)

namespace Json.Value

/-- Puts `null` at what is found by going from key to key. -/
def blankAt : List String → Value → Value
  | [], _ => .null
  | key :: way, .object ms =>
    .object (ms.map fun m => if m.1 = key then (m.1, blankAt way m.2) else m)
  | _ :: _, v => v

/-- The keys of an object, in order. -/
def keys : Value → List String
  | .object ms => ms.map Prod.fst
  | _ => []

variable {key other : String} {way : List String}

/-- What is blanked keeps its key. -/
theorem keys_blankAt (v : Value) : (v.blankAt (key :: way)).keys = v.keys := by
  cases v with
  | object ms =>
    simp only [blankAt, keys, List.map_map]
    refine List.map_congr_left fun m _ => ?_
    by_cases hm : m.1 = key
    · simp [hm]
    · simp [hm]
  | _ => rfl

/-- Members under other keys stay. -/
theorem get?_blankAt_of_ne (h : other ≠ key) (v : Value) :
    (v.blankAt (key :: way)).get? other = v.get? other := by
  cases v with
  | object ms =>
    simp only [blankAt, get?]
    induction ms with
    | nil => rfl
    | cons m rest ih =>
      obtain ⟨k, x⟩ := m
      by_cases hk : k = key
      · have hok : (other == k) = false := by simpa [hk] using h
        simp only [List.map_cons, hk, if_true, List.lookup_cons, hk ▸ hok, ih]
      · simp only [List.map_cons, hk, if_false, List.lookup_cons, ih]
  | _ => rfl

/-- Blanking at one key does not meddle with blanking at another. -/
theorem blankAt_comm (h : other ≠ key) (way' : List String) (v : Value) :
    (v.blankAt (other :: way')).blankAt (key :: way) =
      (v.blankAt (key :: way)).blankAt (other :: way') := by
  cases v with
  | object ms =>
    simp only [blankAt, List.map_map]
    congr 1
    refine List.map_congr_left fun m _ => ?_
    by_cases hk : m.1 = key
    · simp [hk, h.symm]
    · by_cases ho : m.1 = other
      · simp [ho, h]
      · simp [hk, ho]
  | _ => rfl

end Json.Value

/-! ## Records -/

/-- A record without the time when it was written, `synced_at`. -/
def Record.timeless (row : Value) : Value := row.blankAt ["synced_at"]

/-- The time of a record is gone in `timeless`. -/
theorem Record.timeless_ofTable (s : Summary) (table : String) (columnNames refs : List String)
    (time time' : String) :
    timeless (ofTable s table columnNames refs time) =
      timeless (ofTable s table columnNames refs time') := by
  simp [timeless, ofTable, Value.blankAt]

theorem Record.get?_ofTable (s : Summary) (table : String) (columnNames refs : List String)
    (time : String) :
    (ofTable s table columnNames refs time).get? "table_name" = some (.string table) := rfl

theorem Record.get?_timeless (row : Value) :
    (timeless row).get? "table_name" = row.get? "table_name" :=
  Value.get?_blankAt_of_ne (by decide) row

theorem Record.keys_timeless (row : Value) : (timeless row).keys = row.keys := Value.keys_blankAt row

/-! ## Documents -/

namespace Document

/-- A row of the table of documents without the time when it was made, `generated_at` in its `metadata`. -/
def timeless (row : Value) : Value := row.blankAt ["metadata", "generated_at"]

/-- The document as made at another `time`. -/
def dated (time : String) (doc : Document) : Document := { doc with generatedAt := time }

theorem get?_toJson (doc : Document) : doc.toJson.get? "name" = some (.string doc.name) := rfl

/-- The time of a document is gone in `timeless`. -/
theorem timeless_dated (doc : Document) (time time' : String) :
    timeless (doc.dated time).toJson = timeless (doc.dated time').toJson := by
  obtain ⟨name, body, path, generatedAt, source, summaryTime⟩ := doc
  cases summaryTime <;> simp [timeless, toJson, dated, Value.blankAt, DocumentBody.format]

theorem get?_timeless (row : Value) : (timeless row).get? "name" = row.get? "name" :=
  Value.get?_blankAt_of_ne (by decide) row

theorem keys_timeless (row : Value) : (timeless row).keys = row.keys := Value.keys_blankAt row

/-- A known file that is collected at another time is the same, but for the time. -/
theorem ofKnown?_dated (c : Config) (d : Disk) (summaryTime time time' : String) (k : Known) :
    ofKnown? c d summaryTime time' k = (ofKnown? c d summaryTime time k).map (dated time') := by
  unfold ofKnown?
  dsimp only
  cases d.readLossy (Path.join c.artifactDir k.file) with
  | error e => rfl
  | ok text =>
    simp only [Option.map_map]
    rfl

/-- A log that is collected at another time is the same, but for the time. -/
theorem ofLog?_dated (c : Config) (d : Disk) (time time' : String) (l : Log) :
    ofLog? c d time' l = (ofLog? c d time l).map (dated time') := by
  unfold ofLog?
  cases d.readLossy l.path with
  | error e => rfl
  | ok text => rfl

/-- The time of `collect` is in each of the documents, and nothing else depends on it. -/
theorem collect_dated (c : Config) (d : Disk) (summaryTime time time' : String) :
    collect c d summaryTime time' = (collect c d summaryTime time).map (dated time') := by
  have hknown := funext (ofKnown?_dated c d summaryTime time time')
  have hlog := funext (ofLog?_dated c d time time')
  rw [collect, collect, List.map_append, List.map_filterMap, List.map_filterMap, hknown, hlog]

end Document

end PayloadAtlas
