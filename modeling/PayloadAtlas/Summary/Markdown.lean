import PayloadAtlas.Json.Printer
import PayloadAtlas.Summary

/-!
# Summaries to read

A summary as a page of markdown: the realm, the shapes with their parameters and examples, and the
drift.
-/

namespace PayloadAtlas.Summary

open Json (Value)

/-- A value as it is shown: a text without its quotes, anything else on one line by `compact`. -/
def shown : Value → String
  | .string s => s
  | v => v.compact

/-- The lines of the realm, sorted by key. -/
def realmLines : Value → List String
  | .object ms =>
    (ms.mergeSort fun a b => Text.notAfter a.1 b.1).map fun (k, v) => s!"- {k}: {shown v}"
  | _ => []

/-- The line of a parameter. -/
def parameterLine (p : HandlerParameter) : String :=
  let kind := if p.declaredType ≠ "" then p.declaredType else p.model.getD "any"
  let fields := (p.modelFields.getD []).map Field.name
  s!"  - {p.name} ({kind})"
    ++ (if fields.isEmpty then "" else " → fields: " ++ ", ".intercalate fields)

/-- The lines of a shape. -/
def shapeLines (s : Shape) : List String :=
  ["### " ++ s.handlerLabel, "- Module: " ++ s.module, "- Source path: " ++ s.sourcePath,
    "- Registered route: " ++ (if s.registered then "yes" else "no"),
    s!"- Shape score: {s.score}"]
    ++ (if s.parameters.isEmpty then [] else "- Parameters:" :: s.parameters.map parameterLine)
    ++ (match s.example? with
      | some ms => ["- Example payload:", "\x60\x60\x60json", (Value.object ms).pretty,
          "\x60\x60\x60"]
      | none => [])
    ++ [""]

/-- The lines of a drift. -/
def driftLines (d : Drift) : List String :=
  d.sections.flatMap fun (title, entries) =>
    s!"- {title}: {entries.length}" :: entries.map ("  - " ++ ·)

/-- The lines of the page. -/
def markdownLines (s : Summary) : List String :=
  ["# Payload Registry", "", s!"**Scan time:** {s.timestamp}",
    s!"**Shape score:** {s.scoreTotal} / 10", "", "## Realm Metadata"]
    ++ realmLines s.realmMetadata
    ++ ["", "## Payload Shapes"]
    ++ s.shapes.flatMap shapeLines
    ++ ["## Drift Observations"]
    ++ driftLines s.drift
    ++ ["", "## Notes",
      if s.drift.isEmpty then "- No schema drift since the previous scan."
      else "- Schema drift detected: keep this artifact aligned with route changes."]

/-- The page, of the `markdownLines`. -/
def markdown (s : Summary) : String := "\n".intercalate (markdownLines s) ++ "\n"

end PayloadAtlas.Summary
