import PayloadAtlas.Drift

/-!
# Summaries

What a scan comes to: the shapes that were found, how they differ from those of the scan before, and what
is known about the realm that they belong to.
-/

namespace PayloadAtlas

/-- The result of a scan. -/
structure Summary where
  timestamp : String := ""
  /-- A score from zero to ten. -/
  scoreTotal : Nat := 0
  realmMetadata : Json.Value := .object []
  shapes : List Shape := []
  drift : Drift := {}
  deriving Inhabited

/-- A summary in brief. -/
structure Snapshot where
  timestamp : String
  scoreTotal : Nat
  shapeCount : Nat
  drift : Drift
  realmMetadata : Json.Value
  deriving Inhabited

/-- The summary in brief: the number of its `shapes` in their place. -/
def Summary.snapshot (s : Summary) : Snapshot :=
  ⟨s.timestamp, s.scoreTotal, s.shapes.length, s.drift, s.realmMetadata⟩

end PayloadAtlas
