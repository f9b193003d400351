import Mathlib.Data.List.Basic
import PayloadAtlas.Proofs.Text.LowerCase
import PayloadAtlas.Sync.Record

/-!
# The routes of a table

A record lists the routes whose paths have the name of the table in them, in whatever case. Names and paths are
compared in small letters (`Summary.Associates`), and what a sigma is there hangs on its place in the word. So a path
that has a name in it as it is written may be left out; that never happens just if the name has no loose sigma
(`Summary.routesForTable_contains_iff`).
-/

namespace PayloadAtlas.Summary

open Text

variable {name name' path path' : String}

/-- A path has a name in it when both are in small letters, by `lowercase`. -/
def Associates (name path : String) : Prop := (lowercase name).toList <:+: (lowercase path).toList

instance (name path : String) : Decidable (Associates name path) := inferInstanceAs (Decidable (_ <:+: _))

/-- The routes of a table are the paths it `Associates` with, in their order. -/
theorem routesForTable_eq (s : Summary) (name : String) :
    s.routesForTable name = (s.shapes.map Shape.path).filter fun path => Associates name path := by
  rw [routesForTable, List.filter_map]
  congr 1
  refine List.filter_congr fun shape _ => ?_
  rw [Bool.eq_iff_iff, hasPart_iff, Function.comp_apply, decide_eq_true_iff]
  rfl

theorem Associates.congr (hname : SameLetters name name') (hpath : SameLetters path path') :
    Associates name path ↔ Associates name' path' := by
  rw [Associates, Associates, lowercase_congr hname, lowercase_congr hpath]

/-- A name is found in all paths that have it literally just if it has no `HasLooseSigma`. -/
theorem forall_associates_iff :
    (∀ path : String, name.toList <:+: path.toList → Associates name path) ↔ ¬HasLooseSigma name.toList := by
  rw [← infix_lowerAll_iff]
  constructor
  · intro h a b
    have hpath := h (String.ofList (a ++ name.toList ++ b))
    rw [Associates, lowercase, lowercase, String.toList_ofList, String.toList_ofList, String.toList_ofList] at hpath
    exact hpath ⟨a, b, rfl⟩
  · rintro h path ⟨a, b, hpath⟩
    rw [Associates, lowercase, lowercase, String.toList_ofList, String.toList_ofList, ← hpath]
    exact h a b

/-- The routes of a table are the paths that the name is associated with, in their order and as often as they occur,
and the case of ASCII letters does not count. They have all paths that the name stands in just if it has no loose
sigma. -/
theorem routesForTable_contains_iff (name : String) :
    (∀ s : Summary, s.routesForTable name = (s.shapes.map Shape.path).filter fun path => Associates name path) ∧
    (∀ name' path path', SameLetters name name' → SameLetters path path' →
      (Associates name path ↔ Associates name' path')) ∧
    ((∀ s : Summary, ∀ path ∈ s.shapes.map Shape.path, name.toList <:+: path.toList →
      path ∈ s.routesForTable name) ↔ ¬HasLooseSigma name.toList) := by
  refine ⟨fun s => routesForTable_eq s name, fun _ _ _ => Associates.congr, ?_⟩
  rw [← forall_associates_iff]
  constructor
  · intro h path hinfix
    have hroutes := h { shapes := [{ path }] } path (by simp) hinfix
    rw [routesForTable_eq, List.mem_filter, decide_eq_true_iff] at hroutes
    exact hroutes.2
  · intro h s path hpath hinfix
    rw [routesForTable_eq, List.mem_filter, decide_eq_true_iff]
    exact ⟨hpath, h path hinfix⟩

theorem routesForTable_contains_notes :
    SameLetters "notes" "NOTES" ∧ SameLetters "/Notes/\x7bid\x7d" "/notes/\x7bID\x7d" ∧
      (Associates "notes" "/Notes/\x7bid\x7d" ↔ Associates "NOTES" "/notes/\x7bID\x7d") ∧
      "notes".toList <:+: "/notes".toList ∧
      "/notes" ∈ ({ shapes := [{ path := "/users" }, { path := "/notes" }] } : Summary).routesForTable "notes" := by
  have hname : SameLetters "notes" "NOTES" := by simp [SameLetters]
  have hpath : SameLetters "/Notes/\x7bid\x7d" "/notes/\x7bID\x7d" := by simp [SameLetters]
  have hinfix : "notes".toList <:+: "/notes".toList := ⟨['/'], [], rfl⟩
  have hloose : ¬HasLooseSigma "notes".toList := not_hasLooseSigma (by decide)
  obtain ⟨-, hcase, hroutes⟩ := routesForTable_contains_iff "notes"
  exact ⟨hname, hpath, hcase _ _ _ hname hpath, hinfix, hroutes.mpr hloose _ "/notes" (by simp) hinfix⟩

/-- A name at the end of a word ends in another small letter than in the middle of one. -/
theorem routesForTable_misses_word :
    "ΟΔΟΣ".toList <:+: "/ΟΔΟΣΑ".toList ∧
      ({ shapes := [{ path := "/ΟΔΟΣΑ" }] } : Summary).routesForTable "ΟΔΟΣ" = [] := by
  decide +kernel

end PayloadAtlas.Summary
