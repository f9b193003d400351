import Mathlib.Data.List.Basic
import PayloadAtlas.Proofs.Scan.Repetition
import PayloadAtlas.Proofs.Shape.Build
import PayloadAtlas.Proofs.Text.Capitals

/-!
# Which shapes are registered

A shape ought to be registered just if the list has an entry of its path whose method is the attribute of the
decorator, whatever the case of ASCII letters (`Declaration.IsListed`). The methods of the list are put in capitals
by the rules of Unicode, though, and the attribute by those of ASCII. So an attribute with a small letter outside
ASCII is never taken for listed, and a method with such a letter may be taken for another one. The flags are right
just if neither matters to any decorator (`Declaration.IsClear`, `Shape.registered_iff_isListed`). In everything
else shapes are the same whatever is listed.
-/

namespace PayloadAtlas

open Text

/-! ## The case of letters -/

namespace Text

variable {a b : String}

theorem SameLetters.isCapitalBeyondAscii_iff (h : SameLetters a b) :
    IsCapitalBeyondAscii a ↔ IsCapitalBeyondAscii b := by
  rw [Text.isCapitalBeyondAscii_iff, Text.isCapitalBeyondAscii_iff, map_toUpper_eq_iff.mpr h]

end Text

/-! ## Decorators that are listed -/

namespace Declaration

/-- Whether `routes` has an entry of the path whose method is the attribute, but for the case of ASCII letters. -/
def IsListed (routes : List RegisteredRoute) (d : Declaration) : Prop :=
  ∃ r ∈ routes, d.decorator.path = some r.path ∧ SameLetters r.method d.decorator.callee

/-- Whether `routes` has an entry of the path whose method in capitals is the attribute in ASCII capitals. -/
def IsTaken (routes : List RegisteredRoute) (d : Declaration) : Prop :=
  ∃ r ∈ routes, d.decorator.path = some r.path ∧ uppercase r.method = d.decorator.callee.map Char.toUpper

/-- No letter outside ASCII matters to whether a decorator is listed: if it is, then its attribute has no small one;
and no method of its path that has a small one is the attribute in capitals, unless the decorator is listed anyway. -/
structure IsClear (routes : List RegisteredRoute) (d : Declaration) : Prop where
  capital : d.IsListed routes → IsCapitalBeyondAscii d.decorator.callee
  listed : ∀ r ∈ routes, d.decorator.path = some r.path → ¬IsCapitalBeyondAscii r.method →
    uppercase r.method = d.decorator.callee.map Char.toUpper → d.IsListed routes

variable {routes : List RegisteredRoute} {d : Declaration}

instance (routes : List RegisteredRoute) (d : Declaration) : Decidable (d.IsListed routes) :=
  inferInstanceAs (Decidable (∃ r ∈ routes, _ ∧ _))

/-- What is taken for listed has no small letter beyond ASCII. -/
theorem IsTaken.isCapitalBeyondAscii (h : d.IsTaken routes) : IsCapitalBeyondAscii d.decorator.callee := by
  obtain ⟨r, -, -, hmethod⟩ := h
  exact isCapitalBeyondAscii_of_uppercase_eq hmethod

/-- What is listed and has no such letter is taken for listed. -/
theorem IsListed.isTaken (h : d.IsListed routes) (hcapital : IsCapitalBeyondAscii d.decorator.callee) :
    d.IsTaken routes := by
  obtain ⟨r, hr, hpath, hletters⟩ := h
  refine ⟨r, hr, hpath, ?_⟩
  rw [uppercase_eq_iff.mpr (hletters.isCapitalBeyondAscii_iff.mpr hcapital)]
  exact map_toUpper_eq_iff.mpr hletters

/-- A method without small letters outside ASCII is taken only for what it is. -/
theorem IsClear.isListed (h : d.IsClear routes) (htaken : d.IsTaken routes) : d.IsListed routes := by
  obtain ⟨r, hr, hpath, hmethod⟩ := htaken
  by_cases hcapital : IsCapitalBeyondAscii r.method
  · rw [uppercase_eq_iff.mpr hcapital] at hmethod
    exact ⟨r, hr, hpath, map_toUpper_eq_iff.mp hmethod⟩
  · exact h.listed r hr hpath hcapital hmethod

/-- A decorator is rightly taken for listed, or not, just if it `IsClear`. -/
theorem isTaken_iff_isListed : (d.IsTaken routes ↔ d.IsListed routes) ↔ d.IsClear routes := by
  constructor
  · intro h
    exact ⟨fun hlisted => (h.mpr hlisted).isCapitalBeyondAscii,
      fun r hr hpath _ hmethod => h.mp ⟨r, hr, hpath, hmethod⟩⟩
  · intro h
    exact ⟨h.isListed, fun hlisted => hlisted.isTaken (h.capital hlisted)⟩

end Declaration

/-! ## Flags -/

namespace Shape

/-- The flag of a shape says whether its decorator `IsTaken`. -/
theorem lists_iff {c : Context} {d : Declaration} {path : String} (hpath : d.decorator.path = some path) :
    c.lists (d.decorator.callee.map Char.toUpper) path = true ↔ d.IsTaken c.registered := by
  simp only [Context.lists, List.any_eq_true, Bool.and_eq_true, decide_eq_true_eq, Declaration.IsTaken, hpath,
    Option.some.injEq]
  exact exists_congr fun r => and_congr_right fun _ => ⟨fun h => ⟨h.2.symm, h.1⟩, fun h => ⟨h.2, h.1.symm⟩⟩

/-- A shape is registered just if its decorator `IsTaken` for listed. -/
theorem forall₂_registered (c : Context) (files : List SourceFile) :
    List.Forall₂ (fun d s => Describes c d s ∧ (s.registered = true ↔ d.IsTaken c.registered))
      ((Declaration.ofFiles files).filter fun d => d.IsRoute c.methods) (c.shapes files) :=
  forall₂_shapes_of c files fun d _ hpath => ⟨describes_shape c d hpath, lists_iff hpath⟩

/-- What is asked of pairs, but is told from the first of each. -/
theorem forall₂_iff_forall {α β : Type} {R S : α → β → Prop} {P : α → Prop} {xs : List α} {ys : List β}
    (h : List.Forall₂ R xs ys) (hS : ∀ x y, R x y → (S x y ↔ P x)) : List.Forall₂ S xs ys ↔ ∀ x ∈ xs, P x := by
  induction h with
  | nil => simp
  | cons hR _ ih => rw [List.forall₂_cons, List.forall_mem_cons, ih, hS _ _ hR]

/-- The flags are right just if all decorators have `IsClear`, and nothing else in a shape is told from the list. -/
theorem registered_iff_isListed (c : Context) (files : List SourceFile) :
    (List.Forall₂ (fun d s => Describes c d s ∧ (s.registered = true ↔ d.IsListed c.registered))
        ((Declaration.ofFiles files).filter fun d => d.IsRoute c.methods) (c.shapes files) ↔
      ∀ d ∈ Declaration.ofFiles files, d.IsRoute c.methods → d.IsClear c.registered) ∧
    ∀ routes, List.Forall₂ (fun s s' => s' = { s with registered := s'.registered }) (c.shapes files)
      ({ c with registered := routes }.shapes files) := by
  constructor
  · rw [forall₂_iff_forall (forall₂_registered c files) fun d s h => by
      rw [h.2, Declaration.isTaken_iff_isListed, and_iff_right h.1]]
    simp only [List.mem_filter, decide_eq_true_eq, and_imp]
  · intro routes
    rw [shapes_registered c routes, List.forall₂_map_right_iff, List.forall₂_same]
    exact fun s _ => rfl

namespace Sample

/-- A handler with two decorators, the attribute of one of which has a letter outside ASCII. -/
def accented : SourceFile where
  path := "app.py"
  module := "app"
  contents :=
    { classes := []
      functions := [⟨"f", false, [], [⟨"é", some "/x"⟩, ⟨"post", some "/x"⟩], 3⟩] }

/-- The attribute of the first decorator is listed, and that of the second is not. -/
def context : Context where
  registry := {}
  strategy := .usual
  methods := ["é", "post"]
  registered := [⟨"app.py", "é", "/x"⟩, ⟨"app.py", "poſt", "/x"⟩]

end Sample

/-- What is listed is not registered, and what is registered is not listed. -/
theorem registered_ne_isListed_accented :
    ((Declaration.ofFiles [Sample.accented]).filter fun d => d.IsRoute Sample.context.methods).map
        (fun d => (d.decorator.callee, decide (d.IsListed Sample.context.registered))) =
      [("é", true), ("post", false)] ∧
    (Sample.context.shapes [Sample.accented]).map (fun s => (s.method, s.registered)) =
      [("é", false), ("POST", true)] := by
  decide +kernel

end Shape

end PayloadAtlas
