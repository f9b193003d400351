import Mathlib.Tactic.Convert
import PayloadAtlas.Proofs.Grammar.Outline
import PayloadAtlas.Proofs.Grammar.Read
import PayloadAtlas.Proofs.Python.Extraction
import PayloadAtlas.Python.Grammar

/-!
# The fields of a class

A statement right in the body of a class may assign fields (`Assigns`): one with an annotation, or each name among
the targets of a chain of assignments (`Chain`). In every class that the grammar allows, the fields are those that
the statements of its body assign, one statement after the other, and they decide with the bases and decorators
what kind of model the class is (`ofDefinition?_eq_assigned`).

The grammar lets an assignment stand as the value of another, with an annotation too, as in `a = b: int = 3`. The
chain goes on there, and the annotation is not recorded; so what is assigned is not the same as if the chain ended
at such a value (`fields_not_assigned`).
-/

namespace PayloadAtlas.Python

open PayloadAtlas.Grammar Rule PayloadAtlas.Text

namespace ClassDefinition

/-! ## What a statement assigns -/

/-- The parts of an assignment: `target = value`, `target: annotation` or `target: annotation = value`. -/
inductive IsAssignment (t : Tree) : Tree → Option Tree → Option Tree → Prop
  | plain {target mark value : Tree} (hown : t.ownChildren = [target, mark, value]) (hmark : mark.kind = "=") :
      IsAssignment t target none (some value)
  | annotated {target mark declared : Tree} (hown : t.ownChildren = [target, mark, declared])
      (hmark : mark.kind = ":") : IsAssignment t target (some declared) none
  | both {target colon declared mark value : Tree}
      (hown : t.ownChildren = [target, colon, declared, mark, value]) :
      IsAssignment t target (some declared) (some value)

/-- The targets of an assignment and of those that it has for values, one within the other, and the last value.
Whether a value `goesOn` with the chain is a parameter. -/
inductive Chain (goesOn : Tree → Prop) : Tree → List Tree → Option Tree → Prop
  | last {t target : Tree} {declared value : Option Tree} (h : IsAssignment t target declared value)
      (hvalue : ∀ v ∈ value, ¬goesOn v) : Chain goesOn t [target] value
  | next {t target v : Tree} {declared value : Option Tree} {targets : List Tree}
      (h : IsAssignment t target declared (some v)) (hvalue : goesOn v) (hchain : Chain goesOn v targets value) :
      Chain goesOn t (target :: targets) value

/-- The text of a value, or nothing. -/
def valueText (s : Source) (value : Option Tree) : String := (value.map (textOf s)).getD ""

/-- The fields that a statement assigns: one for an annotated name, one without an annotation for each name among the
targets of a `Chain`, and none in any other statement. -/
inductive Assigns (goesOn : Tree → Prop) (s : Source) (st : Tree) : List Field → Prop
  | annotated {t target declared : Tree} {value : Option Tree} (hst : st.kind = "expression_statement")
      (hown : st.ownChildren = [t]) (hkind : t.kind = "assignment")
      (h : IsAssignment t target (some declared) value) (htarget : target.kind = "identifier") :
      Assigns goesOn s st [⟨textOf s target, textOf s declared, valueText s value⟩]
  | annotatedOther {t target declared : Tree} {value : Option Tree} (hst : st.kind = "expression_statement")
      (hown : st.ownChildren = [t]) (hkind : t.kind = "assignment")
      (h : IsAssignment t target (some declared) value) (htarget : target.kind ≠ "identifier") :
      Assigns goesOn s st []
  | chain {t target : Tree} {targets : List Tree} {first value : Option Tree}
      (hst : st.kind = "expression_statement") (hown : st.ownChildren = [t]) (hkind : t.kind = "assignment")
      (h : IsAssignment t target none first) (hchain : Chain goesOn t targets value) :
      Assigns goesOn s st
        ((targets.filter (·.kind = "identifier")).map fun t => ⟨textOf s t, "", valueText s value⟩)
  | other (h : st.kind = "expression_statement" → ∀ t ∈ st.ownChildren, t.kind ≠ "assignment") :
      Assigns goesOn s st []

/-- Whether a node is an `assignment` of any form. -/
def IsAnyAssignment (t : Tree) : Prop := t.kind = "assignment"

/-- Whether a node is an `assignment` without an annotation. -/
def IsPlainAssignment (t : Tree) : Prop := t.kind = "assignment" ∧ ∃ target value, IsAssignment t target none value

/-! ## What the grammar says of assignments -/

/-- An assignment has one form, and one target, annotation and value. -/
theorem IsAssignment.unique {t target target' : Tree} {declared declared' value value' : Option Tree}
    (h : IsAssignment t target declared value) (h' : IsAssignment t target' declared' value') :
    target = target' ∧ declared = declared' ∧ value = value' := by
  -- how many own children there are, and the mark among them, tell the forms apart
  cases h with
  | plain hown hmark =>
    cases h' with
    | plain hown' _ =>
      cases hown.symm.trans hown'
      exact ⟨rfl, rfl, rfl⟩
    | annotated hown' hmark' =>
      cases hown.symm.trans hown'
      exact absurd (hmark.symm.trans hmark') (by decide)
    | both hown' => cases hown.symm.trans hown'
  | annotated hown hmark =>
    cases h' with
    | plain hown' hmark' =>
      cases hown.symm.trans hown'
      exact absurd (hmark.symm.trans hmark') (by decide)
    | annotated hown' _ =>
      cases hown.symm.trans hown'
      exact ⟨rfl, rfl, rfl⟩
    | both hown' => cases hown.symm.trans hown'
  | both hown =>
    cases h' with
    | plain hown' _ => cases hown.symm.trans hown'
    | annotated hown' _ => cases hown.symm.trans hown'
    | both hown' =>
      cases hown.symm.trans hown'
      exact ⟨rfl, rfl, rfl⟩

/-- The rules of the three forms of assignments. -/
theorem yields_assignment {t : Tree} (h : grammar.Conforms t) (hnamed : t.tag.named = true)
    (hkind : t.kind = "assignment") :
    ∃ b rest, Yields grammar (none, none) (seqs (field "left" (ref "_left_hand_side") :: rest)) b t.children ∧
      (rest = [text "=", field "right" (ref "_right_hand_side")] ∨ rest = [text ":", field "type" (ref "type")] ∨
        rest = [text ":", field "type" (ref "type"), text "=", field "right" (ref "_right_hand_side")]) := by
  obtain ⟨b, hyields⟩ := h.exists_yields hnamed hkind (r := seqs [field "left" (ref "_left_hand_side"), choices [
    seqs ["=", field "right" (ref "_right_hand_side")],
    seqs [":", field "type" (ref "type")],
    seqs [":", field "type" (ref "type"), "=", field "right" (ref "_right_hand_side")]]]) (by decide)
  rcases hyields.seq_choice with hyields | hyields
  · refine ⟨b, _, ?_, .inl rfl⟩
    exact hyields
  · rcases Yields.seq_choice hyields with hyields | hyields
    · refine ⟨b, _, ?_, .inr (.inl rfl)⟩
      exact hyields
    · refine ⟨b, _, ?_, .inr (.inr rfl)⟩
      exact hyields

/-- How the parts of `target = value` are told. -/
def plainParts : List (Appearance → Bool) :=
  [fun a => a.field == some "left", fun a => a.field == none && a.kind == "=", fun a => a.field == some "right"]

/-- How those of `target: annotation` are told. -/
def annotatedParts : List (Appearance → Bool) :=
  [fun a => a.field == some "left", fun a => a.field == none && a.kind == ":", fun a => a.field == some "type"]

/-- How those of `target: annotation = value` are told. -/
def bothParts : List (Appearance → Bool) :=
  [fun a => a.field == some "left", fun a => a.field == none, fun a => a.field == some "type",
    fun a => a.field == none, fun a => a.field == some "right"]

theorem passes_assignment :
    grammar.passes 6 [field "left" (ref "_left_hand_side"), text "=", field "right" (ref "_right_hand_side")]
        plainParts = true ∧
      grammar.passes 6 [field "left" (ref "_left_hand_side"), text ":", field "type" (ref "type")]
        annotatedParts = true ∧
      grammar.passes 6 [field "left" (ref "_left_hand_side"), text ":", field "type" (ref "type"), text "=",
        field "right" (ref "_right_hand_side")] bothParts = true := by
  decide

/-- An assignment that the grammar allows has its parts in the fields that are named for them. -/
theorem exists_assignment {t : Tree} (h : grammar.Conforms t) (hnamed : t.tag.named = true)
    (hkind : t.kind = "assignment") :
    ∃ target declared value, IsAssignment t target declared value ∧ t.child? "left" = some target ∧
      t.child? "type" = declared ∧ t.child? "right" = value := by
  obtain ⟨hplain, hannotated, hboth⟩ := passes_assignment
  obtain ⟨b, rest, hyields, rfl | rfl | rfl⟩ := yields_assignment h hnamed hkind
  · -- target = value
    have hsequence : IsSequence plainParts t.children := isSequence_of_yields 6 hyields hplain
    obtain ⟨target, mark, value, hown, htarget, hmark, hvalue⟩ := hsequence.exists_three
    simp only [Tree.appearance, Bool.and_eq_true, beq_iff_eq] at htarget hmark hvalue
    refine ⟨target, none, some value, .plain hown hmark.2, ?_, ?_, ?_⟩ <;>
      rw [hsequence.child?_eq, hown] <;> simp [htarget, hmark, hvalue]
  · -- target: annotation
    have hsequence : IsSequence annotatedParts t.children := isSequence_of_yields 6 hyields hannotated
    obtain ⟨target, mark, declared, hown, htarget, hmark, htype⟩ := hsequence.exists_three
    simp only [Tree.appearance, Bool.and_eq_true, beq_iff_eq] at htarget hmark htype
    refine ⟨target, some declared, none, .annotated hown hmark.2, ?_, ?_, ?_⟩ <;>
      rw [hsequence.child?_eq, hown] <;> simp [htarget, hmark, htype]
  · -- target: annotation = value
    have hsequence : IsSequence bothParts t.children := isSequence_of_yields 6 hyields hboth
    obtain ⟨target, colon, declared, mark, value, hown, htarget, hcolon, htype, hmark, hvalue⟩ :=
      hsequence.exists_five
    simp only [Tree.appearance, beq_iff_eq] at htarget hcolon htype hmark hvalue
    refine ⟨target, some declared, some value, .both hown, ?_, ?_, ?_⟩ <;>
      rw [hsequence.child?_eq, hown] <;> simp [htarget, hcolon, htype, hmark, hvalue]

/-- The parts of an assignment that the grammar allows, by `child?`. -/
theorem IsAssignment.child?_eq {t target : Tree} {declared value : Option Tree} (hconforms : grammar.Conforms t)
    (hnamed : t.tag.named = true) (hkind : t.kind = "assignment") (h : IsAssignment t target declared value) :
    t.child? "left" = some target ∧ t.child? "type" = declared ∧ t.child? "right" = value := by
  obtain ⟨target', declared', value', h', hfields⟩ := exists_assignment hconforms hnamed hkind
  obtain ⟨rfl, rfl, rfl⟩ := h.unique h'
  exact hfields

/-- The rules of an `expression_statement` other than that of an assignment. -/
def otherStatements : List Rule :=
  [ref "expression", seqs [separated (ref "expression") ",", optional ","],
    choices [ref "augmented_assignment", ref "yield"]]

/-- No symbol of `otherStatements` is an assignment. -/
theorem outline_otherStatements : ∀ r ∈ otherStatements,
    ((grammar.outline 4 (none, none) r).any fun o => o.symbols.all fun a => a.kind != "assignment") = true := by
  decide

/-- A statement is one assignment, or it has none among its children. -/
theorem children_statement {st : Tree} (h : grammar.Conforms st) (hnamed : st.tag.named = true)
    (hkind : st.kind = "expression_statement") :
    (∃ t, st.children = [t] ∧ t.isExtra = false ∧ t.tag.named = true ∧ t.kind = "assignment") ∨
      ∀ t ∈ st.children, t.kind ≠ "assignment" := by
  obtain ⟨b, hyields⟩ := h.exists_yields hnamed hkind (r := choices [ref "expression",
    seqs [separated (ref "expression") ",", optional ","], ref "assignment", ref "augmented_assignment", ref "yield"])
    (by decide)
  -- nor are extra nodes
  have hnone : ∀ {r b}, Yields grammar (none, none) r b st.children →
      r ∈ otherStatements → ∀ t ∈ st.children, t.kind ≠ "assignment" := by
    intro r b hyields hr t ht
    rcases covers_of_yields hyields (outline_otherStatements r hr) t ht with htrivia | ⟨-, hother⟩
    · intro hassignment
      have hmem := htrivia.kind_mem
      rw [hassignment] at hmem
      exact absurd hmem (by decide)
    · simpa [Tree.appearance] using hother
  cases hyields with
  | one hyields => exact .inr (hnone hyields (by simp [otherStatements]))
  | other hyields =>
    cases hyields with
    | one hyields => exact .inr (hnone hyields (by simp [otherStatements]))
    | other hyields =>
      cases hyields with
      | other hyields => exact .inr (hnone hyields (by simp [otherStatements]))
      | one hyields =>
        obtain ⟨t, ht, hown, hshows⟩ := exists_of_single 0 hyields
          (p := fun a => a.named && a.kind == "assignment") (by decide)
        obtain ⟨hnamed, hkind⟩ := Bool.and_eq_true_iff.mp hshows
        exact .inl ⟨t, ht, hown, hnamed, eq_of_beq hkind⟩

/-! ## Chains -/

/-- Among the children the one in the field `right` decides how the chain goes on. -/
theorem chainIn_eq (cs : List Tree) :
    chainIn cs = (cs.find? (·.tag.field == some "right")).bind fun v =>
      if v.kind = "assignment" then some (chain v) else none := by
  induction cs with
  | nil => rfl
  | cons c cs ih =>
    rw [chainIn]
    by_cases hfield : c.tag.field = some "right"
    · rw [if_pos hfield, List.find?_cons_of_pos (by simp [hfield]), Option.bind_some]
    · rw [if_neg hfield, List.find?_cons_of_neg (by simp [hfield]), ih]

/-- A chain goes on where the value, in the field `right`, is an assignment. -/
theorem chain_eq (t : Tree) :
    chain t = match t.child? "right" with
      | none => ((t.child? "left").toList, none)
      | some v =>
        if v.kind = "assignment" then ((t.child? "left").toList ++ (chain v).1, (chain v).2)
        else ((t.child? "left").toList, some v) := by
  cases t with
  | node tag cs =>
    rw [chain, chainIn_eq]
    cases hright : (Tree.node tag cs).child? "right" with
    | none =>
      have hfind : cs.find? (·.tag.field == some "right") = none := hright
      rw [hfind]
      rfl
    | some v =>
      have hfind : cs.find? (·.tag.field == some "right") = some v := hright
      rw [hfind]
      by_cases hkind : v.kind = "assignment"
      · simp [hkind]
      · simp [hkind]

/-- An assignment that is the value of another is a node with a name. -/
theorem named_of_mem_assignment {t v : Tree} (h : grammar.Conforms t) (hnamed : t.tag.named = true)
    (hkind : t.kind = "assignment") (hv : v ∈ t.children) (hvalue : v.kind = "assignment") : v.tag.named = true := by
  have hcovers : (grammar.bodies "assignment").all fun r => (grammar.outline 6 (none, none) r).any fun o =>
      o.symbols.all fun a => a.kind != "assignment" || a.named := by decide
  rcases h.covers hnamed hkind hcovers v hv with htrivia | ⟨-, hshows⟩
  · have hmem := htrivia.kind_mem
    rw [hvalue] at hmem
    exact absurd hmem (by decide)
  · simpa [Tree.appearance, hvalue] using hshows

/-- The targets and the value of a `Chain` are those that are found. -/
theorem chain_of_chain {t : Tree} {targets : List Tree} {value : Option Tree}
    (hchain : Chain IsAnyAssignment t targets value) (h : grammar.Allows t) (hnamed : t.tag.named = true)
    (hkind : t.kind = "assignment") : chain t = (targets, value) := by
  -- one assignment after the other, each the value of the one before it
  induction hchain with
  | @last t target declared value hparts hvalue =>
    obtain ⟨hleft, -, hright⟩ := hparts.child?_eq h.conforms hnamed hkind
    rw [chain_eq, hleft, hright]
    cases value with
    | none => rfl
    | some v => exact if_neg (hvalue v rfl)
  | @next t target v declared value targets hparts hvalue hchain ih =>
    obtain ⟨hleft, -, hright⟩ := hparts.child?_eq h.conforms hnamed hkind
    have hmem := Tree.mem_children_of_child? hright
    have hrest := ih (h.child hmem) (named_of_mem_assignment h.conforms hnamed hkind hmem hvalue) hvalue
    rw [chain_eq, hleft, hright]
    show (if v.kind = "assignment" then _ else _) = _
    rw [if_pos (show v.kind = "assignment" from hvalue), hrest]
    rfl

/-- Every assignment that the grammar allows is a `chain`. -/
theorem exists_chain (t : Tree) (h : grammar.Allows t) (hnamed : t.tag.named = true) (hkind : t.kind = "assignment") :
    ∃ targets value, Chain IsAnyAssignment t targets value := by
  obtain ⟨target, declared, value, hparts, -, -, hright⟩ := exists_assignment h.conforms hnamed hkind
  cases value with
  | none => exact ⟨_, _, .last hparts fun v hv => by cases hv⟩
  | some v =>
    by_cases hvalue : v.kind = "assignment"
    · have hmem := Tree.mem_children_of_child? hright
      -- the value is a part of the assignment, so that the chain comes to an end
      have hlt : sizeOf v < sizeOf t := by
        cases t with
        | node tag cs =>
          have hsize := List.sizeOf_lt_of_mem (show v ∈ cs from hmem)
          rw [Tree.node.sizeOf_spec]
          omega
      obtain ⟨targets, last, hchain⟩ :=
        exists_chain v (h.child hmem) (named_of_mem_assignment h.conforms hnamed hkind hmem hvalue) hvalue
      exact ⟨_, _, .next hparts hvalue hchain⟩
    · exact ⟨_, _, .last hparts fun w hw => by cases hw; exact hvalue⟩
termination_by sizeOf t

/-! ## Statements and classes -/

/-- What `fieldsOf` finds in a statement that is an assignment. -/
theorem fieldsOf_assignment (s : Source) {st t : Tree} (hst : st.kind = "expression_statement")
    (hchildren : st.children = [t]) (hnamed : t.tag.named = true) (hkind : t.kind = "assignment") :
    fieldsOf s st = match t.child? "type" with
      | some declared =>
        match (t.child? "left").bind (ofKind? "identifier") with
        | none => []
        | some name => [⟨textOf s name, textOf s declared, valueText s (t.child? "right")⟩]
      | none =>
        ((chain t).1.filter (·.kind = "identifier")).map fun x => ⟨textOf s x, "", valueText s (chain t).2⟩ := by
  have hfilter : st.namedChildren = [t] := by
    rw [Tree.namedChildren, hchildren]
    exact List.filter_cons_of_pos (p := fun c : Tree => c.tag.named) hnamed
  have hhead : st.namedChildren.head?.bind (ofKind? "assignment") = some t := by
    rw [hfilter, List.head?_cons, Option.bind_some, ofKind?, if_pos hkind]
  rw [fieldsOf, if_neg (not_not_intro hst), hhead]
  rfl

/-- In a statement without an assignment `fieldsOf` finds nothing. -/
theorem fieldsOf_other (s : Source) {st : Tree}
    (h : st.kind = "expression_statement" → ∀ t ∈ st.children, t.kind ≠ "assignment") : fieldsOf s st = [] := by
  rw [fieldsOf]
  by_cases hst : st.kind = "expression_statement"
  · have hhead : st.namedChildren.head?.bind (ofKind? "assignment") = none := by
      cases hfirst : st.namedChildren.head? with
      | none => rfl
      | some t =>
        have hmem := Tree.mem_children_of_mem_namedChildren (List.mem_of_mem_head? hfirst)
        rw [Option.bind_some, ofKind?, if_neg (h hst t hmem)]
    rw [if_neg (not_not_intro hst), hhead]
  · rw [if_pos hst]

/-- A statement of which an assignment is the one part. -/
theorem children_eq_of_ownChildren {st t : Tree} (h : grammar.Conforms st) (hnamed : st.tag.named = true)
    (hst : st.kind = "expression_statement") (hown : st.ownChildren = [t]) (hkind : t.kind = "assignment") :
    st.children = [t] ∧ t.tag.named = true := by
  rcases children_statement h hnamed hst with ⟨u, hchildren, hextra, hunamed, -⟩ | hnone
  · rw [Tree.ownChildren, hchildren, List.filter_cons_of_pos (by simp [hextra])] at hown
    cases hown
    exact ⟨hchildren, hunamed⟩
  · have hmem : t ∈ st.ownChildren := by
      rw [hown]
      exact List.mem_singleton_self t
    exact absurd hkind (hnone t (List.mem_of_mem_filter hmem))

/-- What a statement assigns is what `fieldsOf` finds in it. -/
theorem fieldsOf_of_assigns (s : Source) {st : Tree} (h : grammar.Allows st) (hnamed : st.tag.named = true)
    {fs : List Field} (hassigns : Assigns IsAnyAssignment s st fs) : fs = fieldsOf s st := by
  cases hassigns with
  | @annotated t target declared value hst hown hkind hparts htarget =>
    obtain ⟨hchildren, htnamed⟩ := children_eq_of_ownChildren h.conforms hnamed hst hown hkind
    have hallows := h.child (c := t) (by rw [hchildren]; exact List.mem_singleton_self t)
    obtain ⟨hleft, htype, hright⟩ := hparts.child?_eq hallows.conforms htnamed hkind
    rw [fieldsOf_assignment s hst hchildren htnamed hkind, htype, hleft, hright]
    simp [ofKind?, htarget]
  | @annotatedOther t target declared value hst hown hkind hparts htarget =>
    obtain ⟨hchildren, htnamed⟩ := children_eq_of_ownChildren h.conforms hnamed hst hown hkind
    have hallows := h.child (c := t) (by rw [hchildren]; exact List.mem_singleton_self t)
    obtain ⟨hleft, htype, -⟩ := hparts.child?_eq hallows.conforms htnamed hkind
    rw [fieldsOf_assignment s hst hchildren htnamed hkind, htype, hleft]
    simp [ofKind?, htarget]
  | @chain t target targets first value hst hown hkind hparts hchain =>
    obtain ⟨hchildren, htnamed⟩ := children_eq_of_ownChildren h.conforms hnamed hst hown hkind
    have hallows := h.child (c := t) (by rw [hchildren]; exact List.mem_singleton_self t)
    obtain ⟨-, htype, -⟩ := hparts.child?_eq hallows.conforms htnamed hkind
    rw [fieldsOf_assignment s hst hchildren htnamed hkind, htype, chain_of_chain hchain hallows htnamed hkind]
  | other hother =>
    refine (fieldsOf_other s fun hst t ht hkind => ?_).symm
    rcases children_statement h.conforms hnamed hst with ⟨u, hchildren, hextra, -, hukind⟩ | hnone
    · refine hother hst u ?_ hukind
      rw [Tree.ownChildren, hchildren]
      exact List.mem_filter.mpr ⟨List.mem_singleton_self u, by simp [hextra]⟩
    · exact hnone t ht hkind

/-- Every statement that the grammar allows assigns some fields. -/
theorem exists_assigns (s : Source) {st : Tree} (h : grammar.Allows st) (hnamed : st.tag.named = true) :
    ∃ fs, Assigns IsAnyAssignment s st fs := by
  by_cases hst : st.kind = "expression_statement"
  · rcases children_statement h.conforms hnamed hst with ⟨t, hchildren, hextra, htnamed, hkind⟩ | hnone
    · have hown : st.ownChildren = [t] := by
        rw [Tree.ownChildren, hchildren, List.filter_cons_of_pos (by simp [hextra])]
        rfl
      have hallows := h.child (c := t) (by rw [hchildren]; exact List.mem_singleton_self t)
      obtain ⟨target, declared, value, hparts, -⟩ := exists_assignment hallows.conforms htnamed hkind
      cases declared with
      | some declared =>
        by_cases htarget : target.kind = "identifier"
        · exact ⟨_, .annotated hst hown hkind hparts htarget⟩
        · exact ⟨_, .annotatedOther hst hown hkind hparts htarget⟩
      | none =>
        obtain ⟨targets, last, hchain⟩ := exists_chain t hallows htnamed hkind
        exact ⟨_, .chain hst hown hkind hparts hchain⟩
    · exact ⟨[], .other fun _ t ht => hnone t (List.mem_of_mem_filter ht)⟩
  · exact ⟨[], .other fun hkind => absurd hkind hst⟩

theorem assigns_iff (s : Source) {st : Tree} (h : grammar.Allows st) (hnamed : st.tag.named = true) {fs : List Field} :
    Assigns IsAnyAssignment s st fs ↔ fs = fieldsOf s st := by
  refine ⟨fieldsOf_of_assigns s h hnamed, ?_⟩
  rintro rfl
  obtain ⟨gs, hgs⟩ := exists_assigns s h hnamed
  exact fieldsOf_of_assigns s h hnamed hgs ▸ hgs

/-- A base or a decorator makes a class a model of a schema library, as `rules` name them. -/
def IsSchema (rules : ModelRules) (c : ClassDefinition) : Prop :=
  (∃ base ∈ c.bases, base ∈ rules.schemaBases) ∨ ∃ name ∈ c.decorators, name ∈ rules.dataclassMarkers

/-- The kind is `schema` by the bases and decorators, and else `plain` if there are fields. -/
theorem kind?_eq (rules : ModelRules) (c : ClassDefinition) [Decidable (IsSchema rules c)] :
    c.kind? rules = if IsSchema rules c then some .schema else if c.fields = [] then none else some .plain := by
  have hcondition : (c.bases.any (· ∈ rules.schemaBases) || c.decorators.any (· ∈ rules.dataclassMarkers)) = true ↔
      IsSchema rules c := by
    simp [IsSchema]
  rw [kind?]
  simp only [hcondition, List.isEmpty_iff]

theorem exists_body {d : Tree} (hkind : d.kind = "class_definition") (hnamed : d.tag.named = true)
    (h : grammar.Allows d) :
    ∃ name body, d.child? "name" = some name ∧ d.child? "body" = some body ∧ body.kind = "block" ∧
      ∀ st ∈ body.namedChildren, grammar.Allows st ∧ st.tag.named = true := by
  obtain ⟨hnames, hblocks⟩ : grammar.fillsWith 4 "class_definition" "name" (fun _ => true) = true ∧
      grammar.fillsWith 4 "class_definition" "body" (fun a => a.kind == "block") = true := by decide
  obtain ⟨name, hname, -⟩ := h.conforms.exists_child? hnamed hkind hnames
  obtain ⟨body, hbody, hmem, -, hblock⟩ := h.conforms.exists_child? hnamed hkind hblocks
  refine ⟨name, body, hname, hbody, eq_of_beq hblock, fun st hst => ?_⟩
  exact ⟨(h.child hmem).child (Tree.mem_children_of_mem_namedChildren hst), (List.mem_filter.mp hst).2⟩

/-- The fields of a class that the grammar allows are what the statements right in its body assign, one statement
after the other; what kind of model it is depends on its bases, its decorators, and whether it has fields. -/
theorem ofDefinition?_eq_assigned (s : Source) (rules : ModelRules) {d : Definition}
    (hkind : d.tree.kind = "class_definition") (hnamed : d.tree.tag.named = true) (h : grammar.Allows d.tree) :
    ∃ c body fss, ofDefinition? s d = some c ∧ d.tree.child? "body" = some body ∧ body.kind = "block" ∧
      List.Forall₂ (fun st fs => ∀ gs, Assigns IsAnyAssignment s st gs ↔ gs = fs) body.namedChildren fss ∧
      c.fields = fss.flatten ∧
      (c.kind? rules = some .schema ↔ IsSchema rules c) ∧
      (c.kind? rules = some .plain ↔ ¬IsSchema rules c ∧ c.fields ≠ []) ∧
      (c.kind? rules = none ↔ ¬IsSchema rules c ∧ c.fields = []) := by
  obtain ⟨name, body, hname, hbody, hblock, hstatements⟩ := exists_body hkind hnamed h
  obtain ⟨c, hc, hfields⟩ : ∃ c, ofDefinition? s d = some c ∧ c.fields = body.namedChildren.flatMap (fieldsOf s) := by
    simp only [ofDefinition?, hkind, hname, guard_true, Option.bind_eq_bind, Option.pure_def, Option.bind_some,
      Option.some.injEq, exists_eq_left', hbody, Option.map_some, Option.getD_some]
  refine ⟨c, body, body.namedChildren.map (fieldsOf s), hc, hbody, hblock, ?_, ?_, ?_⟩
  · rw [List.forall₂_map_right_iff, List.forall₂_same]
    intro st hst gs
    exact assigns_iff s (hstatements st hst).1 (hstatements st hst).2
  · rw [hfields, List.flatMap_def]
  · classical
    rw [kind?_eq]
    by_cases hschema : IsSchema rules c
    · simp [hschema]
    · by_cases hempty : c.fields = [] <;> simp [hschema, hempty]

end ClassDefinition

namespace Sample

/-- A class with fields of all forms, and an assignment in one of its functions. -/
def assigned : String :=
  "class A(B):\n    x: int = 1  # first\n    y = z.w = u, v = t = 2\n    p.q: str\n    def f(self):\n        k = 1\n"

/-- The class in `assigned`. -/
def assignedClass : Tree :=
  construct "class_definition" 0 106 [
    token "class" 0,
    inField "name" <| construct "identifier" 6 7 [],
    inField "superclasses" <| construct "argument_list" 7 10 [
      token "(" 7,
      construct "identifier" 8 9 [],
      token ")" 9],
    token ":" 10,
    inField "body" <| construct "block" 16 106 [
      construct "expression_statement" 16 26 [
        construct "assignment" 16 26 [
          inField "left" <| construct "identifier" 16 17 [],
          token ":" 17,
          inField "type" <| construct "type" 19 22 [construct "identifier" 19 22 []],
          token "=" 23,
          inField "right" <| construct "integer" 25 26 []]],
      trivia "comment" 28 35,
      construct "expression_statement" 40 62 [
        construct "assignment" 40 62 [
          inField "left" <| construct "identifier" 40 41 [],
          token "=" 42,
          inField "right" <| construct "assignment" 44 62 [
            inField "left" <| construct "attribute" 44 47 [
              inField "object" <| construct "identifier" 44 45 [],
              token "." 45,
              inField "attribute" <| construct "identifier" 46 47 []],
            token "=" 48,
            inField "right" <| construct "assignment" 50 62 [
              inField "left" <| construct "pattern_list" 50 54 [
                construct "identifier" 50 51 [],
                token "," 51,
                construct "identifier" 53 54 []],
              token "=" 55,
              inField "right" <| construct "assignment" 57 62 [
                inField "left" <| construct "identifier" 57 58 [],
                token "=" 59,
                inField "right" <| construct "integer" 61 62 []]]]]],
      construct "expression_statement" 67 75 [
        construct "assignment" 67 75 [
          inField "left" <| construct "attribute" 67 70 [
            inField "object" <| construct "identifier" 67 68 [],
            token "." 68,
            inField "attribute" <| construct "identifier" 69 70 []],
          token ":" 70,
          inField "type" <| construct "type" 72 75 [construct "identifier" 72 75 []]]],
      construct "function_definition" 80 106 [
        token "def" 80,
        inField "name" <| construct "identifier" 84 85 [],
        inField "parameters" <| construct "parameters" 85 91 [
          token "(" 85,
          construct "identifier" 86 90 [],
          token ")" 90],
        token ":" 91,
        inField "body" <| construct "block" 101 106 [
          construct "expression_statement" 101 106 [
            construct "assignment" 101 106 [
              inField "left" <| construct "identifier" 101 102 [],
              token "=" 103,
              inField "right" <| construct "integer" 105 106 []]]]]]]

end Sample

namespace ClassDefinition

/-- Neither the attribute nor the tuple is a field, and nothing in the function is. -/
theorem fields_assigned :
    grammar.Allows Sample.assignedClass ∧
      (∃ c body fss, ofDefinition? (.ofString Sample.assigned) ⟨Sample.assignedClass, []⟩ = some c ∧
        Sample.assignedClass.child? "body" = some body ∧ body.kind = "block" ∧
        List.Forall₂ (fun st fs => ∀ gs, Assigns IsAnyAssignment (.ofString Sample.assigned) st gs ↔ gs = fs)
          body.namedChildren fss ∧
        c.fields = fss.flatten ∧
        (c.kind? ⟨["B"], []⟩ = some .schema ↔ IsSchema ⟨["B"], []⟩ c) ∧
        (c.kind? ⟨["B"], []⟩ = some .plain ↔ ¬IsSchema ⟨["B"], []⟩ c ∧ c.fields ≠ []) ∧
        (c.kind? ⟨["B"], []⟩ = none ↔ ¬IsSchema ⟨["B"], []⟩ c ∧ c.fields = [])) ∧
      (ofDefinition? (.ofString Sample.assigned) ⟨Sample.assignedClass, []⟩).map
          (fun c => (c.fields, c.kind? ⟨["B"], []⟩)) =
        some ([⟨"x", "int", "1"⟩, ⟨"y", "", "2"⟩, ⟨"t", "", "2"⟩], some .schema) := by
  have hcheck : ∀ n ∈ Sample.assignedClass.nodes, grammar.check 6 n = true := by decide +kernel
  refine ⟨allows_of_check hcheck, ?_, by decide +kernel⟩
  exact ofDefinition?_eq_assigned (.ofString Sample.assigned) ⟨["B"], []⟩ (d := ⟨Sample.assignedClass, []⟩) rfl rfl
    (allows_of_check hcheck)

end ClassDefinition

namespace Sample

/-- The assignment `a = b: int = 3`, whose value is one with an annotation. -/
def nestedAnnotation : String := "class A:\n    a = b: int = 3\n"

/-- The value. -/
def annotatedValue : Tree :=
  inField "right" <| construct "assignment" 17 27 [
    inField "left" <| construct "identifier" 17 18 [],
    token ":" 18,
    inField "type" <| construct "type" 20 23 [construct "identifier" 20 23 []],
    token "=" 24,
    inField "right" <| construct "integer" 26 27 []]

/-- The statement. -/
def annotatedStatement : Tree :=
  construct "expression_statement" 13 27 [
    construct "assignment" 13 27 [
      inField "left" <| construct "identifier" 13 14 [],
      token "=" 15,
      annotatedValue]]

/-- The class in `nestedAnnotation`. -/
def annotatedClass : Tree :=
  construct "class_definition" 0 27 [
    token "class" 0,
    inField "name" <| construct "identifier" 6 7 [],
    token ":" 7,
    inField "body" <| construct "block" 13 27 [annotatedStatement]]

end Sample

namespace ClassDefinition

/-- If a chain ended at a value with an annotation, the fields would not be those that are assigned. -/
theorem fields_not_assigned :
    ¬∀ (s : Source) (d : Definition), d.tree.kind = "class_definition" → d.tree.tag.named = true →
      grammar.Allows d.tree → ∀ c body fss, ofDefinition? s d = some c → d.tree.child? "body" = some body →
        List.Forall₂ (Assigns IsPlainAssignment s) body.namedChildren fss → c.fields = fss.flatten := by
  intro h
  have hcheck : ∀ n ∈ Sample.annotatedClass.nodes, grammar.check 6 n = true := by decide
  -- the value has an annotation
  have hvalue : ¬IsPlainAssignment Sample.annotatedValue := by
    rintro ⟨-, target, value, hplain⟩
    have hboth := (IsAssignment.both (t := Sample.annotatedValue) rfl).unique hplain
    cases hboth.2.1
  -- so that by the hypothesis `a` is the one field
  have hassigns : Assigns IsPlainAssignment (.ofString Sample.nestedAnnotation) Sample.annotatedStatement
      [⟨"a", "", "b: int = 3"⟩] := by
    have hchain : Assigns IsPlainAssignment (.ofString Sample.nestedAnnotation) Sample.annotatedStatement _ :=
      .chain rfl rfl rfl (.plain rfl rfl) (.last (.plain rfl rfl) fun v hv => by cases hv; exact hvalue)
    convert hchain using 1
    decide
  have hfound : (ofDefinition? (.ofString Sample.nestedAnnotation) ⟨Sample.annotatedClass, []⟩).map (·.fields) =
      some [⟨"a", "", "3"⟩, ⟨"b", "", "3"⟩] := by decide
  obtain ⟨c, hc, hfields⟩ := Option.map_eq_some_iff.mp hfound
  have hassigned := h (.ofString Sample.nestedAnnotation) ⟨Sample.annotatedClass, []⟩ rfl rfl (allows_of_check hcheck)
    c _ _ hc rfl (.cons hassigns .nil)
  rw [hfields] at hassigned
  exact absurd hassigned (by decide)

end ClassDefinition

end PayloadAtlas.Python
