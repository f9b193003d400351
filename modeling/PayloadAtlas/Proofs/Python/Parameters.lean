import Mathlib.Data.List.DropRight
import PayloadAtlas.Proofs.Grammar.Outline
import PayloadAtlas.Proofs.Grammar.Read
import PayloadAtlas.Proofs.Python.Extraction
import PayloadAtlas.Python.Grammar

/-!
# The parameters of a function

A parameter list may hold parameters of many forms, separators and comments. Those that can be given by position
or by name stand before the first star (`IsStar`), and after the last slash before that (`callable`). What is
collected from a list that the grammar allows is, in order, what these state (`stated?`): a name, if it is an
identifier, and the text of its annotation (`collect_eq`).

Here `stated?` goes by the places of the parts of a parameter, while the parameters are collected by the fields
that the parts fill; that these are the same is what the grammar says of the parameters of each form.
-/

namespace PayloadAtlas.Python

open PayloadAtlas.Grammar Rule PayloadAtlas.Text

namespace Parameter

/-- The patterns that stand for any number of arguments, by position or by name. -/
def splats : List String := ["list_splat_pattern", "dictionary_splat_pattern"]

/-- A bare `*`, or a parameter for any number of arguments, annotated or not. -/
def IsStar (p : Tree) : Prop :=
  p.kind = "keyword_separator" ∨ p.kind ∈ splats ∨
    p.kind = "typed_parameter" ∧ ∃ name ∈ p.ownChildren.head?, name.kind ∈ splats

/-- The mark `/` behind the parameters that can be given by position only. -/
def IsSlash (p : Tree) : Prop := p.kind = "positional_separator"

instance (p : Tree) : Decidable (IsStar p) := inferInstanceAs (Decidable (_ ∨ _ ∨ _ ∧ _))

instance (p : Tree) : Decidable (IsSlash p) := inferInstanceAs (Decidable (_ = _))

/-- The parameters after the last `/` before the first star, which can be given by name. -/
def callable (ps : List Tree) : List Tree :=
  (ps.takeWhile fun p => ¬IsStar p).rtakeWhile fun p => ¬IsSlash p

/-- The parameter of a name, if that is an `identifier`, with the text of its annotation. -/
def named? (s : Source) (name : Tree) (declaredType : String) : Option Parameter :=
  if name.kind = "identifier" then some ⟨textOf s name, declaredType⟩ else none

/-- The parameter that a tree states: `name`, `name: annotation`, `name = value` or
`name: annotation = value`. -/
def stated? (s : Source) (p : Tree) : Option Parameter :=
  match p.kind with
  | "identifier" => some ⟨textOf s p, ""⟩
  | "typed_parameter" | "typed_default_parameter" =>
    match p.ownChildren with
    | name :: _ :: declared :: _ => named? s name (textOf s declared)
    | _ => none
  | "default_parameter" => p.ownChildren.head?.bind fun name => named? s name ""
  | _ => none

/-! ## What the grammar says of the parameters of each form -/

/-- The forms of what stands in a parameter list, apart from comments and the like. -/
def forms : List String :=
  ["identifier", "typed_parameter", "default_parameter", "typed_default_parameter", "list_splat_pattern",
    "tuple_pattern", "keyword_separator", "positional_separator", "dictionary_splat_pattern"]

/-- The named children of a parameter list are of these `forms`, or extra. -/
theorem kind_of_mem_parameters {ps p : Tree} (h : grammar.Conforms ps) (hnamed : ps.tag.named = true)
    (hkind : ps.kind = "parameters") (hp : p ∈ ps.namedChildren) : p.kind ∈ forms ++ grammar.extras := by
  obtain ⟨hchild, hpnamed⟩ := List.mem_filter.mp hp
  have hcovers : (grammar.bodies "parameters").all fun r => (grammar.outline 4 (none, none) r).any fun o =>
      o.symbols.all fun a => !a.named || decide (a.kind ∈ forms) := by decide
  rcases h.covers hnamed hkind hcovers p hchild with htrivia | ⟨-, hform⟩
  · exact List.mem_append_right _ htrivia.kind_mem
  · have hpnamed : p.appearance.named = true := hpnamed
    rw [hpnamed, Bool.not_true, Bool.false_or] at hform
    exact List.mem_append_left _ (of_decide_eq_true hform)

/-- The parts of an annotated parameter. -/
def typedRules : List Rule :=
  [choices [ref "identifier", ref "list_splat_pattern", ref "dictionary_splat_pattern"], ":", field "type" (ref "type")]

/-- How the parts of `typedRules` are told. -/
def typedParts : List (Appearance → Bool) :=
  [fun a => a.named && a.field == none && decide (a.kind ∈ "identifier" :: splats), fun a => a.field == none,
    fun a => a.field == some "type"]

/-- The parts of a parameter with a default. -/
def defaultRules : List Rule :=
  [field "name" (choices [ref "identifier", ref "tuple_pattern"]), "=", field "value" (ref "expression")]

/-- How the parts of `defaultRules` are told. -/
def defaultParts : List (Appearance → Bool) :=
  [fun a => a.field == some "name", fun a => a.field == none, fun a => a.field == some "value"]

/-- The parts of a parameter with an annotation and a default. -/
def typedDefaultRules : List Rule :=
  [field "name" (ref "identifier"), ":", field "type" (ref "type"), "=", field "value" (ref "expression")]

/-- How those parts of `typedDefaultRules` are told that matter here. -/
def typedDefaultParts : List (Appearance → Bool) :=
  [fun a => a.field == some "name", fun a => a.field == none, fun a => a.field == some "type", fun _ => true,
    fun _ => true]

/-- The grammar has one rule for each of the three forms with parts. -/
theorem bodies_parameter :
    grammar.bodies "typed_parameter" = [atLevel Level.typedParameter.rank (seqs typedRules)] ∧
      grammar.bodies "default_parameter" = [seqs defaultRules] ∧
      grammar.bodies "typed_default_parameter" = [atLevel Level.typedParameter.rank (seqs typedDefaultRules)] := by
  decide

theorem passes_parameter :
    grammar.passes 1 typedRules typedParts = true ∧ grammar.passes 4 defaultRules defaultParts = true ∧
      grammar.passes 4 typedDefaultRules typedDefaultParts = true := by
  decide

/-- An annotated parameter: its name, which no comment stands before, `:`, and the annotation. -/
theorem exists_typed {p : Tree} (h : grammar.Conforms p) (hnamed : p.tag.named = true)
    (hkind : p.kind = "typed_parameter") :
    ∃ name colon declared, p.ownChildren = [name, colon, declared] ∧ name.kind ∈ "identifier" :: splats ∧
      p.namedChildren.head? = some name ∧ p.child? "type" = some declared := by
  obtain ⟨b, hyields⟩ := h.exists_yields hnamed hkind bodies_parameter.1
  have hsequence : IsSequence typedParts p.children := by
    cases hyields with
    | prec hyields => exact isSequence_of_yields 1 hyields passes_parameter.1
  obtain ⟨name, colon, declared, hown, hname, hcolon, hdeclared⟩ := hsequence.exists_three
  simp only [Tree.appearance, Bool.and_eq_true, beq_iff_eq] at hname hcolon hdeclared
  obtain ⟨⟨hnamed, hfield⟩, hname⟩ := hname
  refine ⟨name, colon, declared, hown, of_decide_eq_true hname, ?_, ?_⟩
  · rw [hsequence.head?_namedChildren (by simp [hown, hnamed]), hown, List.head?_cons]
  · rw [hsequence.child?_eq, hown]
    simp [hfield, hcolon, hdeclared]

/-- A parameter with a default: its name, `=`, and the value. -/
theorem exists_default {p : Tree} (h : grammar.Conforms p) (hnamed : p.tag.named = true)
    (hkind : p.kind = "default_parameter") :
    ∃ name mark value, p.ownChildren = [name, mark, value] ∧ p.child? "name" = some name ∧
      p.child? "type" = none := by
  obtain ⟨b, hyields⟩ := h.exists_yields hnamed hkind bodies_parameter.2.1
  have hsequence : IsSequence defaultParts p.children := isSequence_of_yields 4 hyields passes_parameter.2.1
  obtain ⟨name, mark, value, hown, hname, hmark, hvalue⟩ := hsequence.exists_three
  simp only [Tree.appearance, beq_iff_eq] at hname hmark hvalue
  refine ⟨name, mark, value, hown, ?_, ?_⟩
  · rw [hsequence.child?_eq, hown]
    simp [hname]
  · rw [hsequence.child?_eq, hown]
    simp [hname, hmark, hvalue]

/-- A parameter with an annotation and a default: its name, `:`, the annotation, `=`, the value. -/
theorem exists_typedDefault {p : Tree} (h : grammar.Conforms p) (hnamed : p.tag.named = true)
    (hkind : p.kind = "typed_default_parameter") :
    ∃ name colon declared mark value, p.ownChildren = [name, colon, declared, mark, value] ∧
      p.child? "name" = some name ∧ p.child? "type" = some declared := by
  obtain ⟨b, hyields⟩ := h.exists_yields hnamed hkind bodies_parameter.2.2
  have hsequence : IsSequence typedDefaultParts p.children := by
    cases hyields with
    | prec hyields => exact isSequence_of_yields 4 hyields passes_parameter.2.2
  obtain ⟨name, colon, declared, mark, value, hown, hname, hcolon, htype, -, -⟩ := hsequence.exists_five
  simp only [Tree.appearance, beq_iff_eq] at hname hcolon htype
  refine ⟨name, colon, declared, mark, value, hown, ?_, ?_⟩
  · rw [hsequence.child?_eq, hown]
    simp [hname]
  · rw [hsequence.child?_eq, hown]
    simp [hname, hcolon, htype]

/-! ## What is collected -/

/-- Something that may stand in a parameter list: a parameter, a separator, or a comment. -/
structure IsItem (p : Tree) : Prop where
  conforms : grammar.Conforms p
  named : p.tag.named = true
  form : p.kind ∈ forms ++ grammar.extras

theorem ofTrees?_some (s : Source) (name : Tree) (declaredType : Option Tree) :
    ofTrees? s (some name) declaredType = named? s name ((declaredType.map (textOf s)).getD "") := by
  show ((ofKind? "identifier" name).bind fun n => some _) = _
  rw [ofKind?, named?]
  split <;> rfl

/-- From a star on `collect` adds nothing. -/
theorem collect_star (s : Source) {p : Tree} (hp : IsItem p) (hstar : IsStar p) (found : List Parameter)
    (ps : List Tree) : collect s found (p :: ps) = found := by
  rw [collect]
  rcases hstar with hkind | hkind | ⟨hkind, name, hname, hsplat⟩
  · rw [hkind]
    rfl
  · rw [splats, List.mem_cons, List.mem_singleton] at hkind
    rcases hkind with hkind | hkind <;> rw [hkind] <;> rfl
  · obtain ⟨name', colon, declared, hown, -, hhead, -⟩ := exists_typed hp.conforms hp.named hkind
    rw [hown] at hname
    cases hname
    have hne : name.kind ≠ "identifier" := by
      intro hidentifier
      rw [hidentifier] at hsplat
      exact absurd hsplat (by decide)
    rw [hkind, hhead]
    simp [ofKind?, hne]

/-- What was `found` is given up at a slash. -/
theorem collect_slash (s : Source) {p : Tree} (hslash : IsSlash p) (found : List Parameter) (ps : List Tree) :
    collect s found (p :: ps) = collect s [] ps := by
  rw [collect, hslash]
  rfl

section Stated

variable {s : Source} {p : Tree} {found : List Parameter} {ps : List Tree}

theorem collect_name (hkind : p.kind = "identifier") :
    collect s found (p :: ps) = collect s (found ++ (stated? s p).toList) ps := by
  have hstated : stated? s p = some ⟨textOf s p, ""⟩ := by
    rw [stated?, hkind]
    rfl
  rw [collect, hkind, hstated]
  simp [ofTrees?, ofKind?, hkind]

/-- An annotated name is a parameter, if it is no splat. -/
theorem collect_typed (hp : IsItem p) (hstar : ¬IsStar p) (hkind : p.kind = "typed_parameter") :
    collect s found (p :: ps) = collect s (found ++ (stated? s p).toList) ps := by
  obtain ⟨name, colon, declared, hown, hname, hhead, htype⟩ := exists_typed hp.conforms hp.named hkind
  have hname : name.kind = "identifier" := by
    rcases List.mem_cons.mp hname with hname | hsplat
    · exact hname
    · -- a splat would make the parameter a star
      exact absurd (.inr (.inr ⟨hkind, name, by rw [hown]; rfl, hsplat⟩)) hstar
  have hstated : stated? s p = some ⟨textOf s name, textOf s declared⟩ := by
    rw [stated?, hkind, hown]
    exact if_pos hname
  rw [collect, hkind, hhead, htype, hstated]
  simp [ofTrees?, ofKind?, hname]

/-- A name with a default is a parameter without an annotation. -/
theorem collect_default (hp : IsItem p) (hkind : p.kind = "default_parameter") :
    collect s found (p :: ps) = collect s (found ++ (stated? s p).toList) ps := by
  obtain ⟨name, mark, value, hown, hname, htype⟩ := exists_default hp.conforms hp.named hkind
  have hstated : stated? s p = named? s name "" := by
    rw [stated?, hkind, hown]
    rfl
  have hparts : ofTrees? s (p.child? "name") (p.child? "type") = named? s name "" := by
    rw [hname, htype, ofTrees?_some]
    rfl
  rw [collect, hkind, hstated, ← hparts]
  rfl

/-- A name with both is a parameter with an annotation. -/
theorem collect_typedDefault (hp : IsItem p) (hkind : p.kind = "typed_default_parameter") :
    collect s found (p :: ps) = collect s (found ++ (stated? s p).toList) ps := by
  obtain ⟨name, colon, declared, mark, value, hown, hname, htype⟩ := exists_typedDefault hp.conforms hp.named hkind
  have hstated : stated? s p = named? s name (textOf s declared) := by
    rw [stated?, hkind, hown]
    rfl
  have hparts : ofTrees? s (p.child? "name") (p.child? "type") = named? s name (textOf s declared) := by
    rw [hname, htype, ofTrees?_some]
    rfl
  rw [collect, hkind, hstated, ← hparts]
  rfl

/-- A tuple of names, a comment and a continued line add nothing in `collect`. -/
theorem collect_passed (hkind : p.kind = "tuple_pattern" ∨ p.kind ∈ grammar.extras) :
    collect s found (p :: ps) = collect s (found ++ (stated? s p).toList) ps := by
  have hkinds : p.kind = "tuple_pattern" ∨ p.kind = "comment" ∨ p.kind = "line_continuation" := by
    simpa [grammar] using hkind
  have hstated : stated? s p = none := by
    rw [stated?]
    rcases hkinds with hkind | hkind | hkind <;> rw [hkind] <;> rfl
  rw [collect, hstated, Option.toList_none, List.append_nil]
  rcases hkinds with hkind | hkind | hkind <;> rw [hkind] <;> rfl

/-- Of what is neither a star nor a slash, what it states is collected. -/
theorem collect_stated (hp : IsItem p) (hstar : ¬IsStar p) (hslash : ¬IsSlash p) :
    collect s found (p :: ps) = collect s (found ++ (stated? s p).toList) ps := by
  rcases List.mem_append.mp hp.form with hform | hextra
  · simp only [forms, List.mem_cons, List.not_mem_nil, or_false] at hform
    -- one case for each of the forms, of which three are stars and one is the slash
    rcases hform with hkind | hkind | hkind | hkind | hkind | hkind | hkind | hkind | hkind
    · exact collect_name hkind
    · exact collect_typed hp hstar hkind
    · exact collect_default hp hkind
    · exact collect_typedDefault hp hkind
    · exact absurd (.inr (.inl (by rw [hkind]; decide))) hstar
    · exact collect_passed (.inl hkind)
    · exact absurd (.inl hkind) hstar
    · exact absurd hkind hslash
    · exact absurd (.inr (.inl (by rw [hkind]; decide))) hstar
  · exact collect_passed (.inr hextra)

end Stated

/-! ## The whole list -/

/-- The longest run at the end of a list takes in the first item only if it takes in all of them. -/
theorem rtakeWhile_cons {α : Type} (p : α → Bool) (x : α) (xs : List α) :
    (x :: xs).rtakeWhile p = if p x = true ∧ ∀ y ∈ xs, p y = true then x :: xs else xs.rtakeWhile p := by
  -- backwards the first item comes last, and is reached if all others are taken in
  by_cases hall : ∀ y ∈ xs, p y = true
  · have htail : xs.rtakeWhile p = xs := List.rtakeWhile_eq_self_iff.mpr hall
    by_cases hx : p x = true
    · rw [if_pos ⟨hx, hall⟩]
      exact List.rtakeWhile_eq_self_iff.mpr (List.forall_mem_cons.mpr ⟨hx, hall⟩)
    · have hreverse : xs.reverse.takeWhile p = xs.reverse :=
        List.takeWhile_eq_self_iff.mpr fun y hy => hall y (List.mem_reverse.mp hy)
      rw [if_neg fun h => hx h.1, htail, List.rtakeWhile, List.reverse_cons, List.takeWhile_append, hreverse,
        if_pos rfl, List.takeWhile_cons_of_neg hx, List.append_nil, List.reverse_reverse]
  · have hne : (xs.reverse.takeWhile p).length ≠ xs.reverse.length := by
      intro hlength
      have hself := List.takeWhile_prefix p |>.eq_of_length hlength
      exact hall fun y hy => List.takeWhile_eq_self_iff.mp hself y (List.mem_reverse.mpr hy)
    rw [if_neg fun h => hall h.2, List.rtakeWhile, List.reverse_cons, List.takeWhile_append, if_neg hne]
    rfl

/-- Whether there is a `/` before the first star. -/
def HasSlash (ps : List Tree) : Prop := ∃ p ∈ ps.takeWhile fun p => ¬IsStar p, IsSlash p

instance (ps : List Tree) : Decidable (HasSlash ps) := inferInstanceAs (Decidable (∃ _ ∈ _, _))

theorem takeWhile_cons_of_not_isStar {p : Tree} (h : ¬IsStar p) (ps : List Tree) :
    ((p :: ps).takeWhile fun q => decide (¬IsStar q)) = p :: ps.takeWhile fun q => decide (¬IsStar q) :=
  List.takeWhile_cons_of_pos (decide_eq_true h)

theorem hasSlash_cons {p : Tree} (h : ¬IsStar p) (ps : List Tree) :
    HasSlash (p :: ps) ↔ IsSlash p ∨ HasSlash ps := by
  rw [HasSlash, takeWhile_cons_of_not_isStar h, List.exists_mem_cons_iff]
  rfl

/-- A parameter before the first star can be given by name if no slash follows, and it is none itself. -/
theorem callable_cons {p : Tree} (h : ¬IsStar p) (ps : List Tree) :
    callable (p :: ps) = if IsSlash p ∨ HasSlash ps then callable ps else p :: callable ps := by
  rw [callable, takeWhile_cons_of_not_isStar h, rtakeWhile_cons]
  by_cases hslash : IsSlash p ∨ HasSlash ps
  · rw [if_pos hslash, if_neg]
    · rfl
    · rintro ⟨hp, hall⟩
      rcases hslash with hslash | ⟨q, hq, hslash⟩
      · exact of_decide_eq_true hp hslash
      · exact of_decide_eq_true (hall q hq) hslash
  · obtain ⟨hp, hps⟩ := not_or.mp hslash
    have hall : ∀ q ∈ ps.takeWhile fun q => ¬IsStar q, decide (¬IsSlash q) = true :=
      fun q hq => decide_eq_true fun hslash => hps ⟨q, hq, hslash⟩
    have hself : callable ps = ps.takeWhile fun q => ¬IsStar q := List.rtakeWhile_eq_self_iff.mpr hall
    rw [if_neg hslash, if_pos ⟨decide_eq_true hp, hall⟩, hself]

/-- What was `found` before is given up if there is a slash before the first star. -/
theorem collect_append (s : Source) {ps : List Tree} (h : ∀ p ∈ ps, IsItem p) (found : List Parameter) :
    collect s found ps = (if HasSlash ps then [] else found) ++ (callable ps).filterMap (stated? s) := by
  induction ps generalizing found with
  | nil => simp [collect, callable, HasSlash]
  | cons p ps ih =>
    have hp := h p List.mem_cons_self
    have hps := ih fun q hq => h q (List.mem_cons_of_mem p hq)
    by_cases hstar : IsStar p
    · rw [collect_star s hp hstar]
      simp [callable, HasSlash, hstar]
    · rw [if_congr (hasSlash_cons hstar ps) rfl rfl, callable_cons hstar]
      by_cases hslash : IsSlash p
      · rw [collect_slash s hslash, hps, ite_self, if_pos (.inl hslash), if_pos (.inl hslash)]
      · rw [collect_stated hp hstar hslash, hps]
        by_cases hbehind : HasSlash ps
        · rw [if_pos hbehind, if_pos (.inr hbehind), if_pos (.inr hbehind)]
        · have hnot : ¬(IsSlash p ∨ HasSlash ps) := not_or.mpr ⟨hslash, hbehind⟩
          rw [if_neg hbehind, if_neg hnot, if_neg hnot, List.append_assoc, List.filterMap_cons]
          cases stated? s p <;> rfl

end Parameter

namespace FunctionDefinition

theorem fillsWith_function :
    grammar.fillsWith 4 "function_definition" "name" (fun _ => true) = true ∧
      grammar.fillsWith 4 "function_definition" "parameters" (fun a => a.kind == "parameters" && a.named) = true := by
  decide

/-- The parameter list of a function, and what may stand in it. -/
theorem exists_parameterList {d : Tree} (hkind : d.kind = "function_definition") (hnamed : d.tag.named = true)
    (h : grammar.Allows d) :
    ∃ list, d.child? "parameters" = some list ∧ list.kind = "parameters" ∧
      ∀ p ∈ list.namedChildren, Parameter.IsItem p := by
  obtain ⟨list, hlist, hmem, -, hshows⟩ := h.conforms.exists_child? hnamed hkind fillsWith_function.2
  obtain ⟨hkind, hnamed⟩ := Bool.and_eq_true_iff.mp hshows
  have hkind : list.kind = "parameters" := eq_of_beq hkind
  have hallows := h.child hmem
  refine ⟨list, hlist, hkind, fun p hp => ?_⟩
  exact ⟨(hallows.child (Tree.mem_children_of_mem_namedChildren hp)).conforms, (List.mem_filter.mp hp).2,
    Parameter.kind_of_mem_parameters hallows.conforms hnamed hkind hp⟩

theorem exists_name {d : Tree} (hkind : d.kind = "function_definition") (hnamed : d.tag.named = true)
    (h : grammar.Conforms d) : ∃ name, d.child? "name" = some name := by
  obtain ⟨name, hname, -⟩ := h.exists_child? hnamed hkind fillsWith_function.1
  exact ⟨name, hname⟩

/-- The parameters of a function that the grammar allows are what those parameters state that are `callable`: after
the last slash before the first star. -/
theorem parameters_eq_stated (s : Source) {d : Definition} (hkind : d.tree.kind = "function_definition")
    (hnamed : d.tree.tag.named = true) (h : grammar.Allows d.tree) :
    ∃ list, d.tree.child? "parameters" = some list ∧ list.kind = "parameters" ∧
      Parameter.collect s [] list.namedChildren =
        (Parameter.callable list.namedChildren).filterMap (Parameter.stated? s) ∧
      (d.decorators.filterMap (RouteDecorator.ofTree? s) ≠ [] →
        ∃ f, ofDefinition? s d = some f ∧
          f.parameters = (Parameter.callable list.namedChildren).filterMap (Parameter.stated? s)) := by
  obtain ⟨list, hlist, hlistkind, hitems⟩ := exists_parameterList hkind hnamed h
  obtain ⟨name, hname⟩ := exists_name hkind hnamed h.conforms
  have hcollect : Parameter.collect s [] list.namedChildren =
      (Parameter.callable list.namedChildren).filterMap (Parameter.stated? s) := by
    rw [Parameter.collect_append s hitems, ite_self, List.nil_append]
  refine ⟨list, hlist, hlistkind, hcollect, fun hdecorators => ?_⟩
  simp only [ofDefinition?, hkind, hname, hdecorators, guard_true, Option.bind_eq_bind, Option.pure_def,
    Option.bind_some, ne_eq, not_false_eq_true, Option.some.injEq, exists_eq_left', hlist, Option.map_some,
    Option.getD_some]
  exact hcollect

end FunctionDefinition

namespace Sample

/-- A route whose parameters have all forms but a bare star. -/
def called : String :=
  "@app.get(\"/a\")\ndef f(a, b: int, /, c, (d, e), g: str = \"x\",  # last\n      h=1, *args: int, k): ...\n"

/-- The function in `called`. -/
def calledFunction : Tree :=
  construct "function_definition" 15 98 [
    token "def" 15,
    inField "name" <| construct "identifier" 19 20 [],
    inField "parameters" <| construct "parameters" 20 93 [
      token "(" 20,
      construct "identifier" 21 22 [],
      token "," 22,
      construct "typed_parameter" 24 30 [
        construct "identifier" 24 25 [],
        token ":" 25,
        inField "type" <| construct "type" 27 30 [construct "identifier" 27 30 []]],
      token "," 30,
      construct "positional_separator" 32 33 [token "/" 32],
      token "," 33,
      construct "identifier" 35 36 [],
      token "," 36,
      construct "tuple_pattern" 38 44 [
        token "(" 38,
        construct "identifier" 39 40 [],
        token "," 40,
        construct "identifier" 42 43 [],
        token ")" 43],
      token "," 44,
      construct "typed_default_parameter" 46 58 [
        inField "name" <| construct "identifier" 46 47 [],
        token ":" 47,
        inField "type" <| construct "type" 49 52 [construct "identifier" 49 52 []],
        token "=" 53,
        inField "value" <| construct "string" 55 58 [
          construct "string_start" 55 56 [],
          construct "string_content" 56 57 [],
          construct "string_end" 57 58 []]],
      token "," 58,
      trivia "comment" 61 67,
      construct "default_parameter" 74 77 [
        inField "name" <| construct "identifier" 74 75 [],
        token "=" 75,
        inField "value" <| construct "integer" 76 77 []],
      token "," 77,
      construct "typed_parameter" 79 89 [
        construct "list_splat_pattern" 79 84 [token "*" 79, construct "identifier" 80 84 []],
        token ":" 84,
        inField "type" <| construct "type" 86 89 [construct "identifier" 86 89 []]],
      token "," 89,
      construct "identifier" 91 92 [],
      token ")" 92],
    token ":" 93,
    inField "body" <| construct "block" 95 98 [dots 95]]

/-- The function in `called` with its decorator. -/
def calledDefinition : Definition := ⟨calledFunction, [construct "decorator" 0 14 [token "@" 0, route 1]]⟩

end Sample

/-- Collected are the three between the slash and the star that have a name. -/
theorem FunctionDefinition.parameters_called :
    grammar.Allows Sample.calledFunction ∧
      (∃ list, Sample.calledFunction.child? "parameters" = some list ∧ list.kind = "parameters" ∧
        Parameter.collect (.ofString Sample.called) [] list.namedChildren =
          (Parameter.callable list.namedChildren).filterMap (Parameter.stated? (.ofString Sample.called)) ∧
        (Sample.calledDefinition.decorators.filterMap (RouteDecorator.ofTree? (.ofString Sample.called)) ≠ [] →
          ∃ f, ofDefinition? (.ofString Sample.called) Sample.calledDefinition = some f ∧
            f.parameters =
              (Parameter.callable list.namedChildren).filterMap (Parameter.stated? (.ofString Sample.called)))) ∧
      (ofDefinition? (.ofString Sample.called) Sample.calledDefinition).map (·.parameters) =
        some [⟨"c", ""⟩, ⟨"g", "str"⟩, ⟨"h", ""⟩] := by
  have hcheck : ∀ n ∈ Sample.calledFunction.nodes, grammar.check 4 n = true := by decide +kernel
  refine ⟨allows_of_check hcheck, ?_, by decide⟩
  exact parameters_eq_stated (.ofString Sample.called) (d := Sample.calledDefinition) rfl rfl (allows_of_check hcheck)

end PayloadAtlas.Python
