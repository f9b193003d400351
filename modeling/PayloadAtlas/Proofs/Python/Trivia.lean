import Mathlib.Data.Option.Basic
import PayloadAtlas.Proofs.Tree.Bare
import PayloadAtlas.Python.Module

/-!
# Comments and continued lines

Comments and continued lines may stand between the children of any node (`Trivia`), and what a module defines
is the same without them, as long as none stands where it is taken for something else
(`Module.ofTree_bare`): within a concatenated string that a decorator is given, before the first positional
argument of a decorator or before what is called, or, for a continued line, among the bases of a class
(`PlainDecorator`, `PlainBases`). The law is shown for each of the loops that read a definition. An extra node
before what a decorator calls hides the route (`RouteDecorator.ofTree?_eq_none`).
-/

namespace PayloadAtlas.Python

open PayloadAtlas.Text

/-- The constructs that begin with a part of their own, and so never with an extra node. -/
def leading : List String := ["string", "function_definition", "expression_statement", "typed_parameter"]

/-- The extra children of a node are comments and continued lines. No string, function, statement or typed parameter
begins with one, and no string ends with one; statements and typed parameters begin with what they are about. The
constructs are those of `leading`. -/
structure Trivia (n : Tree) : Prop where
  extra : ∀ c ∈ n.children, c.isExtra = true →
    c.children = [] ∧ c.tag.field = none ∧ (c.kind = "comment" ∨ c.kind = "line_continuation")
  first : n.kind ∈ leading → ∀ c ∈ n.children.head?, c.isExtra = false
  last : n.kind = "string" → ∀ c ∈ n.children.getLast?, c.isExtra = false
  named : n.kind = "expression_statement" ∨ n.kind = "typed_parameter" →
    ∀ c ∈ n.children.head?, c.tag.named = true

/-- All nodes of a tree are as `Trivia` says. -/
def HasTrivia (t : Tree) : Prop := ∀ n ∈ t.nodes, Trivia n

/-- The arguments of the call that a decorator begins with. -/
def argumentsOf (decorator : Tree) : List Tree :=
  ((decorator.namedChildren.head?.bind (ofKind? "call")).bind fun call =>
    (call.child? "arguments").bind (ofKind? "argument_list")).elim [] Tree.namedChildren

/-- The attribute that a decorator calls, if it begins with a call. -/
def calleeOf? (decorator : Tree) : Option Tree :=
  (decorator.namedChildren.head?.bind (ofKind? "call")).bind fun call =>
    ((call.child? "function").bind (ofKind? "attribute")).bind (Tree.child? · "attribute")

/-- Whether an argument is passed over when the first positional one is looked for. -/
def isPassed (argument : Tree) : Bool :=
  argument.isExtra || argument.kind ∈ ["comment", "keyword_argument", "dictionary_splat"]

/-- No extra node of a `decorator` is taken for something else. -/
structure PlainDecorator (d : Tree) : Prop where
  first : ∀ c ∈ d.namedChildren.head?, c.isExtra = false
  positional : ∀ c ∈ (argumentsOf d).takeWhile isPassed, c.isExtra = true → c.kind = "comment"
  literals : ∀ a ∈ argumentsOf d, ∀ v ∈ a :: (a.child? "value").toList,
    v.kind = "concatenated_string" → ∀ c ∈ v.children, c.isExtra = false

/-- No `line_continuation` stands among the bases of a class. -/
def PlainBases (c : Tree) : Prop :=
  ∀ l ∈ c.child? "superclasses", ∀ b ∈ l.children, b.isExtra = true → b.kind = "comment"

/-! ## Trivia -/

instance (n : Tree) : Decidable (Trivia n) :=
  decidable_of_iff
    ((∀ c ∈ n.children, c.isExtra = true →
        c.children = [] ∧ c.tag.field = none ∧ (c.kind = "comment" ∨ c.kind = "line_continuation")) ∧
      (n.kind ∈ leading → ∀ c ∈ n.children.head?, c.isExtra = false) ∧
      (n.kind = "string" → ∀ c ∈ n.children.getLast?, c.isExtra = false) ∧
      (n.kind = "expression_statement" ∨ n.kind = "typed_parameter" →
        ∀ c ∈ n.children.head?, c.tag.named = true))
    ⟨fun ⟨extra, first, last, named⟩ => ⟨extra, first, last, named⟩,
      fun ⟨extra, first, last, named⟩ => ⟨extra, first, last, named⟩⟩

instance (t : Tree) : Decidable (HasTrivia t) := inferInstanceAs (Decidable (∀ n ∈ t.nodes, Trivia n))

instance (d : Tree) : Decidable (PlainDecorator d) :=
  decidable_of_iff
    ((∀ c ∈ d.namedChildren.head?, c.isExtra = false) ∧
      (∀ c ∈ (argumentsOf d).takeWhile isPassed, c.isExtra = true → c.kind = "comment") ∧
      (∀ a ∈ argumentsOf d, ∀ v ∈ a :: (a.child? "value").toList,
        v.kind = "concatenated_string" → ∀ c ∈ v.children, c.isExtra = false))
    ⟨fun ⟨first, positional, literals⟩ => ⟨first, positional, literals⟩,
      fun ⟨first, positional, literals⟩ => ⟨first, positional, literals⟩⟩

instance (c : Tree) : Decidable (PlainBases c) :=
  inferInstanceAs (Decidable (∀ l ∈ c.child? "superclasses", ∀ b ∈ l.children,
    b.isExtra = true → b.kind = "comment"))

theorem HasTrivia.self {t : Tree} (h : HasTrivia t) : Trivia t := h t t.mem_nodes_self

theorem HasTrivia.child {t c : Tree} (h : HasTrivia t) (hc : c ∈ t.children) : HasTrivia c :=
  fun _ hn => h _ (Tree.nodes_trans (Tree.mem_nodes_of_mem_children hc) hn)

theorem HasTrivia.child?_bare {t : Tree} (h : HasTrivia t) (field : String) :
    t.bare.child? field = (t.child? field).map Tree.bare :=
  Tree.child?_bare (fun c hc hextra => (h.self.extra c hc hextra).2.1) field

theorem HasTrivia.head?_namedChildren_bare {t : Tree} (h : HasTrivia t)
    (hkind : t.kind = "expression_statement" ∨ t.kind = "typed_parameter") :
    t.bare.namedChildren.head? = t.namedChildren.head?.map Tree.bare := by
  apply Tree.head?_namedChildren_bare
  rw [Tree.head?_namedChildren (h.self.named hkind)]
  refine h.self.first ?_
  rcases hkind with hkind | hkind <;> rw [hkind] <;> decide

@[simp] theorem textOf_bare (s : Source) (t : Tree) : textOf s t.bare = textOf s t := by
  rw [textOf, textOf, Tree.span_bare]

@[simp] theorem lineOf_bare (s : Source) (t : Tree) : lineOf s t.bare = lineOf s t := by
  rw [lineOf, lineOf, Tree.span_bare]

@[simp] theorem ofKind?_bare (kind : String) (t : Tree) :
    ofKind? kind t.bare = (ofKind? kind t).map Tree.bare := by
  rw [ofKind?, ofKind?, Tree.kind_bare]
  split <;> rfl

theorem eq_of_ofKind? {kind : String} {t u : Tree} (h : ofKind? kind t = some u) :
    u = t ∧ t.kind = kind := by
  rw [ofKind?] at h
  split at h
  · next hkind => exact ⟨(Option.some.inj h).symm, hkind⟩
  · cases h

/-- A tree of some kind that is looked for in a field. -/
theorem bind_ofKind?_bare (kind : String) (t? : Option Tree) :
    (t?.map Tree.bare).bind (ofKind? kind) = (t?.bind (ofKind? kind)).map Tree.bare := by
  cases t? with
  | none => rfl
  | some t => exact ofKind?_bare kind t

theorem HasTrivia.field {t c : Tree} (h : HasTrivia t) {field : String} (hc : t.child? field = some c) : HasTrivia c :=
  h.child (Tree.mem_children_of_child? hc)

theorem HasTrivia.fieldOf {t c : Tree} (h : HasTrivia t) {field kind : String}
    (hc : (t.child? field).bind (ofKind? kind) = some c) : HasTrivia c := by
  obtain ⟨u, hu, hkind⟩ := Option.bind_eq_some_iff.mp hc
  obtain ⟨rfl, _⟩ := eq_of_ofKind? hkind
  exact h.field hu

theorem HasTrivia.firstOf {t c : Tree} (h : HasTrivia t) {kind : String}
    (hc : t.namedChildren.head?.bind (ofKind? kind) = some c) : HasTrivia c := by
  obtain ⟨u, hu, hkind⟩ := Option.bind_eq_some_iff.mp hc
  obtain ⟨rfl, _⟩ := eq_of_ofKind? hkind
  exact h.child (Tree.mem_children_of_mem_namedChildren (List.mem_of_head? hu))

/-! ## Literals -/

namespace Literal

/-- A literal begins and ends with marks of its own, so that `single?` is the same without extra nodes. -/
theorem single?_bare (s : Source) {t : Tree} (h : HasTrivia t) : single? s t.bare = single? s t := by
  rw [single?, single?, Tree.kind_bare]
  by_cases hkind : t.kind = "string"
  · have hleading : t.kind ∈ leading := by
      rw [hkind]
      decide
    rw [Tree.head?_children_bare (h.self.first hleading), Tree.getLast?_children_bare (h.self.last hkind)]
    cases t.children.head? with
    | none => rfl
    | some opening =>
      cases t.children.getLast? with
      | none => simp
      | some closing => simp
  · simp [hkind]

theorem ofTree?_bare (s : Source) {t : Tree} (h : HasTrivia t)
    (hplain : t.kind = "concatenated_string" → ∀ c ∈ t.children, c.isExtra = false) :
    ofTree? s t.bare = ofTree? s t := by
  rw [ofTree?, ofTree?, Tree.kind_bare]
  split
  · exact single?_bare s h
  · next hkind =>
    have hnone : (t.namedChildren.filter fun c => !c.isExtra) = t.namedChildren := by
      apply List.filter_eq_self.mpr
      intro c hc
      rw [hplain hkind c (Tree.mem_children_of_mem_namedChildren hc)]
      rfl
    have hparts : ∀ c ∈ t.namedChildren, single? s c.bare = single? s c :=
      fun c hc => single?_bare s (h.child (Tree.mem_children_of_mem_namedChildren hc))
    rw [Tree.namedChildren_bare, hnone]
    congr 1
    generalize t.namedChildren = cs at hparts
    induction cs with
    | nil => rfl
    | cons c cs ih =>
      rw [List.map_cons, List.mapM_cons, List.mapM_cons, hparts c List.mem_cons_self,
        ih fun d hd => hparts d (List.mem_cons_of_mem c hd)]
  · rfl

end Literal

/-! ## Routes -/

/-- A decorator that begins with its call has the same `argumentsOf`, each without its own extra nodes. -/
theorem argumentsOf_bare {d : Tree} (h : HasTrivia d)
    (hfirst : ∀ c ∈ d.namedChildren.head?, c.isExtra = false) :
    argumentsOf d.bare = ((argumentsOf d).filter fun c => !c.isExtra).map Tree.bare := by
  rw [argumentsOf, argumentsOf, Tree.head?_namedChildren_bare hfirst, bind_ofKind?_bare]
  cases hcall : d.namedChildren.head?.bind (ofKind? "call") with
  | none => rfl
  | some call =>
    have hcall : HasTrivia call := h.firstOf hcall
    simp only [Option.map_some, Option.bind_some]
    rw [hcall.child?_bare, bind_ofKind?_bare]
    cases (call.child? "arguments").bind (ofKind? "argument_list") with
    | none => rfl
    | some l => exact l.namedChildren_bare

/-- The arguments of a decorator are nodes of it, and so have the trivia that it has. -/
theorem hasTrivia_of_mem_argumentsOf {d a : Tree} (h : HasTrivia d) (ha : a ∈ argumentsOf d) :
    HasTrivia a ∧ ∃ l, HasTrivia l ∧ a ∈ l.children := by
  rw [argumentsOf] at ha
  cases hl : (d.namedChildren.head?.bind (ofKind? "call")).bind fun call =>
      (call.child? "arguments").bind (ofKind? "argument_list") with
  | none =>
    rw [hl] at ha
    cases ha
  | some l =>
    rw [hl] at ha
    obtain ⟨call, hcall, hl⟩ := Option.bind_eq_some_iff.mp hl
    have hlist : HasTrivia l := (h.firstOf hcall).fieldOf hl
    have hmem : a ∈ l.children := Tree.mem_children_of_mem_namedChildren ha
    exact ⟨hlist.child hmem, l, hlist, hmem⟩

namespace RouteDecorator

/-- What an argument says of the path, by `pathArgument`, is told by its kind, its name and its value, none of which
is an extra node. -/
theorem pathArgument_bare (s : Source) {a : Tree} (h : HasTrivia a)
    (hliterals : ∀ v ∈ a :: (a.child? "value").toList, v.kind = "concatenated_string" →
      ∀ c ∈ v.children, c.isExtra = false) : pathArgument s a.bare = pathArgument s a := by
  have hname : (a.bare.child? "name").map (textOf s) = (a.child? "name").map (textOf s) := by
    rw [h.child?_bare]
    cases a.child? "name" <;> simp
  have hvalue : (a.bare.child? "value").bind (Literal.ofTree? s) =
      (a.child? "value").bind (Literal.ofTree? s) := by
    rw [h.child?_bare]
    cases hv : a.child? "value" with
    | none => rfl
    | some v =>
      have hchild : HasTrivia v := h.field hv
      exact Literal.ofTree?_bare s hchild (hliterals v (by simp [hv]))
  rw [pathArgument, pathArgument, Tree.kind_bare, hname, hvalue,
    Literal.ofTree?_bare s h (hliterals a List.mem_cons_self)]

/-- A `comment` says nothing about the path. -/
theorem pathArgument_comment (s : Source) {a : Tree} (h : a.kind = "comment") :
    pathArgument s a = .other := by
  rw [pathArgument, h]
  rfl

/-- A `line_continuation` is taken for a positional argument, but not for a literal. -/
theorem pathArgument_line_continuation (s : Source) {a : Tree} (h : a.kind = "line_continuation") :
    pathArgument s a = .positional none := by
  rw [pathArgument, Literal.ofTree?, h]
  rfl

/-- An argument that is not passed is positional. -/
theorem pathArgument_of_not_isPassed (s : Source) {a : Tree} (h : isPassed a = false) :
    pathArgument s a = .positional (Literal.ofTree? s a) := by
  have hkind : a.kind ≠ "comment" ∧ a.kind ≠ "keyword_argument" ∧ a.kind ≠ "dictionary_splat" := by
    simpa [isPassed] using (Bool.or_eq_false_iff.mp h).2
  rw [pathArgument]
  split
  · next heq => exact absurd heq hkind.1
  · next heq => exact absurd heq hkind.2.2
  · next heq => exact absurd heq hkind.2.1
  · rfl

/-- An argument that is passed is not positional, unless it is extra. -/
theorem pathArgument_of_isPassed (s : Source) {a : Tree} (h : isPassed a = true)
    (hextra : a.isExtra = false) (text : Option String) : pathArgument s a ≠ .positional text := by
  have hkind : a.kind = "comment" ∨ a.kind = "keyword_argument" ∨ a.kind = "dictionary_splat" := by
    simpa [isPassed, hextra] using h
  rw [pathArgument]
  split
  · simp
  · simp
  · dsimp only
    split
    · split <;> simp
    · simp
  · next hcomment hsplat hkeyword =>
    rcases hkind with hkind | hkind | hkind
    · exact absurd hkind hcomment
    · exact absurd hkind hkeyword
    · exact absurd hkind hsplat

/-- After the first positional argument extra nodes say nothing about the path. -/
theorem pathOf_filter (s : Source) {args : List Tree}
    (hextra : ∀ a ∈ args, a.isExtra = true → a.kind = "comment" ∨ a.kind = "line_continuation")
    (path : Option String) :
    pathOf false path ((args.filter fun a => !a.isExtra).map (pathArgument s)) =
      pathOf false path (args.map (pathArgument s)) := by
  -- each extra node leaves the path as it was found so far
  induction args generalizing path with
  | nil => rfl
  | cons a args ih =>
    have hrest := ih fun b hb => hextra b (List.mem_cons_of_mem a hb)
    cases ha : a.isExtra with
    | true =>
      rw [List.filter_cons_of_neg (by simp [ha]), hrest, List.map_cons]
      rcases hextra a List.mem_cons_self ha with hkind | hkind
      · rw [pathArgument_comment s hkind]
        rfl
      · rw [pathArgument_line_continuation s hkind]
        rfl
    | false =>
      rw [List.filter_cons_of_pos (by simp [ha]), List.map_cons, List.map_cons]
      cases pathArgument s a with
      | named text => exact hrest _
      | positional text => exact hrest _
      | other => exact hrest _

/-- Before the first positional argument comments say nothing about the path. -/
theorem pathOf_filter_of_positional (s : Source) {args : List Tree}
    (hextra : ∀ a ∈ args, a.isExtra = true → a.kind = "comment" ∨ a.kind = "line_continuation")
    (hpassed : ∀ a ∈ args.takeWhile isPassed, a.isExtra = true → a.kind = "comment")
    (path : Option String) :
    pathOf true path ((args.filter fun a => !a.isExtra).map (pathArgument s)) =
      pathOf true path (args.map (pathArgument s)) := by
  induction args generalizing path with
  | nil => rfl
  | cons a args ih =>
    have hextra' : ∀ b ∈ args, b.isExtra = true → b.kind = "comment" ∨ b.kind = "line_continuation" :=
      fun b hb => hextra b (List.mem_cons_of_mem a hb)
    cases hp : isPassed a with
    | true =>
      rw [List.takeWhile_cons_of_pos hp] at hpassed
      have hrest := ih hextra' fun b hb => hpassed b (List.mem_cons_of_mem a hb)
      cases ha : a.isExtra with
      | true =>
        rw [List.filter_cons_of_neg (by simp [ha]), hrest, List.map_cons,
          pathArgument_comment s (hpassed a List.mem_cons_self ha)]
        rfl
      | false =>
        rw [List.filter_cons_of_pos (by simp [ha]), List.map_cons, List.map_cons]
        cases harg : pathArgument s a with
        | named text => exact hrest _
        | positional text => exact absurd harg (pathArgument_of_isPassed s hp ha text)
        | other => exact hrest _
    | false =>
      have ha : a.isExtra = false := by
        rw [isPassed, Bool.or_eq_false_iff] at hp
        exact hp.1
      rw [List.filter_cons_of_pos (by simp [ha]), List.map_cons, List.map_cons,
        pathArgument_of_not_isPassed s hp]
      -- from the first positional argument on no other one counts
      exact pathOf_filter s hextra' _

theorem ofTree?_eq (s : Source) (d : Tree) :
    ofTree? s d = (calleeOf? d).map fun callee =>
      ⟨textOf s callee, pathOf true none ((argumentsOf d).map (pathArgument s))⟩ := by
  simp only [ofTree?, calleeOf?, argumentsOf, Option.bind_eq_bind, Option.pure_def]
  cases d.namedChildren.head?.bind (ofKind? "call") with
  | none => rfl
  | some call =>
    simp only [Option.bind_some]
    cases (call.child? "function").bind (ofKind? "attribute") with
    | none => rfl
    | some function =>
      simp only [Option.bind_some]
      cases function.child? "attribute" with
      | none => rfl
      | some callee => cases (call.child? "arguments").bind (ofKind? "argument_list") <;> rfl

/-- A decorator that begins with its call calls the same attribute. -/
theorem calleeOf?_bare {d : Tree} (h : HasTrivia d)
    (hfirst : ∀ c ∈ d.namedChildren.head?, c.isExtra = false) :
    calleeOf? d.bare = (calleeOf? d).map Tree.bare := by
  rw [calleeOf?, calleeOf?, Tree.head?_namedChildren_bare hfirst, bind_ofKind?_bare]
  cases hcall : d.namedChildren.head?.bind (ofKind? "call") with
  | none => rfl
  | some call =>
    have hcall : HasTrivia call := h.firstOf hcall
    simp only [Option.map_some, Option.bind_some]
    rw [hcall.child?_bare, bind_ofKind?_bare]
    cases hfunction : (call.child? "function").bind (ofKind? "attribute") with
    | none => rfl
    | some function =>
      exact (hcall.fieldOf hfunction).child?_bare "attribute"

theorem ofTree?_bare (s : Source) {d : Tree} (h : HasTrivia d) (hd : PlainDecorator d) :
    ofTree? s d.bare = ofTree? s d := by
  have hextra : ∀ a ∈ argumentsOf d, a.isExtra = true → a.kind = "comment" ∨ a.kind = "line_continuation" := by
    intro a ha hextra
    obtain ⟨_, l, hl, hmem⟩ := hasTrivia_of_mem_argumentsOf h ha
    exact (hl.self.extra a hmem hextra).2.2
  have hpath : pathOf true none ((argumentsOf d.bare).map (pathArgument s)) =
      pathOf true none ((argumentsOf d).map (pathArgument s)) := by
    have harguments : (argumentsOf d.bare).map (pathArgument s) =
        ((argumentsOf d).filter fun c => !c.isExtra).map (pathArgument s) := by
      rw [argumentsOf_bare h hd.first, List.map_map]
      refine List.map_congr_left fun a ha => ?_
      have ha : a ∈ argumentsOf d := List.mem_of_mem_filter ha
      exact pathArgument_bare s (hasTrivia_of_mem_argumentsOf h ha).1 (hd.literals a ha)
    rw [harguments, pathOf_filter_of_positional s hextra hd.positional]
  rw [ofTree?_eq, ofTree?_eq, hpath, calleeOf?_bare h hd.first, Option.map_map]
  congr 1
  funext callee
  simp

end RouteDecorator

/-! ## Parameters -/

namespace Parameter

theorem ofTrees?_bare (s : Source) (name declaredType : Option Tree) :
    ofTrees? s (name.map Tree.bare) (declaredType.map Tree.bare) = ofTrees? s name declaredType := by
  rw [ofTrees?, ofTrees?, bind_ofKind?_bare]
  cases name.bind (ofKind? "identifier") with
  | none => rfl
  | some n => cases declaredType <;> simp

/-- Extra nodes are no parameters, so that `collect` gives the same. -/
theorem collect_bare (s : Source) {ps : List Tree} (htrivia : ∀ p ∈ ps, HasTrivia p)
    (hextra : ∀ p ∈ ps, p.isExtra = true → p.kind = "comment" ∨ p.kind = "line_continuation")
    (found : List Parameter) :
    collect s found ((ps.filter fun p => !p.isExtra).map Tree.bare) = collect s found ps := by
  induction ps generalizing found with
  | nil => rfl
  | cons p ps ih =>
    have hrest := ih (fun q hq => htrivia q (List.mem_cons_of_mem p hq))
      fun q hq => hextra q (List.mem_cons_of_mem p hq)
    have hp := htrivia p List.mem_cons_self
    cases he : p.isExtra with
    | true =>
      rw [List.filter_cons_of_neg (by simp [he]), hrest, collect]
      rcases hextra p List.mem_cons_self he with hkind | hkind <;> rw [hkind] <;> rfl
    | false =>
      rw [List.filter_cons_of_pos (by simp [he]), List.map_cons, collect, collect, Tree.kind_bare]
      split
      · have hname := ofTrees?_bare s (some p) none
        rw [Option.map_some, Option.map_none] at hname
        rw [hname, hrest]
      · next hkind =>
        rw [hp.head?_namedChildren_bare (.inr hkind), bind_ofKind?_bare, hp.child?_bare]
        cases p.namedChildren.head?.bind (ofKind? "identifier") with
        | none => rfl
        | some name =>
          have hname := ofTrees?_bare s (some name) (p.child? "type")
          rw [Option.map_some] at hname
          simp only [Option.map_some]
          rw [hname, hrest]
      · rw [hp.child?_bare, hp.child?_bare, ofTrees?_bare, hrest]
      · rw [hp.child?_bare, hp.child?_bare, ofTrees?_bare, hrest]
      · exact hrest []
      · rfl
      · rfl
      · rfl
      · exact hrest found

end Parameter

/-! ## Classes -/

namespace ClassDefinition

/-- The name of what a decorator uses or calls. -/
def targetName? (s : Source) (t : Tree) : Option String :=
  if t.kind = "identifier" then some (textOf s t)
  else if t.kind = "attribute" then (t.child? "attribute").map (textOf s)
  else none

/-- The name of a decorator is that of its first part, or of what this calls. -/
theorem decoratorName?_eq (s : Source) (d : Tree) :
    decoratorName? s d = d.namedChildren.head?.bind fun first =>
      (if first.kind = "call" then first.child? "function" else some first).bind (targetName? s) := by
  rw [decoratorName?, Option.bind_eq_bind]
  congr 1
  funext first
  by_cases hcall : first.kind = "call"
  all_goals
    simp only [hcall, if_true, if_false]
    congr 1
    funext target
    rw [targetName?]
    split
    · next hkind => rw [if_pos hkind]
    · next hkind =>
      rw [hkind]
      rfl
    · next hidentifier hattribute => rw [if_neg hidentifier, if_neg hattribute]

theorem targetName?_bare (s : Source) {t : Tree} (h : HasTrivia t) : targetName? s t.bare = targetName? s t := by
  rw [targetName?, targetName?, Tree.kind_bare, textOf_bare, h.child?_bare]
  cases t.child? "attribute" with
  | none => rfl
  | some name => simp only [Option.map_some, textOf_bare]

/-- A decorator that begins with no extra node has the same `decoratorName?` without those in it. -/
theorem decoratorName?_bare (s : Source) {d : Tree} (h : HasTrivia d)
    (hfirst : ∀ c ∈ d.namedChildren.head?, c.isExtra = false) :
    decoratorName? s d.bare = decoratorName? s d := by
  rw [decoratorName?_eq, decoratorName?_eq, Tree.head?_namedChildren_bare hfirst]
  cases hc : d.namedChildren.head? with
  | none => rfl
  | some first =>
    have htrivia : HasTrivia first :=
      h.child (Tree.mem_children_of_mem_namedChildren (List.mem_of_head? hc))
    simp only [Option.map_some, Option.bind_some]
    rw [Tree.kind_bare, htrivia.child?_bare]
    split
    · cases hfunction : first.child? "function" with
      | none => rfl
      | some function => exact targetName?_bare s (htrivia.field hfunction)
    · exact targetName?_bare s htrivia

/-- A comment is no base, so that `basesOf` gives the same without comments. -/
theorem basesOf_bare (s : Source) {l : Tree}
    (hextra : ∀ b ∈ l.children, b.isExtra = true → b.kind = "comment") :
    basesOf s l.bare = basesOf s l := by
  have htext : textOf s ∘ Tree.bare = textOf s := by
    funext t
    simp
  rw [basesOf, basesOf, Tree.namedChildren_bare, List.filter_map, List.map_map, htext, List.filter_filter]
  congr 1
  refine List.filter_congr fun b hb => ?_
  cases hb' : b.isExtra with
  | true =>
    have hkind := hextra b (Tree.mem_children_of_mem_namedChildren hb) hb'
    simp [hkind]
  | false => simp

mutual

/-- The targets and the value of an assignment are no extra nodes. -/
theorem chain_bare {t : Tree} (h : HasTrivia t) :
    chain t.bare = ((chain t).1.map Tree.bare, (chain t).2.map Tree.bare) := by
  match t with
  | .node tag cs =>
    have hin := chainIn_bare cs (fun c hc => h.child hc)
      fun c hc hextra => (h.self.extra c hc hextra).2.1
    have hleft := h.child?_bare "left"
    have hright := h.child?_bare "right"
    rw [Tree.bare] at hleft hright ⊢
    rw [chain, chain, hin, hleft, hright]
    cases chainIn cs with
    | none => cases (Tree.node tag cs).child? "left" <;> rfl
    | some found => cases (Tree.node tag cs).child? "left" <;> simp

/-- Among the children the value is found without extra nodes, which fill no field. -/
theorem chainIn_bare (cs : List Tree) (h : ∀ c ∈ cs, HasTrivia c)
    (hextra : ∀ c ∈ cs, c.isExtra = true → c.tag.field = none) :
    chainIn (Tree.bareIn cs) =
      (chainIn cs).map fun found => (found.1.map Tree.bare, found.2.map Tree.bare) := by
  match cs with
  | [] => rfl
  | c :: cs =>
    have hrest := chainIn_bare cs (fun d hd => h d (List.mem_cons_of_mem c hd))
      fun d hd => hextra d (List.mem_cons_of_mem c hd)
    rw [Tree.bareIn, chainIn]
    split
    · next he => rw [hrest, if_neg (by simp [hextra c List.mem_cons_self he])]
    · rw [chainIn, Tree.tag_bare, Tree.kind_bare, hrest]
      split
      · split
        · rw [chain_bare (h c List.mem_cons_self)]
          rfl
        · rfl
      · rfl

end

/-- A statement assigns the same fields, by `fieldsOf`, without extra nodes. -/
theorem fieldsOf_bare (s : Source) {t : Tree} (h : HasTrivia t) : fieldsOf s t.bare = fieldsOf s t := by
  rw [fieldsOf, fieldsOf, Tree.kind_bare]
  split
  · rfl
  · next hkind =>
    rw [h.head?_namedChildren_bare (.inl (not_not.mp hkind)), bind_ofKind?_bare]
    cases ha : t.namedChildren.head?.bind (ofKind? "assignment") with
    | none => rfl
    | some assignment =>
      have htrivia : HasTrivia assignment := h.firstOf ha
      simp only [Option.map_some]
      rw [htrivia.child?_bare, htrivia.child?_bare, htrivia.child?_bare, bind_ofKind?_bare,
        chain_bare htrivia]
      cases assignment.child? "type" with
      | some declaredType =>
        cases (assignment.child? "left").bind (ofKind? "identifier") with
        | none => rfl
        | some name => cases assignment.child? "right" <;> simp
      | none =>
        have hvalue : ((chain assignment).2.map Tree.bare).map (textOf s) =
            (chain assignment).2.map (textOf s) := by
          cases (chain assignment).2 <;> simp
        have hkinds : ((chain assignment).1.map Tree.bare).filter (·.kind = "identifier") =
            ((chain assignment).1.filter (·.kind = "identifier")).map Tree.bare := by
          rw [List.filter_map]
          congr 1
          exact List.filter_congr fun t _ => by simp
        simp only [Option.map_none, hvalue, hkinds, List.map_map]
        exact List.map_congr_left fun t _ => by simp

/-- Extra nodes in the body of a class are no fields, so that those found are the same in `b.bare`. -/
theorem flatMap_fieldsOf_bare (s : Source) {b : Tree} (h : HasTrivia b) :
    b.bare.namedChildren.flatMap (fieldsOf s) = b.namedChildren.flatMap (fieldsOf s) := by
  have hmem : ∀ c ∈ b.namedChildren, c ∈ b.children :=
    fun c hc => Tree.mem_children_of_mem_namedChildren hc
  rw [Tree.namedChildren_bare]
  generalize b.namedChildren = cs at hmem
  induction cs with
  | nil => rfl
  | cons c cs ih =>
    have hrest := ih fun d hd => hmem d (List.mem_cons_of_mem c hd)
    have hc := hmem c List.mem_cons_self
    cases he : c.isExtra with
    | true =>
      have hnone : fieldsOf s c = [] := by
        rw [fieldsOf, if_pos]
        rcases (h.self.extra c hc he).2.2 with hkind | hkind <;> rw [hkind] <;> decide
      rw [List.filter_cons_of_neg (by simp [he]), hrest, List.flatMap_cons, hnone, List.nil_append]
    | false =>
      rw [List.filter_cons_of_pos (by simp [he]), List.map_cons, List.flatMap_cons, List.flatMap_cons,
        fieldsOf_bare s (h.child hc), hrest]

end ClassDefinition

/-! ## Definitions -/

/-- A definition without its extra nodes. -/
def Definition.bare (d : Definition) : Definition := ⟨d.tree.bare, d.decorators.map Tree.bare⟩

/-- A comment or a continued line defines nothing, so `definitions` of it is empty. -/
theorem definitions_extra {c : Tree} (hchildren : c.children = [])
    (hkind : c.kind = "comment" ∨ c.kind = "line_continuation") (written : List Tree) :
    definitions written c = [] := by
  obtain ⟨tag, cs⟩ := c
  cases hchildren
  have hother : ¬(tag.kind = "class_definition" ∨ tag.kind = "function_definition") := by
    rcases hkind with hkind | hkind <;> rw [show tag.kind = _ from hkind] <;> decide
  rw [definitions, if_neg hother]
  rfl

mutual

/-- The definitions in `t.bare` are those in `t`, each without its extra nodes. -/
theorem definitions_bare {t : Tree} (h : HasTrivia t) (written : List Tree) :
    definitions (written.map Tree.bare) t.bare = (definitions written t).map Definition.bare := by
  match t with
  | .node tag cs =>
    have hextra := h.self.extra
    -- an extra node is no decorator, so that the decorators are the same
    have hdecorators : (Tree.bareIn cs).filter (fun c => c.tag.named && c.kind == "decorator") =
        (cs.filter fun c => c.tag.named && c.kind == "decorator").map Tree.bare := by
      rw [Tree.bareIn_eq, List.filter_map, List.filter_filter]
      congr 1
      refine List.filter_congr fun c hc => ?_
      cases he : c.isExtra with
      | true =>
        rcases (hextra c hc he).2.2 with hkind | hkind <;> simp [hkind]
      | false => simp
    have hin := definitionsIn_bare cs (fun c hc => h.child hc)
      (fun c hc he => ⟨(hextra c hc he).1, (hextra c hc he).2.2⟩)
    rw [Tree.bare, definitions, definitions, hdecorators, List.map_append]
    congr 1
    · split
      · rfl
      · rfl
    · split
      · exact hin _
      · exact hin []

theorem definitionsIn_bare (cs : List Tree) (h : ∀ c ∈ cs, HasTrivia c)
    (hextra : ∀ c ∈ cs, c.isExtra = true →
      c.children = [] ∧ (c.kind = "comment" ∨ c.kind = "line_continuation")) (written : List Tree) :
    definitionsIn (written.map Tree.bare) (Tree.bareIn cs) =
      (definitionsIn written cs).map Definition.bare := by
  match cs with
  | [] => rfl
  | c :: cs =>
    have hrest := definitionsIn_bare cs (fun d hd => h d (List.mem_cons_of_mem c hd))
      (fun d hd => hextra d (List.mem_cons_of_mem c hd)) written
    rw [Tree.bareIn, definitionsIn, List.map_append]
    split
    · next he =>
      obtain ⟨hchildren, hkind⟩ := hextra c List.mem_cons_self he
      rw [definitions_extra hchildren hkind, hrest]
      rfl
    · rw [definitionsIn, definitions_bare (h c List.mem_cons_self), hrest]

end

/-- A definition of a tree, and its decorators, are nodes of the tree. -/
structure Within (t : Tree) (d : Definition) : Prop where
  tree : d.tree ∈ t.nodes
  decorators : ∀ x ∈ d.decorators, x ∈ t.nodes ∧ x.kind = "decorator"

mutual

/-- What is found in a node of `u`, and what is written on it, are nodes of `u`. -/
theorem within_definitions {t u : Tree} (ht : t ∈ u.nodes) {written : List Tree}
    (hwritten : ∀ x ∈ written, x ∈ u.nodes ∧ x.kind = "decorator") :
    ∀ d ∈ definitions written t, Within u d := by
  match t with
  | .node tag cs =>
    have hchildren : ∀ c ∈ cs, c ∈ u.nodes :=
      fun c hc => Tree.nodes_trans ht (Tree.mem_nodes_of_mem_children hc)
    intro d hd
    rw [definitions, List.mem_append] at hd
    rcases hd with hd | hd
    · split at hd
      · cases List.mem_singleton.mp hd
        exact ⟨ht, hwritten⟩
      · cases hd
    · refine within_definitionsIn hchildren ?_ d hd
      intro x hx
      split at hx
      · obtain ⟨hx, hkind⟩ := List.mem_filter.mp hx
        simp only [Bool.and_eq_true, beq_iff_eq] at hkind
        exact ⟨hchildren x hx, hkind.2⟩
      · cases hx

/-- What is found among nodes of `u` is in `u`, too. -/
theorem within_definitionsIn {cs : List Tree} {u : Tree} (hcs : ∀ c ∈ cs, c ∈ u.nodes)
    {written : List Tree} (hwritten : ∀ x ∈ written, x ∈ u.nodes ∧ x.kind = "decorator") :
    ∀ d ∈ definitionsIn written cs, Within u d := by
  match cs with
  | [] => intro d hd; cases hd
  | c :: cs =>
    intro d hd
    rw [definitionsIn, List.mem_append] at hd
    rcases hd with hd | hd
    · exact within_definitions (hcs c List.mem_cons_self) hwritten d hd
    · exact within_definitionsIn (fun e he => hcs e (List.mem_cons_of_mem c he)) hwritten d hd

end

/-- A class is read the same without extra nodes, if none of them is taken for a base. -/
theorem ClassDefinition.ofDefinition?_bare (s : Source) {d : Definition} (htree : HasTrivia d.tree)
    (hplain : d.tree.kind = "class_definition" → PlainBases d.tree)
    (hdecorators : ∀ x ∈ d.decorators, HasTrivia x ∧ PlainDecorator x) :
    ofDefinition? s d.bare = ofDefinition? s d := by
  by_cases hkind : d.tree.kind = "class_definition"
  · have hname : d.bare.tree.child? "name" = (d.tree.child? "name").map Tree.bare := htree.child?_bare _
    have hbases : (d.bare.tree.child? "superclasses").map (basesOf s) =
        (d.tree.child? "superclasses").map (basesOf s) := by
      rw [Definition.bare, htree.child?_bare]
      cases hl : d.tree.child? "superclasses" with
      | none => rfl
      | some l => exact congrArg some (basesOf_bare s (hplain hkind l hl))
    have hnames : d.bare.decorators.filterMap (decoratorName? s) =
        d.decorators.filterMap (decoratorName? s) := by
      rw [Definition.bare, List.filterMap_map]
      refine List.filterMap_congr fun x hx => ?_
      exact decoratorName?_bare s (hdecorators x hx).1 (hdecorators x hx).2.first
    have hfields : (d.bare.tree.child? "body").map (fun b => b.namedChildren.flatMap (fieldsOf s)) =
        (d.tree.child? "body").map fun b => b.namedChildren.flatMap (fieldsOf s) := by
      rw [Definition.bare, htree.child?_bare]
      cases hb : d.tree.child? "body" with
      | none => rfl
      | some b => exact congrArg some (flatMap_fieldsOf_bare s (htree.field hb))
    simp only [ofDefinition?, Option.bind_eq_bind]
    rw [hname, hbases, hnames, hfields, show d.bare.tree = d.tree.bare from rfl, Tree.kind_bare, lineOf_bare]
    cases d.tree.child? "name" <;> simp
  · have hnone : d.bare.tree.kind ≠ "class_definition" := by
      rwa [Definition.bare, Tree.kind_bare]
    simp [ofDefinition?, hkind, hnone]

/-- A function is read the same without extra nodes, if none is taken for a part of a decorator. -/
theorem FunctionDefinition.ofDefinition?_bare (s : Source) {d : Definition} (htree : HasTrivia d.tree)
    (hdecorators : ∀ x ∈ d.decorators, HasTrivia x ∧ PlainDecorator x) :
    ofDefinition? s d.bare = ofDefinition? s d := by
  by_cases hkind : d.tree.kind = "function_definition"
  · have hleading : d.tree.kind ∈ leading := by
      rw [hkind]
      decide
    have hname : d.bare.tree.child? "name" = (d.tree.child? "name").map Tree.bare := htree.child?_bare _
    have hroutes : d.bare.decorators.filterMap (RouteDecorator.ofTree? s) =
        d.decorators.filterMap (RouteDecorator.ofTree? s) := by
      rw [Definition.bare, List.filterMap_map]
      refine List.filterMap_congr fun x hx => ?_
      exact RouteDecorator.ofTree?_bare s (hdecorators x hx).1 (hdecorators x hx).2
    have hasync : (d.bare.tree.children.head?.map (·.kind)) = d.tree.children.head?.map (·.kind) := by
      rw [Definition.bare, Tree.head?_children_bare (htree.self.first hleading)]
      cases d.tree.children.head? <;> simp
    have hparameters : (d.bare.tree.child? "parameters").map
          (fun p => Parameter.collect s [] p.namedChildren) =
        (d.tree.child? "parameters").map fun p => Parameter.collect s [] p.namedChildren := by
      rw [Definition.bare, htree.child?_bare]
      cases hp : d.tree.child? "parameters" with
      | none => rfl
      | some p =>
        have hp : HasTrivia p := htree.field hp
        have hmem : ∀ c ∈ p.namedChildren, c ∈ p.children :=
          fun c hc => Tree.mem_children_of_mem_namedChildren hc
        rw [Option.map_some, Option.map_some, Option.map_some, Tree.namedChildren_bare]
        exact congrArg some (Parameter.collect_bare s (fun c hc => hp.child (hmem c hc))
          (fun c hc he => (hp.self.extra c (hmem c hc) he).2.2) [])
    simp only [ofDefinition?, Option.bind_eq_bind]
    rw [hname, hroutes, hasync, hparameters, show d.bare.tree = d.tree.bare from rfl, Tree.kind_bare,
      lineOf_bare]
    cases d.tree.child? "name" <;> simp
  · have hnone : d.bare.tree.kind ≠ "function_definition" := by
      rwa [Definition.bare, Tree.kind_bare]
    simp [ofDefinition?, hkind, hnone]

/-- A module is read the same from `t.bare`, if no comment and no continued line is taken for something else. -/
theorem Module.ofTree_bare (s : Source) {t : Tree} (h : HasTrivia t)
    (hdecorators : ∀ d ∈ t.nodes, d.kind = "decorator" → PlainDecorator d)
    (hclasses : ∀ c ∈ t.nodes, c.kind = "class_definition" → PlainBases c) :
    Module.ofTree s t.bare = Module.ofTree s t := by
  have hwithin : ∀ d ∈ definitions [] t, Within t d :=
    within_definitions t.mem_nodes_self (fun x hx => by cases hx)
  have htrivia : ∀ n ∈ t.nodes, HasTrivia n := fun n hn m hm => h m (Tree.nodes_trans hn hm)
  have hfound := definitions_bare h []
  rw [List.map_nil] at hfound
  rw [Module.ofTree, Module.ofTree, hfound]
  simp only [List.filterMap_map, Module.mk.injEq]
  constructor
  · refine List.filterMap_congr fun d hd => ?_
    refine ClassDefinition.ofDefinition?_bare s (htrivia _ (hwithin d hd).tree)
      (hclasses _ (hwithin d hd).tree) fun x hx => ?_
    obtain ⟨hx, hkind⟩ := (hwithin d hd).decorators x hx
    exact ⟨htrivia x hx, hdecorators x hx hkind⟩
  · refine List.filterMap_congr fun d hd => ?_
    refine FunctionDefinition.ofDefinition?_bare s (htrivia _ (hwithin d hd).tree) fun x hx => ?_
    obtain ⟨hx, hkind⟩ := (hwithin d hd).decorators x hx
    exact ⟨htrivia x hx, hdecorators x hx hkind⟩

/-! ## What extra nodes are taken for -/

/-- A decorator that begins with anything but a call declares no route. -/
theorem RouteDecorator.ofTree?_eq_none (s : Source) {d c : Tree} (hc : d.namedChildren.head? = some c)
    (hother : c.kind ≠ "call") : RouteDecorator.ofTree? s d = none := by
  rw [ofTree?_eq, calleeOf?, hc, Option.bind_some, ofKind?, if_neg hother]
  rfl

/-! ## Two trees -/

namespace Sample

/-- A construct over a part of a text. -/
def construct (kind : String) (start stop : Nat) (children : List Tree) : Tree :=
  .node { kind, named := true, field := none, span := ⟨start, stop⟩ } children

/-- A token that is written as it is called. -/
def token (kind : String) (start : Nat) : Tree :=
  .node { kind, named := false, field := none, span := ⟨start, start + kind.length⟩ } []

/-- A comment or a continued line. -/
def trivia (kind : String) (start stop : Nat) : Tree :=
  .node { kind, named := true, field := none, span := ⟨start, stop⟩, extra := true } []

/-- A node that fills a field. -/
def inField (field : String) : Tree → Tree
  | .node t cs => .node { t with field := some field } cs

/-- A class and a route with comments and a continued line. -/
def annotated : String :=
  "class A(B,  # first\n  C): x = 1\n@app.get(  # one\n  \"/a\", x=1 \\\n )\ndef f(a,  # two\n  b): ...\n"

/-- The tree of `annotated`. -/
def annotatedTree : Tree :=
  construct "module" 0 92 [
    construct "class_definition" 0 31 [
      token "class" 0,
      inField "name" <| construct "identifier" 6 7 [],
      inField "superclasses" <| construct "argument_list" 7 24 [
        token "(" 7,
        construct "identifier" 8 9 [],
        token "," 9,
        trivia "comment" 12 19,
        construct "identifier" 22 23 [],
        token ")" 23],
      token ":" 24,
      inField "body" <| construct "block" 26 31 [
        construct "expression_statement" 26 31 [
          construct "assignment" 26 31 [
            inField "left" <| construct "identifier" 26 27 [],
            token "=" 28,
            inField "right" <| construct "integer" 30 31 []]]]],
    construct "decorated_definition" 32 91 [
      construct "decorator" 32 65 [
        token "@" 32,
        construct "call" 33 65 [
          inField "function" <| construct "attribute" 33 40 [
            inField "object" <| construct "identifier" 33 36 [],
            token "." 36,
            inField "attribute" <| construct "identifier" 37 40 []],
          inField "arguments" <| construct "argument_list" 40 65 [
            token "(" 40,
            trivia "comment" 43 48,
            construct "string" 51 55 [
              construct "string_start" 51 52 [],
              construct "string_content" 52 54 [],
              construct "string_end" 54 55 []],
            token "," 55,
            construct "keyword_argument" 57 60 [
              inField "name" <| construct "identifier" 57 58 [],
              token "=" 58,
              inField "value" <| construct "integer" 59 60 []],
            trivia "line_continuation" 61 63,
            token ")" 64]]],
      inField "definition" <| construct "function_definition" 66 91 [
        token "def" 66,
        inField "name" <| construct "identifier" 70 71 [],
        inField "parameters" <| construct "parameters" 71 86 [
          token "(" 71,
          construct "identifier" 72 73 [],
          token "," 73,
          trivia "comment" 76 81,
          construct "identifier" 84 85 [],
          token ")" 85],
        token ":" 86,
        inField "body" <| construct "block" 88 91 [
          construct "expression_statement" 88 91 [
            construct "ellipsis" 88 91 []]]]]]

end Sample

/-- A comment among bases, parameters and arguments, and a continued line after the path, are harmless. -/
theorem Module.ofTree_bare_annotated :
    HasTrivia Sample.annotatedTree ∧
      (∀ d ∈ Sample.annotatedTree.nodes, d.kind = "decorator" → PlainDecorator d) ∧
      (∀ c ∈ Sample.annotatedTree.nodes, c.kind = "class_definition" → PlainBases c) ∧
      Module.ofTree (.ofString Sample.annotated) Sample.annotatedTree.bare =
        Module.ofTree (.ofString Sample.annotated) Sample.annotatedTree := by
  have htrivia : HasTrivia Sample.annotatedTree := by decide
  have hdecorators : ∀ d ∈ Sample.annotatedTree.nodes, d.kind = "decorator" → PlainDecorator d := by
    decide
  have hclasses : ∀ c ∈ Sample.annotatedTree.nodes, c.kind = "class_definition" → PlainBases c := by
    decide
  exact ⟨htrivia, hdecorators, hclasses, Module.ofTree_bare _ htrivia hdecorators hclasses⟩

namespace Sample

/-- A route whose path is written in two parts, with a comment between them. -/
def parted : String := "@app.get(\"/a\"  # first\n         \"/b\")\ndef f():\n    ...\n"

/-- The tree of `parted`. -/
def partedTree : Tree :=
  construct "module" 0 55 [
    construct "decorated_definition" 0 54 [
      construct "decorator" 0 37 [
        token "@" 0,
        construct "call" 1 37 [
          inField "function" <| construct "attribute" 1 8 [
            inField "object" <| construct "identifier" 1 4 [],
            token "." 4,
            inField "attribute" <| construct "identifier" 5 8 []],
          inField "arguments" <| construct "argument_list" 8 37 [
            token "(" 8,
            construct "concatenated_string" 9 36 [
              construct "string" 9 13 [
                construct "string_start" 9 10 [],
                construct "string_content" 10 12 [],
                construct "string_end" 12 13 []],
              trivia "comment" 15 22,
              construct "string" 32 36 [
                construct "string_start" 32 33 [],
                construct "string_content" 33 35 [],
                construct "string_end" 35 36 []]],
            token ")" 36]]],
      inField "definition" <| construct "function_definition" 38 54 [
        token "def" 38,
        inField "name" <| construct "identifier" 42 43 [],
        inField "parameters" <| construct "parameters" 43 45 [
          token "(" 43,
          token ")" 44],
        token ":" 45,
        inField "body" <| construct "block" 51 54 [
          construct "expression_statement" 51 54 [
            construct "ellipsis" 51 54 []]]]]]

end Sample

/-- A comment between two parts of a path takes the path away. -/
theorem Module.ofTree_bare_ne_parted :
    Sample.partedTree.hasFault = false ∧ HasTrivia Sample.partedTree ∧
      (Module.ofTree (.ofString Sample.parted) Sample.partedTree.bare).functions.map (·.decorators) =
        [[⟨"get", some "/a/b"⟩]] ∧
      (Module.ofTree (.ofString Sample.parted) Sample.partedTree).functions.map (·.decorators) =
        [[⟨"get", none⟩]] ∧
      Module.ofTree (.ofString Sample.parted) Sample.partedTree.bare ≠
        Module.ofTree (.ofString Sample.parted) Sample.partedTree := by
  refine ⟨by decide +kernel, by decide +kernel, by decide +kernel, by decide +kernel, ?_⟩
  decide

end PayloadAtlas.Python
