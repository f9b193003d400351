import Mathlib.Data.List.Forall2
import Mathlib.Data.List.Pairwise
import PayloadAtlas.Proofs.Python.Trivia
import PayloadAtlas.Proofs.Tree.Order

/-!
# One definition for each node that defines something

The definitions of a tree are its nodes that define something, each with the decorators that stand beside it
(`definitions_eq`). In a tree as the grammar allows it (`IsRegular`) a module has one class for each node that is
a class and one function for each node that is a function and has a decorator that is read as the call of an
attribute, in the order of the text; and no decorator is written on two of them (`Module.ofTree_definitions`).

A decorator that is written as the call of an attribute is read as one if no comment and no continued line
stands before the call (`RouteDecorator.isSome_ofTree?_iff`). So a function is left out whose decorators all
begin with one (`Module.functions_continued`).
-/

namespace PayloadAtlas.Python

open PayloadAtlas.Text

/-! ## Definitions and what is written on them -/

/-- Whether a node defines something: its kind is `class_definition` or `function_definition`. -/
def IsDefinition (t : Tree) : Prop := t.kind = "class_definition" ∨ t.kind = "function_definition"

instance (t : Tree) : Decidable (IsDefinition t) := inferInstanceAs (Decidable (_ ∨ _))

/-- The decorators among the children of a `decorated_definition`, which are written on the definition among them. -/
def writtenBy (parent : Option Tree) : List Tree :=
  match parent with
  | some p => if p.kind = "decorated_definition" then p.namedChildren.filter (·.kind == "decorator") else []
  | none => []

/-- The nodes of a tree that define something, each with its parent, in the order of the text. -/
def definingNodes (t : Tree) : List (Option Tree × Tree) := (t.placed none).filter fun x => IsDefinition x.2

/-- A node comes before what is defined in it. -/
theorem definitions_node (written : List Tree) (tag : Tag) (cs : List Tree) :
    definitions written (.node tag cs) =
      (if IsDefinition (.node tag cs) then [⟨.node tag cs, written⟩] else []) ++
        definitionsIn (writtenBy (some (.node tag cs))) cs := by
  have hbelow : writtenBy (some (.node tag cs)) =
      if tag.kind = "decorated_definition" then cs.filter fun c => c.tag.named && c.kind == "decorator" else [] := by
    rw [writtenBy, Tree.namedChildren, List.filter_filter]
    congr 1
    exact List.filter_congr fun c _ => Bool.and_comm ..
  rw [hbelow, definitions]
  rfl

mutual

/-- What `definitions` gives below a parent are the nodes that define something, with what is written on each. -/
theorem definitions_writtenBy (parent : Option Tree) (t : Tree) :
    definitions (writtenBy parent) t =
      ((t.placed parent).filter fun x => IsDefinition x.2).map fun x => ⟨x.2, writtenBy x.1⟩ := by
  match t with
  | .node tag cs =>
    rw [definitions_node, definitionsIn_writtenBy, Tree.placed]
    by_cases h : IsDefinition (.node tag cs)
    · rw [List.filter_cons_of_pos (by simpa using h), List.map_cons, if_pos h]
      rfl
    · rw [List.filter_cons_of_neg (by simpa using h), if_neg h, List.nil_append]

theorem definitionsIn_writtenBy (parent : Option Tree) (cs : List Tree) :
    definitionsIn (writtenBy parent) cs =
      ((Tree.placedIn parent cs).filter fun x => IsDefinition x.2).map fun x => ⟨x.2, writtenBy x.1⟩ := by
  match cs with
  | [] => rfl
  | c :: cs =>
    rw [definitionsIn, Tree.placedIn, List.filter_append, List.map_append, definitions_writtenBy,
      definitionsIn_writtenBy]

end

/-- The search starts with nothing written, as the whole tree has no parent. -/
theorem definitions_eq (t : Tree) :
    definitions [] t = (definingNodes t).map fun x => ⟨x.2, writtenBy x.1⟩ :=
  definitions_writtenBy none t

theorem map_snd_definingNodes (t : Tree) :
    (definingNodes t).map Prod.snd = t.nodes.filter fun n => IsDefinition n := by
  rw [← Tree.map_snd_placed none, List.filter_map]
  rfl

/-! ## Decorators that call an attribute -/

namespace RouteDecorator

/-- Whether a decorator is written as the call of an attribute, as in `@app.get(…)`, whatever comments and continued
lines stand before the call. -/
def CallsAttribute (d : Tree) : Prop :=
  ∃ call ∈ (d.namedChildren.filter fun c => !c.isExtra).head?, call.kind = "call" ∧
    ∃ f ∈ call.child? "function", f.kind = "attribute"

/-- Whether no comment and no continued line stands before what a decorator calls. -/
def BeginsPlainly (d : Tree) : Prop := ∀ c ∈ d.namedChildren.head?, c.isExtra = false

instance (d : Tree) : Decidable (CallsAttribute d) :=
  inferInstanceAs (Decidable (∃ call ∈ (d.namedChildren.filter fun c => !c.isExtra).head?, call.kind = "call" ∧
    ∃ f ∈ call.child? "function", f.kind = "attribute"))

instance (d : Tree) : Decidable (BeginsPlainly d) :=
  inferInstanceAs (Decidable (∀ c ∈ d.namedChildren.head?, c.isExtra = false))

end RouteDecorator

/-! ## Trees as the grammar allows them -/

/-- What the grammar says of a node. A node covers its children; definitions and decorators begin with a token;
definitions have a name and attributes an attribute; under a `decorated_definition` there is one definition at most,
after all decorators; and extra nodes are comments and continued lines. -/
structure IsRegular (n : Tree) : Prop where
  covers : n.Covers
  headed : IsDefinition n ∨ n.kind = "decorator" → n.IsHeaded
  named : IsDefinition n → (n.child? "name").isSome
  complete : n.kind = "attribute" → (n.child? "attribute").isSome
  last : n.kind = "decorated_definition" →
    n.children.Pairwise fun a b => IsDefinition a → ¬IsDefinition b ∧ b.kind ≠ "decorator"
  extra : ∀ c ∈ n.children, c.isExtra = true → c.kind = "comment" ∨ c.kind = "line_continuation"

instance (n : Tree) : Decidable (IsRegular n) :=
  decidable_of_iff (_ ∧ _ ∧ _ ∧ _ ∧ _ ∧ _)
    ⟨fun ⟨covers, headed, named, complete, last, extra⟩ => ⟨covers, headed, named, complete, last, extra⟩,
      fun ⟨covers, headed, named, complete, last, extra⟩ => ⟨covers, headed, named, complete, last, extra⟩⟩

section Regular

variable {t : Tree} (h : ∀ n ∈ t.nodes, IsRegular n)
include h

/-- A decorator is read as the call of an attribute if it is written as one and `BeginsPlainly`. -/
theorem RouteDecorator.isSome_ofTree?_iff (s : Source) {d : Tree} (hd : d ∈ t.nodes) :
    (ofTree? s d).isSome ↔ BeginsPlainly d ∧ CallsAttribute d := by
  rw [BeginsPlainly, CallsAttribute]
  cases hhead : d.namedChildren.head? with
  | none =>
    have hnil : d.namedChildren = [] := List.head?_eq_none_iff.mp hhead
    simp [ofTree?_eq, calleeOf?, hnil]
  | some c =>
    have hc : c ∈ d.children := Tree.mem_children_of_mem_namedChildren (List.mem_of_mem_head? hhead)
    cases hextra : c.isExtra with
    | true =>
      -- an extra node is no call
      have hother : c.kind ≠ "call" := by
        rcases (h d hd).extra c hc hextra with hkind | hkind <;> rw [hkind] <;> decide
      simp [ofTree?_eq_none s hhead hother, hextra]
    | false =>
      have hplain : (d.namedChildren.filter fun c => !c.isExtra).head? = some c := by
        rw [Tree.head?_filter_of_head? (by simp [hhead, hextra]), hhead]
      have hnodes {n m : Tree} {field : String} (hn : n ∈ t.nodes) (hm : n.child? field = some m) : m ∈ t.nodes :=
        Tree.nodes_trans hn (Tree.mem_nodes_of_mem_children (Tree.mem_children_of_child? hm))
      have hc : c ∈ t.nodes := Tree.nodes_trans hd (Tree.mem_nodes_of_mem_children hc)
      simp only [hplain, ofTree?_eq, calleeOf?, hhead, Option.bind_some, Option.isSome_map, Option.mem_def,
        Option.some.injEq, forall_eq', hextra, true_and, exists_eq_left']
      by_cases hcall : c.kind = "call"
      · rw [ofKind?, if_pos hcall]
        cases hf : c.child? "function" with
        | none => simp [hf]
        | some f =>
          by_cases hattribute : f.kind = "attribute"
          · have hsome := (h f (hnodes hc hf)).complete hattribute
            simpa [hcall, hf, ofKind?, hattribute] using hsome
          · simp [hf, ofKind?, hattribute]
      · simp [ofKind?, hcall]

end Regular

/-! ## Classes and functions -/

/-- Of two items that are not the same, one comes first. -/
theorem rel_or_rel {α : Type} {R : α → α → Prop} {xs : List α} (h : xs.Pairwise R) {a b : α} (ha : a ∈ xs)
    (hb : b ∈ xs) (hne : a ≠ b) : R a b ∨ R b a := by
  have hsymm : Std.Symm fun a b => R a b ∨ R b a := ⟨fun _ _ => Or.symm⟩
  exact (h.imp (S := fun a b => R a b ∨ R b a) Or.inl).forall ha hb hne

/-- What `f` makes of items, if `p` tells which of them it makes something of. -/
theorem forall₂_filterMap {α β : Type} {f : α → Option β} {p : α → Bool} {R : α → β → Prop} {xs : List α}
    (hsome : ∀ x ∈ xs, p x = true → ∃ y, f x = some y ∧ R x y) (hnone : ∀ x ∈ xs, p x = false → f x = none) :
    List.Forall₂ R (xs.filter p) (xs.filterMap f) := by
  induction xs with
  | nil => exact .nil
  | cons x xs ih =>
    obtain ⟨hsomex, hsome⟩ := List.forall_mem_cons.mp hsome
    obtain ⟨hnonex, hnone⟩ := List.forall_mem_cons.mp hnone
    cases hp : p x with
    | true =>
      obtain ⟨y, hy, hR⟩ := hsomex hp
      rw [List.filter_cons_of_pos hp, List.filterMap_cons_some hy]
      exact .cons hR (ih hsome hnone)
    | false =>
      rw [List.filter_cons_of_neg (by simp [hp]), List.filterMap_cons_none (hnonex hp)]
      exact ih hsome hnone

/-- The class `c` is that of a node: it has its name, stands in its line, and has the decorators written on it. -/
structure ClassDefinition.IsOf (s : Source) (x : Option Tree × Tree) (c : ClassDefinition) : Prop where
  name : (x.2.child? "name").map (textOf s) = some c.name
  line : c.line = lineOf s x.2
  decorators : c.decorators = (writtenBy x.1).filterMap (decoratorName? s)

/-- The function `f` is that of a node: it has its name, stands in its line, and has those of the decorators written
on it that call an attribute. -/
structure FunctionDefinition.IsOf (s : Source) (x : Option Tree × Tree) (f : FunctionDefinition) : Prop where
  name : (x.2.child? "name").map (textOf s) = some f.name
  line : f.line = lineOf s x.2
  decorators : f.decorators = (writtenBy x.1).filterMap (RouteDecorator.ofTree? s)

/-- Whether a node is a `class_definition`. -/
def IsClass (x : Option Tree × Tree) : Prop := x.2.kind = "class_definition"

/-- Whether a node is a `function_definition` with a decorator that is read as the call of an attribute. -/
def IsHandler (x : Option Tree × Tree) : Prop :=
  x.2.kind = "function_definition" ∧
    ∃ d ∈ writtenBy x.1, RouteDecorator.BeginsPlainly d ∧ RouteDecorator.CallsAttribute d

instance : DecidablePred IsClass := fun x => inferInstanceAs (Decidable (x.2.kind = _))

instance : DecidablePred IsHandler :=
  fun x => inferInstanceAs (Decidable (x.2.kind = "function_definition" ∧
    ∃ d ∈ writtenBy x.1, RouteDecorator.BeginsPlainly d ∧ RouteDecorator.CallsAttribute d))

/-- The `classes` are made of the nodes that define something. -/
theorem Module.classes_ofTree (s : Source) (t : Tree) :
    (ofTree s t).classes =
      (definingNodes t).filterMap fun x => ClassDefinition.ofDefinition? s ⟨x.2, writtenBy x.1⟩ := by
  rw [ofTree, definitions_eq, List.filterMap_map]
  rfl

/-- The `functions` are made of the nodes that define something. -/
theorem Module.functions_ofTree (s : Source) (t : Tree) :
    (ofTree s t).functions =
      (definingNodes t).filterMap fun x => FunctionDefinition.ofDefinition? s ⟨x.2, writtenBy x.1⟩ := by
  simp only [ofTree, definitions_eq, List.filterMap_map]
  rfl

/-- Where something is written on a node, its parent has both as children. -/
theorem parent_of_mem_writtenBy {t : Tree} {x : Option Tree × Tree} (hx : x ∈ t.placed none) {d : Tree}
    (hd : d ∈ writtenBy x.1) :
    ∃ p, x.1 = some p ∧ p ∈ t.nodes ∧ p.kind = "decorated_definition" ∧ x.2 ∈ p.children ∧ d ∈ p.children ∧
      d.kind = "decorator" ∧ (some p, d) ∈ t.placed none := by
  obtain ⟨_ | p, n⟩ := x
  · cases hd
  · rw [writtenBy] at hd
    split at hd
    · next hkind =>
      obtain ⟨hd, hdecorator⟩ := List.mem_filter.mp hd
      have hd := Tree.mem_children_of_mem_namedChildren hd
      rcases Tree.children_placed hx with ⟨hp, _⟩ | ⟨hp, hn, hall⟩
      · cases hp
      · exact ⟨p, rfl, hp, hkind, hn, hd, by simpa using hdecorator, hall d hd⟩
    · cases hd

section Regular

variable {t : Tree} (h : ∀ n ∈ t.nodes, IsRegular n)
include h

theorem exists_name {x : Option Tree × Tree} (hx : x ∈ definingNodes t) :
    ∃ name, x.2.child? "name" = some name := by
  obtain ⟨hx, hdefinition⟩ := List.mem_filter.mp hx
  have hnamed := (h x.2 (Tree.mem_nodes_of_mem_placed hx)).named (of_decide_eq_true hdefinition)
  exact Option.isSome_iff_exists.mp hnamed

/-- There is one class for each node with `IsClass`, in their order. -/
theorem forall₂_classes (s : Source) :
    List.Forall₂ (ClassDefinition.IsOf s) ((definingNodes t).filter fun x => IsClass x)
      (Module.ofTree s t).classes := by
  rw [Module.classes_ofTree]
  refine forall₂_filterMap (fun x hx hclass => ?_) fun x hx hother => ?_
  · obtain ⟨name, hname⟩ := exists_name h hx
    have hclass : x.2.kind = "class_definition" := of_decide_eq_true hclass
    simp only [ClassDefinition.ofDefinition?, hclass, hname, guard_true, Option.bind_eq_bind, Option.pure_def,
      Option.bind_some, Option.some.injEq, exists_eq_left']
    exact ⟨by rw [hname, Option.map_some], rfl, rfl⟩
  · have hother : x.2.kind ≠ "class_definition" := of_decide_eq_false hother
    simp only [ClassDefinition.ofDefinition?, hother, guard_false]
    rfl

/-- A decorator that is written on a node is read by `ofTree?` if it begins plainly and calls an attribute. -/
theorem isSome_ofTree?_written (s : Source) {x : Option Tree × Tree} (hx : x ∈ definingNodes t) {d : Tree}
    (hd : d ∈ writtenBy x.1) :
    (RouteDecorator.ofTree? s d).isSome ↔ RouteDecorator.BeginsPlainly d ∧ RouteDecorator.CallsAttribute d := by
  obtain ⟨p, _, hp, _, _, hdp, _⟩ := parent_of_mem_writtenBy (List.mem_of_mem_filter hx) hd
  exact RouteDecorator.isSome_ofTree?_iff h s (Tree.nodes_trans hp (Tree.mem_nodes_of_mem_children hdp))

/-- There is one function for each node with `IsHandler`, in their order. -/
theorem forall₂_functions (s : Source) :
    List.Forall₂ (FunctionDefinition.IsOf s) ((definingNodes t).filter fun x => IsHandler x)
      (Module.ofTree s t).functions := by
  rw [Module.functions_ofTree]
  refine forall₂_filterMap (fun x hx hhandler => ?_) fun x hx hother => ?_
  · obtain ⟨name, hname⟩ := exists_name h hx
    obtain ⟨hkind, d, hd, hcalls⟩ : IsHandler x := of_decide_eq_true hhandler
    obtain ⟨r, hr⟩ := Option.isSome_iff_exists.mp ((isSome_ofTree?_written h s hx hd).mpr hcalls)
    have hsome : (writtenBy x.1).filterMap (RouteDecorator.ofTree? s) ≠ [] :=
      List.ne_nil_of_mem (List.mem_filterMap.mpr ⟨d, hd, hr⟩)
    simp only [FunctionDefinition.ofDefinition?, hkind, hname, hsome, guard_true, Option.bind_eq_bind,
      Option.pure_def, Option.bind_some, Option.some.injEq, exists_eq_left', ne_eq, not_false_eq_true]
    exact ⟨by rw [hname, Option.map_some], rfl, rfl⟩
  · have hother : ¬IsHandler x := of_decide_eq_false hother
    -- a function without a decorator that is read gives nothing, and neither does any other node
    by_cases hkind : x.2.kind = "function_definition"
    · have hnone : (writtenBy x.1).filterMap (RouteDecorator.ofTree? s) = [] := by
        rw [List.filterMap_eq_nil_iff]
        intro d hd
        rw [← Option.not_isSome_iff_eq_none, isSome_ofTree?_written h s hx hd]
        exact fun hcalls => hother ⟨hkind, d, hd, hcalls⟩
      simp only [FunctionDefinition.ofDefinition?, hkind, hnone, guard_true, ne_eq, not_true_eq_false, guard_false]
      rfl
    · simp only [FunctionDefinition.ofDefinition?, hkind, guard_false]
      rfl

/-! ## Order -/

theorem covers_of_isRegular : ∀ n ∈ t.nodes, n.Covers := fun n hn => (h n hn).covers

/-- The nodes that define something begin one after the other, as each begins with a token of its own. -/
theorem pairwise_definingNodes : (definingNodes t).Pairwise fun x y => x.2.span.start < y.2.span.start := by
  have hpairwise := Tree.pairwise_placed (covers_of_isRegular h) none
  refine hpairwise.sublist ?_
  have hsame : definingNodes t = ((t.placed none).filter fun x => x.2.IsHeaded).filter fun x => IsDefinition x.2 := by
    rw [definingNodes, List.filter_filter]
    refine List.filter_congr fun x hx => ?_
    by_cases hdefinition : IsDefinition x.2
    · have hheaded := (h x.2 (Tree.mem_nodes_of_mem_placed hx)).headed (.inl hdefinition)
      simp [hdefinition, hheaded]
    · simp [hdefinition]
  rw [hsame]
  exact List.filter_sublist

/-- The decorators that are written on a node stand one below the other, and all above the node. -/
theorem pairwise_writtenBy {x : Option Tree × Tree} (hx : x ∈ definingNodes t) :
    (writtenBy x.1).Pairwise (fun d e => d.span.start < e.span.start) ∧
      ∀ d ∈ writtenBy x.1, d.span.stop ≤ x.2.span.start := by
  obtain ⟨hx, hdefinition⟩ := List.mem_filter.mp hx
  have hwritten {d} (hd : d ∈ writtenBy x.1) := parent_of_mem_writtenBy hx hd
  constructor
  · -- a decorator ends before the next one begins, and is not empty
    obtain ⟨_ | p, n⟩ := x
    · exact .nil
    have hsub : (writtenBy (some p)).Sublist p.children := by
      rw [writtenBy]
      split
      · exact List.filter_sublist.trans List.filter_sublist
      · exact List.nil_sublist _
    rcases Tree.children_placed hx with ⟨hp, _⟩ | ⟨hp, _, _⟩
    · cases hp
    refine ((h p hp).covers.pairwise.sublist hsub).imp_of_mem fun {d e} hd _ hde => ?_
    obtain ⟨_, _, _, _, _, _, hdecorator, hplaced⟩ := hwritten hd
    have hregular := h d (Tree.mem_nodes_of_mem_placed hplaced)
    exact Nat.lt_of_lt_of_le ((hregular.headed (.inr hdecorator)).start_lt_stop hregular.covers) hde
  · intro d hd
    obtain ⟨p, _, hp, hkind, hn, hd, hdecorator, _⟩ := hwritten hd
    have hne : x.2 ≠ d := by
      rintro rfl
      have hdefinition : IsDefinition x.2 := of_decide_eq_true hdefinition
      simp [IsDefinition, hdecorator] at hdefinition
    -- under one parent the definition comes after the decorators
    rcases rel_or_rel ((h p hp).covers.pairwise.and ((h p hp).last hkind)) hn hd hne with ⟨_, hnot⟩ | ⟨hle, _⟩
    · exact absurd hdecorator (hnot (of_decide_eq_true hdefinition)).2
    · exact hle

/-- A decorator is written on one node only. -/
theorem eq_of_mem_writtenBy {x y : Option Tree × Tree} (hx : x ∈ definingNodes t) (hy : y ∈ definingNodes t) {d : Tree}
    (hdx : d ∈ writtenBy x.1) (hdy : d ∈ writtenBy y.1) : y = x := by
  obtain ⟨hx, hxdefinition⟩ := List.mem_filter.mp hx
  obtain ⟨hy, hydefinition⟩ := List.mem_filter.mp hy
  obtain ⟨p, hxp, hp, hkind, hxmem, _, hdecorator, hdp⟩ := parent_of_mem_writtenBy hx hdx
  obtain ⟨q, hyq, _, _, hymem, _, _, hdq⟩ := parent_of_mem_writtenBy hy hdy
  have hheaded := (h d (Tree.mem_nodes_of_mem_placed hdp)).headed (.inr hdecorator)
  -- both are listed under the parent of the decorator, which has no two definitions
  cases Tree.eq_of_mem_placed (covers_of_isRegular h) hdp hdq hheaded rfl
  have hxdefinition : IsDefinition x.2 := of_decide_eq_true hxdefinition
  have hydefinition : IsDefinition y.2 := of_decide_eq_true hydefinition
  refine Prod.ext (hyq.trans hxp.symm) ?_
  by_contra hne
  rcases rel_or_rel ((h p hp).last hkind) hymem hxmem hne with hnot | hnot
  · exact (hnot hydefinition).1 hxdefinition
  · exact (hnot hxdefinition).1 hydefinition

end Regular

/-- A module has one class for each node that is a class, and one function for each that is a function with a
decorator that calls an attribute, in the order of the text. Each has the decorators that are `written` on it, top to
bottom, and no decorator is written on two nodes. -/
theorem Module.ofTree_definitions (s : Source) {t : Tree} (h : ∀ n ∈ t.nodes, IsRegular n) :
    (definingNodes t).map Prod.snd = t.nodes.filter (fun n => IsDefinition n) ∧
      List.Forall₂ (ClassDefinition.IsOf s) ((definingNodes t).filter fun x => IsClass x) (ofTree s t).classes ∧
      List.Forall₂ (FunctionDefinition.IsOf s) ((definingNodes t).filter fun x => IsHandler x)
        (ofTree s t).functions ∧
      (definingNodes t).Pairwise (fun x y => x.2.span.start < y.2.span.start) ∧
      ∀ x ∈ definingNodes t,
        (writtenBy x.1).Pairwise (fun d e => d.span.start < e.span.start) ∧
          (∀ d ∈ writtenBy x.1, d.span.stop ≤ x.2.span.start) ∧
          ∀ y ∈ definingNodes t, ∀ d ∈ writtenBy x.1, d ∈ writtenBy y.1 → y = x := by
  refine ⟨map_snd_definingNodes t, forall₂_classes h s, forall₂_functions h s, pairwise_definingNodes h, ?_⟩
  intro x hx
  obtain ⟨hpairwise, habove⟩ := pairwise_writtenBy h hx
  exact ⟨hpairwise, habove, fun y hy d hdx hdy => eq_of_mem_writtenBy h hx hy hdx hdy⟩

namespace Sample

/-- A class in a class, and a handler among them. -/
def nested : String :=
  "@register\nclass A:\n  class B: x = 1\n  @app.get(\"/b\")\n  # by name\n  @app.put(\"/c\")\n  async def f(): ...\n"

/-- The call of an attribute of `app` with a path of two characters. -/
def route (start : Nat) : Tree :=
  construct "call" start (start + 13) [
    inField "function" <| construct "attribute" start (start + 7) [
      inField "object" <| construct "identifier" start (start + 3) [],
      token "." (start + 3),
      inField "attribute" <| construct "identifier" (start + 4) (start + 7) []],
    inField "arguments" <| construct "argument_list" (start + 7) (start + 13) [
      token "(" (start + 7),
      construct "string" (start + 8) (start + 12) [
        construct "string_start" (start + 8) (start + 9) [],
        construct "string_content" (start + 9) (start + 11) [],
        construct "string_end" (start + 11) (start + 12) []],
      token ")" (start + 12)]]

/-- A statement `...`. -/
def dots (start : Nat) : Tree :=
  construct "expression_statement" start (start + 3) [construct "ellipsis" start (start + 3) []]

/-- The tree of `nested`. -/
def nestedTree : Tree :=
  construct "module" 0 103 [
    construct "decorated_definition" 0 102 [
      construct "decorator" 0 9 [
        token "@" 0,
        construct "identifier" 1 9 []],
      inField "definition" <| construct "class_definition" 10 102 [
        token "class" 10,
        inField "name" <| construct "identifier" 16 17 [],
        token ":" 17,
        inField "body" <| construct "block" 21 102 [
          construct "class_definition" 21 35 [
            token "class" 21,
            inField "name" <| construct "identifier" 27 28 [],
            token ":" 28,
            inField "body" <| construct "block" 30 35 [
              construct "expression_statement" 30 35 [
                construct "assignment" 30 35 [
                  inField "left" <| construct "identifier" 30 31 [],
                  token "=" 32,
                  inField "right" <| construct "integer" 34 35 []]]]],
          construct "decorated_definition" 38 102 [
            construct "decorator" 38 52 [token "@" 38, route 39],
            trivia "comment" 55 64,
            construct "decorator" 67 81 [token "@" 67, route 68],
            inField "definition" <| construct "function_definition" 84 102 [
              token "async" 84,
              token "def" 90,
              inField "name" <| construct "identifier" 94 95 [],
              inField "parameters" <| construct "parameters" 95 97 [token "(" 95, token ")" 96],
              token ":" 97,
              inField "body" <| construct "block" 99 102 [dots 99]]]]]]]

end Sample

/-- Both classes and the handler are found, each with its own decorators. -/
theorem Module.ofTree_definitions_nested :
    (∀ n ∈ Sample.nestedTree.nodes, IsRegular n) ∧
      List.Forall₂ (ClassDefinition.IsOf (.ofString Sample.nested))
        ((definingNodes Sample.nestedTree).filter fun x => IsClass x)
        (ofTree (.ofString Sample.nested) Sample.nestedTree).classes ∧
      (ofTree (.ofString Sample.nested) Sample.nestedTree).classes.map (fun c => (c.name, c.decorators)) =
        [("A", ["register"]), ("B", [])] ∧
      (ofTree (.ofString Sample.nested) Sample.nestedTree).functions.map (fun f => (f.name, f.decorators)) =
        [("f", [⟨"get", some "/b"⟩, ⟨"put", some "/c"⟩])] := by
  have hregular : ∀ n ∈ Sample.nestedTree.nodes, IsRegular n := by decide
  refine ⟨hregular, (Module.ofTree_definitions _ hregular).2.1, ?_⟩
  decide +kernel

namespace Sample

/-- A handler whose decorator goes on in the next line before it calls anything. -/
def continued : String := "@\\\napp.get(\"/a\")\ndef f():\n    ...\n"

/-- The tree of `continued`. -/
def continuedTree : Tree :=
  construct "module" 0 34 [
    construct "decorated_definition" 0 33 [
      construct "decorator" 0 16 [
        token "@" 0,
        trivia "line_continuation" 1 3,
        route 3],
      inField "definition" <| construct "function_definition" 17 33 [
        token "def" 17,
        inField "name" <| construct "identifier" 21 22 [],
        inField "parameters" <| construct "parameters" 22 24 [token "(" 22, token ")" 23],
        token ":" 24,
        inField "body" <| construct "block" 30 33 [dots 30]]]]

end Sample

/-- A continued line before the call of an attribute hides the function. -/
theorem Module.functions_continued :
    Sample.continuedTree.hasFault = false ∧ (∀ n ∈ Sample.continuedTree.nodes, IsRegular n) ∧
      (∃ x ∈ definingNodes Sample.continuedTree, x.2.kind = "function_definition" ∧
        ∃ d ∈ writtenBy x.1, RouteDecorator.CallsAttribute d) ∧
      (ofTree (.ofString Sample.continued) Sample.continuedTree).functions = [] := by
  decide

end PayloadAtlas.Python
