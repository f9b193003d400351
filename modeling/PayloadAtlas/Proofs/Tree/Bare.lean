import Mathlib.Data.List.Basic
import PayloadAtlas.Tree

/-!
# Trees without their extra nodes

`Tree.bare` drops the extra nodes of a tree, wherever they stand between others, and leaves all other nodes
as they are. What a node says of itself stays (`tag_bare`). The fields of a node are found as before if extra
nodes fill none (`child?_bare`), and its named children are those that are not extra (`namedChildren_bare`).
A first or last child that is not extra stays the first or last one (`head?_children_bare`,
`getLast?_children_bare`).
-/

namespace PayloadAtlas.Tree

mutual

/-- The tree without the nodes below its root that are `isExtra`. -/
def bare : Tree → Tree
  | .node t cs => .node t (bareIn cs)

/-- The trees that are not `isExtra`, without the extra nodes in them. -/
def bareIn : List Tree → List Tree
  | [] => []
  | c :: cs => if c.isExtra then bareIn cs else c.bare :: bareIn cs

end

/-! ## A node and its children -/

@[simp] theorem tag_bare (t : Tree) : t.bare.tag = t.tag := by
  cases t
  rfl

@[simp] theorem kind_bare (t : Tree) : t.bare.kind = t.kind := congrArg Tag.kind t.tag_bare

@[simp] theorem span_bare (t : Tree) : t.bare.span = t.span := congrArg Tag.span t.tag_bare

/-- What `bareIn` leaves are the trees that are not extra, each `bare`. -/
theorem bareIn_eq (cs : List Tree) : bareIn cs = (cs.filter fun c => !c.isExtra).map bare := by
  induction cs with
  | nil => rfl
  | cons c cs ih =>
    rw [bareIn]
    cases h : c.isExtra with
    | true => simp [h, ih]
    | false => simp [h, ih]

theorem children_bare (t : Tree) : t.bare.children = (t.children.filter fun c => !c.isExtra).map bare := by
  cases t
  exact bareIn_eq _

theorem namedChildren_bare (t : Tree) :
    t.bare.namedChildren = (t.namedChildren.filter fun c => !c.isExtra).map bare := by
  have hnamed : ((·.tag.named) ∘ bare : Tree → Bool) = (·.tag.named) := by
    funext c
    simp
  rw [namedChildren, children_bare, List.filter_map, hnamed, List.filter_comm]
  rfl

/-- Fields that no extra node fills are filled as before. -/
theorem child?_bare {t : Tree} (h : ∀ c ∈ t.children, c.isExtra = true → c.tag.field = none)
    (field : String) : t.bare.child? field = (t.child? field).map bare := by
  have hfield : ((·.tag.field == some field) ∘ bare : Tree → Bool) = (·.tag.field == some field) := by
    funext c
    simp
  rw [child?, child?, children_bare, List.find?_map, hfield]
  congr 1
  generalize t.children = cs at h
  -- on the children: an extra one does not fill the field, and any other one is looked at in both trees
  induction cs with
  | nil => rfl
  | cons c cs ih =>
    have hrest := ih fun d hd => h d (List.mem_cons_of_mem c hd)
    cases hc : c.isExtra with
    | true =>
      have hnone : (c.tag.field == some field) = false := by
        rw [h c List.mem_cons_self hc]
        rfl
      rw [List.filter_cons_of_neg (by simp [hc]), List.find?_cons_of_neg (by simp [hnone]), hrest]
    | false =>
      rw [List.filter_cons_of_pos (by simp [hc]), List.find?_cons, List.find?_cons, hrest]

theorem head?_filter_of_head? {α : Type} {p : α → Bool} {xs : List α}
    (h : ∀ x ∈ xs.head?, p x = true) : (xs.filter p).head? = xs.head? := by
  cases xs with
  | nil => rfl
  | cons x xs => rw [List.filter_cons_of_pos (h x rfl), List.head?_cons, List.head?_cons]

theorem head?_children_bare {t : Tree} (h : ∀ c ∈ t.children.head?, c.isExtra = false) :
    t.bare.children.head? = t.children.head?.map bare := by
  rw [children_bare, List.head?_map, head?_filter_of_head? fun c hc => by simp [h c hc]]

theorem getLast?_children_bare {t : Tree} (h : ∀ c ∈ t.children.getLast?, c.isExtra = false) :
    t.bare.children.getLast? = t.children.getLast?.map bare := by
  rw [children_bare, List.getLast?_map, ← List.head?_reverse, ← List.filter_reverse,
    head?_filter_of_head?, List.head?_reverse]
  intro c hc
  rw [List.head?_reverse] at hc
  simp [h c hc]

theorem head?_namedChildren_bare {t : Tree} (h : ∀ c ∈ t.namedChildren.head?, c.isExtra = false) :
    t.bare.namedChildren.head? = t.namedChildren.head?.map bare := by
  rw [namedChildren_bare, List.head?_map, head?_filter_of_head? fun c hc => by simp [h c hc]]

theorem head?_namedChildren {t : Tree} (h : ∀ c ∈ t.children.head?, c.tag.named = true) :
    t.namedChildren.head? = t.children.head? :=
  head?_filter_of_head? h

/-! ## All nodes -/

/-- A node is one of its own `nodes`. -/
theorem mem_nodes_self (t : Tree) : t ∈ t.nodes := by
  cases t
  exact List.mem_cons_self

theorem mem_nodesIn {n : Tree} {cs : List Tree} : n ∈ nodesIn cs ↔ ∃ c ∈ cs, n ∈ c.nodes := by
  induction cs with
  | nil => simp [nodesIn]
  | cons c cs ih => simp [nodesIn, ih]

/-- The `nodes` are the node itself and those of its children. -/
theorem mem_nodes_iff {n t : Tree} : n ∈ t.nodes ↔ n = t ∨ ∃ c ∈ t.children, n ∈ c.nodes := by
  cases t with
  | node tag cs => rw [nodes, List.mem_cons, mem_nodesIn, children]

/-- A child is one of the `nodes`. -/
theorem mem_nodes_of_mem_children {c t : Tree} (h : c ∈ t.children) : c ∈ t.nodes :=
  mem_nodes_iff.mpr (.inr ⟨c, h, c.mem_nodes_self⟩)

mutual

/-- The `nodes` of a node are nodes of the whole. -/
theorem nodes_trans {n m t : Tree} (hm : m ∈ t.nodes) (hn : n ∈ m.nodes) : n ∈ t.nodes := by
  match t with
  | .node tag cs =>
    rw [nodes, List.mem_cons] at hm
    rcases hm with rfl | hm
    · exact hn
    · exact List.mem_cons_of_mem _ (nodesIn_trans hm hn)

/-- The nodes of a node in some trees are in them. -/
theorem nodesIn_trans {n m : Tree} {cs : List Tree} (hm : m ∈ nodesIn cs) (hn : n ∈ m.nodes) :
    n ∈ nodesIn cs := by
  match cs with
  | [] => cases hm
  | c :: cs =>
    rw [nodesIn, List.mem_append] at hm ⊢
    rcases hm with hm | hm
    · exact .inl (nodes_trans hm hn)
    · exact .inr (nodesIn_trans hm hn)

end

theorem mem_children_of_mem_namedChildren {c t : Tree} (h : c ∈ t.namedChildren) : c ∈ t.children :=
  List.mem_of_mem_filter h

theorem mem_children_of_child? {c t : Tree} {field : String} (h : t.child? field = some c) :
    c ∈ t.children :=
  List.mem_of_find?_eq_some h

end PayloadAtlas.Tree
