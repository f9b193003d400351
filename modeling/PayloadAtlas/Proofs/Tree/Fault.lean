import PayloadAtlas.Proofs.Tree.Bare

/-!
# Faults of a tree

A tree has a fault if one of its nodes is an error or a missing token (`hasFault_iff`). The search that looks
only into children with a fault finds the first such node of all (`firstFault_eq_find?`): a child that is passed
over has none, and one that is looked into gives its first.
-/

namespace PayloadAtlas.Tree

mutual

/-- A tree has a fault just if one of its `nodes` is one. -/
theorem hasFault_eq_any (t : Tree) : t.hasFault = t.nodes.any isFault := by
  match t with
  | .node tag cs =>
    rw [hasFault, nodes, List.any_cons, anyFault_eq_any cs]
    rfl

/-- Trees have a fault just if one of their nodes is one. -/
theorem anyFault_eq_any (cs : List Tree) : anyFault cs = (nodesIn cs).any isFault := by
  match cs with
  | [] => rfl
  | c :: cs => rw [anyFault, nodesIn, List.any_append, hasFault_eq_any c, anyFault_eq_any cs]

end

theorem hasFault_iff {t : Tree} : t.hasFault = true ↔ ∃ n ∈ t.nodes, n.isFault = true := by
  rw [hasFault_eq_any, List.any_eq_true]

/-- In a tree without `hasFault` there is no first one. -/
theorem find?_nodes_of_hasFault_eq_false {t : Tree} (h : t.hasFault = false) : t.nodes.find? isFault = none := by
  rw [List.find?_eq_none]
  intro n hn hfault
  exact Bool.false_ne_true (h.symm.trans (hasFault_iff.mpr ⟨n, hn, hfault⟩))

mutual

/-- The search `firstFault`, that passes over children without a fault, finds the first fault of all nodes. -/
theorem firstFault_eq_find? (t : Tree) : t.firstFault = t.nodes.find? isFault := by
  match t with
  | .node tag cs =>
    rw [firstFault, nodes, List.find?_cons]
    cases hself : (Tree.node tag cs).isFault with
    | true => exact if_pos hself
    | false => exact (if_neg (Bool.eq_false_iff.mp hself)).trans (firstFaultIn_eq_find? cs)

/-- So it does in the children, where those without a fault give none. -/
theorem firstFaultIn_eq_find? (cs : List Tree) : firstFaultIn cs = (nodesIn cs).find? isFault := by
  match cs with
  | [] => rfl
  | c :: cs =>
    rw [firstFaultIn, nodesIn, List.find?_append, firstFaultIn_eq_find? cs]
    cases h : c.hasFault with
    | true => rw [if_pos rfl, firstFault_eq_find? c]
    | false => rw [if_neg Bool.false_ne_true, find?_nodes_of_hasFault_eq_false h, Option.none_or]

end

end PayloadAtlas.Tree
