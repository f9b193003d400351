import Mathlib.Data.List.Nodup
import PayloadAtlas.Proofs.Tree.Bare

/-!
# The order of nodes

Where every node covers its children, one after the other (`Tree.Covers`), all that is below a node lies within
it (`span_of_mem_nodes`), and the nodes that begin with a token begin one after the other in the order in which
`Tree.nodes` lists them (`pairwise_headed`): what is inside begins later than the token, and what comes after
begins later than all that is inside.

`Tree.placed` lists the nodes with what each is a child of. So a node that begins with a token is listed once,
under one parent (`eq_of_mem_placed`).
-/

namespace PayloadAtlas.Tree

/-! ## What nodes cover -/

/-- A node covers its children, by its `span`, one after the other. -/
structure Covers (t : Tree) : Prop where
  start_le_stop : t.span.start ≤ t.span.stop
  within : ∀ c ∈ t.children, t.span.start ≤ c.span.start ∧ c.span.stop ≤ t.span.stop
  pairwise : t.children.Pairwise fun a b => a.span.stop ≤ b.span.start

/-- Whether a node begins with a token that is written out: a first child without children that is not empty. -/
def IsHeaded (t : Tree) : Prop :=
  ∃ k ∈ t.children.head?, k.children = [] ∧ k.span.start < k.span.stop

instance (t : Tree) : Decidable (Covers t) :=
  decidable_of_iff
    (t.span.start ≤ t.span.stop ∧
      (∀ c ∈ t.children, t.span.start ≤ c.span.start ∧ c.span.stop ≤ t.span.stop) ∧
      t.children.Pairwise fun a b => a.span.stop ≤ b.span.start)
    ⟨fun ⟨hle, hwithin, hpairwise⟩ => ⟨hle, hwithin, hpairwise⟩,
      fun ⟨hle, hwithin, hpairwise⟩ => ⟨hle, hwithin, hpairwise⟩⟩

instance (t : Tree) : Decidable t.IsHeaded :=
  match h : t.children.head? with
  | none => .isFalse fun ⟨k, hk, _⟩ => by simp [h] at hk
  | some k =>
    decidable_of_iff (k.children.isEmpty = true ∧ k.span.start < k.span.stop)
      ⟨fun ⟨hempty, hlt⟩ => ⟨k, h, List.isEmpty_iff.mp hempty, hlt⟩,
        fun ⟨l, hl, hempty, hlt⟩ => by
          cases Option.some.inj (h.symm.trans hl)
          exact ⟨List.isEmpty_iff.mpr hempty, hlt⟩⟩

theorem IsHeaded.start_lt_stop {t : Tree} (hcovers : t.Covers) (h : t.IsHeaded) : t.span.start < t.span.stop := by
  obtain ⟨k, hk, _, hlt⟩ := h
  obtain ⟨hstart, hstop⟩ := hcovers.within k (List.mem_of_mem_head? hk)
  omega

mutual

/-- What is below a node lies within its `span`. -/
theorem span_of_mem_nodes {t n : Tree} (h : ∀ m ∈ t.nodes, m.Covers) (hn : n ∈ t.nodes) :
    t.span.start ≤ n.span.start ∧ n.span.stop ≤ t.span.stop := by
  match t with
  | .node tag cs =>
    have hself := h _ (mem_nodes_self _)
    rw [nodes, List.mem_cons] at hn
    rcases hn with rfl | hn
    · exact ⟨Nat.le_refl _, Nat.le_refl _⟩
    · obtain ⟨c, hc, hstart, hstop⟩ := span_of_mem_nodesIn (fun m hm => h m (List.mem_cons_of_mem _ hm)) hn
      have hwithin := hself.within c hc
      omega

/-- What is below some trees lies within one of them. -/
theorem span_of_mem_nodesIn {cs : List Tree} {n : Tree} (h : ∀ m ∈ nodesIn cs, m.Covers) (hn : n ∈ nodesIn cs) :
    ∃ c ∈ cs, c.span.start ≤ n.span.start ∧ n.span.stop ≤ c.span.stop := by
  match cs with
  | [] => cases hn
  | c :: cs =>
    rw [nodesIn, List.forall_mem_append] at h
    rw [nodesIn, List.mem_append] at hn
    rcases hn with hn | hn
    · exact ⟨c, List.mem_cons_self, span_of_mem_nodes h.1 hn⟩
    · obtain ⟨d, hd, hspan⟩ := span_of_mem_nodesIn h.2 hn
      exact ⟨d, List.mem_cons_of_mem c hd, hspan⟩

end

/-! ## Nodes that begin with a token -/

mutual

/-- Nodes that begin with a token begin one after the other. -/
theorem pairwise_headed {t : Tree} (h : ∀ m ∈ t.nodes, m.Covers) :
    (t.nodes.filter fun n => n.IsHeaded).Pairwise fun a b => a.span.start < b.span.start := by
  match t with
  | .node tag cs =>
    have hself := h _ (mem_nodes_self _)
    have hbelow : ∀ m ∈ nodesIn cs, m.Covers := fun m hm => h m (List.mem_cons_of_mem _ hm)
    have hin := pairwise_headedIn hbelow hself.pairwise
    rw [nodes]
    by_cases hheaded : (Tree.node tag cs).IsHeaded
    · rw [List.filter_cons_of_pos (by simpa using hheaded), List.pairwise_cons]
      refine ⟨fun n hn => ?_, hin⟩
      obtain ⟨hn, hnheaded⟩ := List.mem_filter.mp hn
      obtain ⟨k, hk, hleaf, hlt⟩ := hheaded
      obtain ⟨rest, rfl⟩ : ∃ rest, cs = k :: rest := List.head?_eq_some_iff.mp hk
      have hstart := (hself.within k List.mem_cons_self).1
      rw [nodesIn, List.mem_append] at hn
      rcases hn with hn | hn
      · -- the token has nothing in it
        rw [mem_nodes_iff, hleaf] at hn
        simp only [List.not_mem_nil, false_and, exists_false, or_false] at hn
        simp [hn, IsHeaded, hleaf] at hnheaded
      · have hrest : ∀ m ∈ nodesIn rest, m.Covers := fun m hm => hbelow m (List.mem_append_right _ hm)
        obtain ⟨c, hc, hcn, _⟩ := span_of_mem_nodesIn hrest hn
        have hkc := (List.pairwise_cons.mp hself.pairwise).1 c hc
        omega
    · rwa [List.filter_cons_of_neg (by simpa using hheaded)]

/-- So do those in the children of a node, which come one after the other. -/
theorem pairwise_headedIn {cs : List Tree} (h : ∀ m ∈ nodesIn cs, m.Covers)
    (hcs : cs.Pairwise fun a b => a.span.stop ≤ b.span.start) :
    ((nodesIn cs).filter fun n => n.IsHeaded).Pairwise fun a b => a.span.start < b.span.start := by
  match cs with
  | [] => exact .nil
  | c :: cs =>
    rw [nodesIn, List.forall_mem_append] at h
    obtain ⟨hc, hcs⟩ := List.pairwise_cons.mp hcs
    rw [nodesIn, List.filter_append, List.pairwise_append]
    refine ⟨pairwise_headed h.1, pairwise_headedIn h.2 hcs, fun a ha b hb => ?_⟩
    obtain ⟨ha, hheaded⟩ := List.mem_filter.mp ha
    obtain ⟨hb, _⟩ := List.mem_filter.mp hb
    have hlt := IsHeaded.start_lt_stop (h.1 a ha) (by simpa using hheaded)
    have hstop := (span_of_mem_nodes h.1 ha).2
    obtain ⟨d, hd, hdb, _⟩ := span_of_mem_nodesIn h.2 hb
    have hcd := hc d hd
    omega

end

/-! ## Nodes and their parents -/

mutual

/-- The nodes of a tree, each with its parent, which for the root is `parent`. -/
def placed (parent : Option Tree) : Tree → List (Option Tree × Tree)
  | .node t cs => (parent, .node t cs) :: placedIn (some (.node t cs)) cs

/-- The same for the children of `parent`. -/
def placedIn (parent : Option Tree) : List Tree → List (Option Tree × Tree)
  | [] => []
  | c :: cs => placed parent c ++ placedIn parent cs

end

mutual

/-- With their parents left out, these are the `nodes`. -/
theorem map_snd_placed (parent : Option Tree) (t : Tree) : (t.placed parent).map Prod.snd = t.nodes := by
  match t with
  | .node tag cs => rw [placed, nodes, List.map_cons, map_snd_placedIn]

/-- With their parents left out, these are the `nodesIn`. -/
theorem map_snd_placedIn (parent : Option Tree) (cs : List Tree) :
    (placedIn parent cs).map Prod.snd = nodesIn cs := by
  match cs with
  | [] => rfl
  | c :: cs => rw [placedIn, nodesIn, List.map_append, map_snd_placed, map_snd_placedIn]

end

theorem mem_placedIn {parent : Option Tree} {cs : List Tree} {x : Option Tree × Tree} :
    x ∈ placedIn parent cs ↔ ∃ c ∈ cs, x ∈ c.placed parent := by
  induction cs with
  | nil => simp [placedIn]
  | cons c cs ih => simp [placedIn, ih]

/-- The root has the `parent` that is given. -/
theorem self_mem_placed (parent : Option Tree) (t : Tree) : (parent, t) ∈ t.placed parent := by
  cases t
  exact List.mem_cons_self

/-- What is placed is one of the `nodes`. -/
theorem mem_nodes_of_mem_placed {parent : Option Tree} {t : Tree} {x : Option Tree × Tree}
    (hx : x ∈ t.placed parent) : x.2 ∈ t.nodes := by
  rw [← map_snd_placed parent]
  exact List.mem_map_of_mem hx

mutual

/-- With a node all children of its parent are listed under that parent. -/
theorem children_placed {parent : Option Tree} {t p n : Tree} (h : (some p, n) ∈ t.placed parent) :
    (parent = some p ∧ n = t) ∨ (p ∈ t.nodes ∧ n ∈ p.children ∧ ∀ c ∈ p.children, (some p, c) ∈ t.placed parent) := by
  match t with
  | .node tag cs =>
    rw [placed, List.mem_cons] at h
    rcases h with h | h
    · cases h
      exact .inl ⟨rfl, rfl⟩
    · right
      -- the parent is the root or below it
      rcases children_placedIn h with ⟨hp, hn⟩ | ⟨hp, hn, hall⟩
      · cases hp
        refine ⟨mem_nodes_self _, hn, fun c hc => ?_⟩
        exact List.mem_cons_of_mem _ (mem_placedIn.mpr ⟨c, hc, self_mem_placed _ c⟩)
      · exact ⟨List.mem_cons_of_mem _ hp, hn, fun c hc => List.mem_cons_of_mem _ (hall c hc)⟩

/-- So it is in the children of a node. -/
theorem children_placedIn {parent : Option Tree} {cs : List Tree} {p n : Tree}
    (h : (some p, n) ∈ placedIn parent cs) :
    (parent = some p ∧ n ∈ cs) ∨
      (p ∈ nodesIn cs ∧ n ∈ p.children ∧ ∀ c ∈ p.children, (some p, c) ∈ placedIn parent cs) := by
  match cs with
  | [] => cases h
  | d :: ds =>
    rw [placedIn, List.mem_append] at h
    rcases h with h | h
    · rcases children_placed h with ⟨hp, rfl⟩ | ⟨hp, hn, hall⟩
      · exact .inl ⟨hp, List.mem_cons_self⟩
      · exact .inr ⟨List.mem_append_left _ hp, hn, fun c hc => List.mem_append_left _ (hall c hc)⟩
    · rcases children_placedIn h with ⟨hp, hn⟩ | ⟨hp, hn, hall⟩
      · exact .inl ⟨hp, List.mem_cons_of_mem d hn⟩
      · exact .inr ⟨List.mem_append_right _ hp, hn, fun c hc => List.mem_append_right _ (hall c hc)⟩

end

/-- The nodes of `placed` that begin with a token begin one after the other. -/
theorem pairwise_placed {t : Tree} (h : ∀ m ∈ t.nodes, m.Covers) (parent : Option Tree) :
    ((t.placed parent).filter fun x => x.2.IsHeaded).Pairwise fun x y => x.2.span.start < y.2.span.start := by
  have hpairwise := pairwise_headed h
  rw [← map_snd_placed parent, List.filter_map, List.pairwise_map] at hpairwise
  exact hpairwise

/-- A node that begins with a token is listed once in `placed`. -/
theorem eq_of_mem_placed {t : Tree} (h : ∀ m ∈ t.nodes, m.Covers) {parent : Option Tree}
    {x y : Option Tree × Tree} (hx : x ∈ t.placed parent) (hy : y ∈ t.placed parent) (hheaded : x.2.IsHeaded)
    (hsame : y.2 = x.2) : y = x := by
  have hmem {z : Option Tree × Tree} (hz : z ∈ t.placed parent) (hsame : z.2 = x.2) :
      z ∈ (t.placed parent).filter fun z => z.2.IsHeaded :=
    List.mem_filter.mpr ⟨hz, by simpa [hsame] using hheaded⟩
  have hnodup : (((t.placed parent).filter fun z => z.2.IsHeaded).map fun z => z.2.span.start).Nodup :=
    List.pairwise_map.mpr ((pairwise_placed h parent).imp Nat.ne_of_lt)
  exact List.inj_on_of_nodup_map hnodup (hmem hy hsame) (hmem hx rfl) (by rw [hsame])

end PayloadAtlas.Tree
