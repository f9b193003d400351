import Mathlib.Algebra.GroupWithZero.Nat
import PayloadAtlas.Proofs.Tree.Fault
import PayloadAtlas.Python.Piece

/-!
# What faults cost

A piece is charged for its faults (`Piece.Charged`) if each match in it costs what its parts cost, down to errors,
which cost something by themselves. Such a piece costs something if and only if there is an error or a missing
token in it (`Charged.costsFaults`). Pieces that are made of charged pieces are charged (`charged_join_symbol`); a run
of skipped tokens is not, as it costs nothing to those that it is a part of, but an error that it is a part of is.

Not all parts of a piece are nodes of its tree (`Piece.parts`). An error always is one, and a missing token is not
always (`hasFaulty_iff_hasFault`).
-/

namespace PayloadAtlas.Python

open PayloadAtlas.Grammar PayloadAtlas.Text

namespace Piece

/-! ## Charged pieces -/

/-- What is in a piece has been added to its `cost`. -/
inductive Charged : Piece → Prop
  /-- What is in an error does not matter, as an error costs something in any case. -/
  | error {f : Facts} {cs : List Piece} (hkind : f.kind = .error) (hcost : f.cost ≠ 0) : Charged (.mk f cs)
  | symbol {f : Facts} {cs : List Piece} {n : Nat} (hkind : f.kind = .symbol n) (hcost : f.cost = (cs.map cost).sum)
      (hparts : ∀ c ∈ cs, Charged c) : Charged (.mk f cs)

/-- Whatever may stand anywhere in a piece is `Charged`, and so is the piece itself if it may. -/
inductive ExtrasCharged : Piece → Prop
  | intro {p : Piece} (hself : p.facts.extra = true → Charged p) (hparts : ∀ c ∈ p.children, ExtrasCharged c) :
    ExtrasCharged p

/-- A token: it has no children, and nothing has been charged for it. -/
structure IsToken (p : Piece) : Prop where
  children : p.children = []
  cost : p.facts.cost = 0
  symbol_of_extra : p.facts.extra = true → ∃ n, p.facts.kind = .symbol n

variable {l : Language} {s : Source} {p : Piece}

theorem Charged.kind_ne_skipped (h : Charged p) : p.facts.kind ≠ .skipped := by
  cases h with
  | error hkind => exact hkind ▸ nofun
  | symbol hkind => exact hkind ▸ nofun

/-- Only the kind, the cost and the parts of a piece matter for `Charged`. -/
theorem Charged.congr {q : Piece} (h : Charged p) (hkind : q.facts.kind = p.facts.kind)
    (hcost : q.facts.cost = p.facts.cost) (hchildren : q.children = p.children) : Charged q := by
  cases q with
  | mk f cs =>
    cases h with
    | error hkind' hcost' => exact .error (hkind.trans hkind') (hcost ▸ hcost')
    | symbol hkind' hcost' hparts =>
      obtain rfl := hchildren
      exact .symbol (hkind.trans hkind') (hcost.trans hcost') hparts

/-- A piece stays charged by `setExtra`. -/
theorem Charged.setExtra (h : Charged p) (extra : Bool) : Charged (p.setExtra extra) := h.congr rfl rfl rfl

theorem Charged.parts {n : Nat} (h : Charged p) (hkind : p.facts.kind = .symbol n) : ∀ c ∈ p.children, Charged c := by
  cases h with
  | error hkind' => cases hkind'.symm.trans hkind
  | symbol _ _ hparts => exact hparts

theorem ExtrasCharged.self (h : ExtrasCharged p) : p.facts.extra = true → Charged p := by
  cases h
  assumption

theorem ExtrasCharged.parts (h : ExtrasCharged p) : ∀ c ∈ p.children, ExtrasCharged c := by
  cases h
  assumption

theorem charged_of_no_parts {n : Nat} (hchildren : p.children = []) (hcost : p.facts.cost = 0)
    (hkind : p.facts.kind = .symbol n) : Charged p := by
  cases p with
  | mk f cs =>
    obtain rfl : cs = [] := hchildren
    exact .symbol hkind hcost nofun

theorem IsToken.charged {n : Nat} (h : IsToken p) (hkind : p.facts.kind = .symbol n) : Charged p :=
  charged_of_no_parts h.children h.cost hkind

theorem IsToken.extrasCharged_parts (h : IsToken p) : ∀ c ∈ p.children, ExtrasCharged c := by
  rw [h.children]
  exact nofun

theorem IsToken.extrasCharged (h : IsToken p) : ExtrasCharged p := by
  refine .intro (fun hextra => ?_) h.extrasCharged_parts
  obtain ⟨n, hkind⟩ := h.symbol_of_extra hextra
  exact h.charged hkind

theorem IsToken.extrasCharged_setExtra {n : Nat} (h : IsToken p) (hkind : p.facts.kind = .symbol n) (extra : Bool) :
    ExtrasCharged (p.setExtra extra) :=
  .intro (fun _ => (h.charged hkind).setExtra extra) h.extrasCharged_parts

/-! ## Pieces made of parts -/

/-- What a part adds to the cost of a match: skipped runs do not add anything. -/
def ownCost (c : Piece) : Nat := if c.facts.kind == .skipped then 0 else c.cost

/-- No part changes what the whole is. -/
theorem kind_absorb (l : Language) (slots : Array Slot) (fault : Bool) (cs : List Piece) (x : Facts × Nat) :
    (cs.foldl (absorb l slots fault) x).1.kind = x.1.kind ∧
      (cs.foldl (absorb l slots fault) x).1.extra = x.1.extra := by
  induction cs generalizing x with
  | nil => exact ⟨rfl, rfl⟩
  | cons c cs ih => exact ih (absorb l slots fault x c)

/-- Each part adds its `ownCost` to that of the whole. -/
theorem cost_absorb (l : Language) (slots : Array Slot) (cs : List Piece) (x : Facts × Nat) :
    (cs.foldl (absorb l slots false) x).1.cost = x.1.cost + (cs.map ownCost).sum := by
  induction cs generalizing x with
  | nil => rfl
  | cons c cs ih =>
    rw [List.foldl_cons, ih, List.map_cons, List.sum_cons]
    show x.1.cost + ownCost c + 0 + _ = _
    omega

variable {kind : PieceKind} {shape place : Nat} {cs : List Piece}

theorem kind_join : (join l s kind shape place cs).facts.kind = kind := (kind_absorb _ _ _ _ _).1

theorem extra_join : (join l s kind shape place cs).facts.extra = false := (kind_absorb _ _ _ _ _).2

/-- A match, made by `join`, costs what its parts cost. -/
theorem cost_join_symbol (n : Nat) : (join l s (.symbol n) shape place cs).facts.cost = (cs.map ownCost).sum := by
  show (cs.foldl (absorb l _ false) _).1.cost + 0 = _
  rw [cost_absorb, Nat.add_zero]
  exact Nat.zero_add _

/-- A match of charged pieces, made by `join`, is charged. -/
theorem charged_join_symbol {n : Nat} (h : ∀ c ∈ cs, Charged c) : Charged (join l s (.symbol n) shape place cs) := by
  refine .symbol kind_join ((cost_join_symbol n).trans ?_) h
  congr 1
  refine List.map_congr_left fun c hc => if_neg ?_
  simpa using (h c hc).kind_ne_skipped

/-- An error is charged by itself, whatever is in it. -/
theorem charged_join_error : Charged (join l s .error shape place cs) := by
  refine .error kind_join ?_
  show (cs.foldl (absorb l _ true) _).1.cost + (recoveryCost + _ + _) ≠ 0
  have hpos : 0 < recoveryCost := by decide
  omega

/-- The extras in the whole are those in its parts, as the whole is none. -/
theorem extrasCharged_join (h : ∀ c ∈ cs, ExtrasCharged c) : ExtrasCharged (join l s kind shape place cs) := by
  refine ⟨fun hextra => ?_, h⟩
  rw [extra_join] at hextra
  cases hextra

/-! ## Parts -/

/-- Whether the piece could not be read, or stands for a token that the text does not have. -/
def isFaulty (p : Piece) : Bool := p.facts.kind == .error || p.facts.missing

mutual

/-- The parts of a piece under a label, the piece itself first; the truth value says which are nodes. -/
def partsUnder (l : Language) (label : Option Label) : Piece → List (Bool × Piece)
  | .mk f cs =>
    let p : Piece := .mk f cs
    (label.isSome || p.isShown l, p) :: partsOfAll l (p.slots l) 0 cs

/-- The parts of pieces; `i` counts the pieces that fill slots. -/
def partsOfAll (l : Language) (slots : Array Slot) (i : Nat) : List Piece → List (Bool × Piece)
  | [] => []
  | c :: cs =>
    if c.facts.extra then partsUnder l none c ++ partsOfAll l slots i cs
    else partsUnder l (slots.getD i (none, none)).1 c ++ partsOfAll l slots (i + 1) cs

end

/-- The parts of the piece of a whole source, which is a node in any case. -/
def parts (l : Language) (p : Piece) : List (Bool × Piece) := (true, p) :: partsOfAll l (p.slots l) 0 p.children

/-- Whether a token is missing that would not be a node, so that the tree cannot show the fault. -/
def LacksHidden (l : Language) (p : Piece) : Prop := ∃ x ∈ p.parts l, x.1 = false ∧ x.2.facts.missing = true

instance (l : Language) (p : Piece) : Decidable (p.LacksHidden l) := List.decidableBEx _ _

section Nodes

theorem nodesIn_append (ts us : List Tree) : Tree.nodesIn (ts ++ us) = Tree.nodesIn ts ++ Tree.nodesIn us := by
  induction ts with
  | nil => rfl
  | cons t ts ih => rw [List.cons_append, Tree.nodesIn, Tree.nodesIn, ih, List.append_assoc]

theorem fault_tag (p : Piece) (label : Option Label) (field : Option String) :
    (p.tag l label field).fault
      = if p.facts.kind == .error then .error else if p.facts.missing then .missing else .none := by
  unfold tag
  dsimp only

/-- The node of a piece is a fault if and only if the piece `isFaulty`. -/
theorem isFault_tag (p : Piece) (label : Option Label) (field : Option String) (ts : List Tree) :
    (Tree.node (p.tag l label field) ts).isFault = p.isFaulty := by
  show ((p.tag l label field).fault != .none) = _
  rw [fault_tag, isFaulty]
  cases p.facts.kind == .error with
  | true => rfl
  | false => cases p.facts.missing <;> rfl

theorem map_isFault_withField (field : Option String) (ts : List Tree) :
    (Tree.nodesIn (ts.map (withField field))).map Tree.isFault = (Tree.nodesIn ts).map Tree.isFault := by
  induction ts with
  | nil => rfl
  | cons t ts ih =>
    cases t with
    | node tag cs =>
      rw [List.map_cons, Tree.nodesIn, Tree.nodesIn, List.map_append, List.map_append, ih]
      rfl

mutual

/-- The nodes of the `trees` are the parts that are nodes, in their order. -/
theorem map_isFault_trees (label : Option Label) (field : Option String) (p : Piece) :
    (Tree.nodesIn (trees l label field p)).map Tree.isFault
      = ((partsUnder l label p).filter (·.1)).map (·.2.isFaulty) := by
  match p with
  | .mk f cs =>
    have hbelow := map_isFault_treesOfAll ((Piece.mk f cs).slots l) 0 cs
    rw [trees, partsUnder]
    cases hnode : label.isSome || (Piece.mk f cs).isShown l with
    | true =>
      rw [if_pos rfl, Tree.nodesIn, Tree.nodesIn, List.append_nil, Tree.nodes, List.map_cons,
        List.filter_cons_of_pos rfl, List.map_cons, isFault_tag, hbelow]
    | false =>
      rw [if_neg Bool.false_ne_true, map_isFault_withField, hbelow, List.filter_cons_of_neg Bool.false_ne_true]

theorem map_isFault_treesOfAll (slots : Array Slot) (i : Nat) (cs : List Piece) :
    (Tree.nodesIn (treesOfAll l slots i cs)).map Tree.isFault
      = ((partsOfAll l slots i cs).filter (·.1)).map (·.2.isFaulty) := by
  match cs with
  | [] => rfl
  | c :: cs =>
    rw [treesOfAll, partsOfAll]
    split
    · rw [nodesIn_append, List.map_append, map_isFault_trees, map_isFault_treesOfAll, List.filter_append,
        List.map_append]
    · dsimp only
      rw [nodesIn_append, List.map_append, map_isFault_trees, map_isFault_treesOfAll, List.filter_append,
        List.map_append]

end

/-- The nodes of `toTree` are the parts of the piece that are nodes. -/
theorem map_isFault_toTree (p : Piece) :
    (p.toTree l).nodes.map Tree.isFault = ((p.parts l).filter (·.1)).map (·.2.isFaulty) := by
  rw [toTree, Tree.nodes, parts, List.map_cons, isFault_tag, map_isFault_treesOfAll, List.filter_cons_of_pos rfl,
    List.map_cons]

/-- The tree of `toTree` has a fault if and only if a part that is a node is faulty. -/
theorem hasFault_toTree_iff (p : Piece) :
    (p.toTree l).hasFault = true ↔ ∃ x ∈ p.parts l, x.1 = true ∧ x.2.isFaulty = true := by
  have hmem : true ∈ (p.toTree l).nodes.map Tree.isFault ↔ true ∈ ((p.parts l).filter (·.1)).map (·.2.isFaulty) :=
    map_isFault_toTree p ▸ Iff.rfl
  simp only [List.mem_map, List.mem_filter] at hmem
  rw [Tree.hasFault_iff, hmem]
  exact ⟨fun ⟨x, hx, hfaulty⟩ => ⟨x, hx.1, hx.2, hfaulty⟩, fun ⟨x, hx, hnode, hfaulty⟩ => ⟨x, ⟨hx, hnode⟩, hfaulty⟩⟩

end Nodes

/-! ## What has a cost has a fault -/

mutual

/-- An error is always a node, under whatever label. -/
theorem fst_of_mem_partsUnder {label : Option Label} {p : Piece} {x : Bool × Piece} (hx : x ∈ partsUnder l label p)
    (hkind : x.2.facts.kind = .error) : x.1 = true := by
  match p with
  | .mk f cs =>
    rw [partsUnder, List.mem_cons] at hx
    rcases hx with rfl | hx
    · have hshown : (Piece.mk f cs).isShown l = true := by rw [isShown, hkind]
      exact Bool.or_eq_true_iff.mpr (.inr hshown)
    · exact fst_of_mem_partsOfAll hx hkind

theorem fst_of_mem_partsOfAll {slots : Array Slot} {i : Nat} {cs : List Piece} {x : Bool × Piece}
    (hx : x ∈ partsOfAll l slots i cs) (hkind : x.2.facts.kind = .error) : x.1 = true := by
  match cs with
  | [] => cases hx
  | c :: cs =>
    rw [partsOfAll] at hx
    split at hx
    · rcases List.mem_append.mp hx with hx | hx
      · exact fst_of_mem_partsUnder hx hkind
      · exact fst_of_mem_partsOfAll hx hkind
    · rcases List.mem_append.mp hx with hx | hx
      · exact fst_of_mem_partsUnder hx hkind
      · exact fst_of_mem_partsOfAll hx hkind

end

/-- Something in the piece is faulty. -/
def HasFaulty (l : Language) (p : Piece) : Prop := ∃ x ∈ p.parts l, x.2.isFaulty = true

theorem exists_mem_partsUnder_iff {label : Option Label} :
    (∃ x ∈ partsUnder l label p, x.2.isFaulty = true) ↔ HasFaulty l p := by
  cases p with
  | mk f cs =>
    rw [HasFaulty, partsUnder, parts, List.exists_mem_cons_iff, List.exists_mem_cons_iff]
    rfl

theorem exists_mem_partsOfAll_iff {slots : Array Slot} {i : Nat} {cs : List Piece} :
    (∃ x ∈ partsOfAll l slots i cs, x.2.isFaulty = true) ↔ ∃ c ∈ cs, HasFaulty l c := by
  induction cs generalizing i with
  | nil => exact ⟨nofun, nofun⟩
  | cons c cs ih =>
    rw [List.exists_mem_cons_iff, partsOfAll]
    split
    · simp only [List.mem_append, or_and_right, exists_or, exists_mem_partsUnder_iff, ih]
    · simp only [List.mem_append, or_and_right, exists_or, exists_mem_partsUnder_iff, ih]

/-- Something in a piece is faulty if the piece is, or something in one of its children. -/
theorem hasFaulty_iff : HasFaulty l p ↔ p.isFaulty = true ∨ ∃ c ∈ p.children, HasFaulty l c := by
  rw [HasFaulty, parts, List.exists_mem_cons_iff, exists_mem_partsOfAll_iff]

/-- Whether the piece costs something if and only if something in it is faulty. -/
def CostsFaults (l : Language) (p : Piece) : Prop := p.cost ≠ 0 ↔ HasFaulty l p

/-- A `Charged` piece costs something if and only if an error or a missing token is in it. -/
theorem Charged.costsFaults (h : Charged p) : p.CostsFaults l := by
  unfold CostsFaults
  induction h with
  | @error f cs hkind hcost =>
    refine iff_of_true ?_ (hasFaulty_iff.mpr (.inl ?_))
    · rw [cost]
      split
      · exact Nat.succ_ne_zero _
      · exact hcost
    · rw [isFaulty, facts, hkind]
      rfl
  | @symbol f cs n hkind hcost hparts ih =>
    have hself : (Piece.mk f cs).isFaulty = f.missing := by
      rw [isFaulty, facts, hkind]
      rfl
    rw [hasFaulty_iff, hself, cost, facts]
    cases hmissing : f.missing with
    | true => exact iff_of_true (Nat.succ_ne_zero _) (.inl rfl)
    | false =>
      -- what it costs is the sum of what the parts cost
      rw [if_neg Bool.false_ne_true, hcost, Ne, List.sum_eq_zero_iff_forall_eq_nat]
      simp only [List.forall_mem_map, Bool.false_eq_true, false_or, not_forall, exists_prop]
      exact exists_congr fun c => and_congr_right fun hc => ih c hc

/-- A match with an error in it costs something, whatever else is in it. -/
theorem costsFaults_join_of_error {n : Nat} {c : Piece} (hc : c ∈ cs) (hcharged : Charged c)
    (hkind : c.facts.kind = .error) : (join l s (.symbol n) shape place cs).CostsFaults l := by
  have hfaulty : HasFaulty l c := hasFaulty_iff.mpr (.inl (by rw [isFaulty, hkind]; rfl))
  have hown : ownCost c ≠ 0 := by
    rw [ownCost, hkind]
    exact hcharged.costsFaults.mpr hfaulty
  refine iff_of_true ?_ (hasFaulty_iff.mpr (.inr ⟨c, hc, hfaulty⟩))
  rw [cost]
  split
  · exact Nat.succ_ne_zero _
  · rw [cost_join_symbol, Ne, List.sum_eq_zero_iff_forall_eq_nat]
    exact fun hzero => hown (hzero _ (List.mem_map_of_mem hc))

/-- Something in a piece is faulty if and only if its tree `hasFault`, or a token without a node is missing. -/
theorem hasFaulty_iff_hasFault : HasFaulty l p ↔ (p.toTree l).hasFault = true ∨ p.LacksHidden l := by
  rw [hasFault_toTree_iff]
  constructor
  · rintro ⟨x, hx, hfaulty⟩
    cases hnode : x.1 with
    | true => exact .inl ⟨x, hx, hnode, hfaulty⟩
    | false =>
      -- it is no error, as errors are nodes
      refine .inr ⟨x, hx, hnode, ?_⟩
      rcases Bool.or_eq_true_iff.mp hfaulty with hkind | hmissing
      · rw [Piece.parts, List.mem_cons] at hx
        rcases hx with rfl | hx
        · cases hnode
        · exact absurd (fst_of_mem_partsOfAll hx (by simpa using hkind)) (hnode ▸ Bool.false_ne_true)
      · exact hmissing
  · rintro (⟨x, hx, -, hfaulty⟩ | ⟨x, hx, -, hmissing⟩)
    · exact ⟨x, hx, hfaulty⟩
    · exact ⟨x, hx, Bool.or_eq_true_iff.mpr (.inr hmissing)⟩

end Piece

end PayloadAtlas.Python
