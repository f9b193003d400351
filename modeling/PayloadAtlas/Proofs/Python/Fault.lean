import PayloadAtlas.Proofs.Python.Reading
import PayloadAtlas.Python.Module

/-!
# The first fault of a source

A source is rejected if its tree has a faulty node, and with the position of the first one. The other sources that are
rejected are those in which a token is missing that would not be a node: there is no position then but the beginning.
-/

namespace PayloadAtlas.Python

open PayloadAtlas.Grammar PayloadAtlas.Text

/-- The automaton of the language has a lost state, so that what holds of those holds here. -/
theorem hasLostState_language : language.HasLostState := by
  unfold Language.HasLostState language Language.ofAutomaton automaton
  exact Automaton.isLost_ofGrammar grammar contention

/-- Reading costs something if and only if a node is faulty or a token without a node is missing. -/
theorem cost_ne_zero_iff_hasFault {s : Source} {p : Piece} (h : whole? language s = some p) :
    p.cost ≠ 0 ↔ (p.toTree language).hasFault = true ∨ p.LacksHidden language :=
  Iff.trans (costsFaults_whole? hasLostState_language h) Piece.hasFaulty_iff_hasFault

namespace Module

/-- The search finds the first faulty node of every tree. A source is rejected with its place if there is one; if
there is none, it is rejected at the line `1` and column `1` if a token without a node is missing, and is read
otherwise. -/
theorem ofString_fault (text : String) :
    (∀ t : Tree, t.firstFault = t.nodes.find? Tree.isFault ∧
      (t.hasFault = true ↔ ∃ n ∈ t.nodes, n.isFault = true)) ∧
    ofString text =
      match whole? language (Source.ofString text) with
      | none => .error .noTree
      | some p =>
        match (p.toTree language).nodes.find? Tree.isFault with
        | some n => .error (.fault ((Source.ofString text).lineOf n.span.start)
            ((Source.ofString text).columnOf n.span.start))
        | none =>
          if p.LacksHidden language then .error (.fault 1 1)
          else .ok (ofTree (Source.ofString text) (p.toTree language)) := by
  refine ⟨fun t => ⟨t.firstFault_eq_find?, Tree.hasFault_iff⟩, ?_⟩
  unfold ofString read? faultPosition
  dsimp only
  cases hwhole : whole? language (Source.ofString text) with
  | none => rfl
  | some p =>
    have hcost := cost_ne_zero_iff_hasFault hwhole
    rw [Tree.hasFault_iff] at hcost
    dsimp only [Option.map_some]
    rw [Tree.firstFault_eq_find?]
    -- the cost decides whether the source is rejected, and the first fault, if there is one, where
    cases hfind : (p.toTree language).nodes.find? Tree.isFault with
    | some n =>
      have hfault : ∃ n ∈ (p.toTree language).nodes, n.isFault = true :=
        ⟨n, List.mem_of_find?_eq_some hfind, List.find?_some hfind⟩
      exact if_neg (hcost.mpr (.inl hfault))
    | none =>
      have hfault : ¬ ∃ n ∈ (p.toTree language).nodes, n.isFault = true := fun ⟨n, hn, hfault⟩ =>
        List.find?_eq_none.mp hfind n hn hfault
      dsimp only
      by_cases hlacks : p.LacksHidden language
      · rw [if_pos hlacks, if_neg (hcost.mpr (.inr hlacks))]
      · rw [if_neg hlacks, if_pos (not_not.mp fun hne => (hcost.mp hne).elim hfault hlacks)]

end Module

end PayloadAtlas.Python
