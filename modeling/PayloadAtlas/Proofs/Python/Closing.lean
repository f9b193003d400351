import Mathlib.Data.List.TakeWhile
import PayloadAtlas.Proofs.Grammar.Lost
import PayloadAtlas.Proofs.Python.Paths

/-!
# Closing matches

A branch that has its way closes matches of charged pieces, so what it puts on the branches that go on from there
is charged again (`adds_reduce`). In a lost state nothing can be closed (`closings_lost`), so all that is closed is
closed by branches that have their way (`grows_closeAll`).
-/

namespace PayloadAtlas.Python

open PayloadAtlas.Grammar PayloadAtlas.Text

/-- State `0` of the automaton is the one of a reader that has lost its way. -/
def Language.HasLostState (l : Language) : Prop := (l.automaton.states.getD 0 default).IsLost

theorem Piece.mem_of_mem_splitExtras {ps : List Piece} {q : Piece} (hq : q ∈ (Piece.splitExtras ps).1) : q ∈ ps :=
  List.mem_of_mem_take hq

/-- What is split off the end of a match are its last pieces, as far as they are extras. -/
theorem Piece.mem_splitExtras_snd {ps : List Piece} {q : Piece} (hq : q ∈ (Piece.splitExtras ps).2) :
    q ∈ ps ∧ q.facts.extra = true := by
  have hmem := List.mem_reverse.mp hq
  exact ⟨List.mem_reverse.mp ((List.takeWhile_sublist _).subset hmem),
    List.mem_takeWhile_imp (p := fun p : Piece => p.facts.extra) hmem⟩

namespace Stack

variable {k k' k'' : Stack} {l : Language} {s : Source} {u v : Nat}

/-! ## Steps that add branches -/

/-- A step `k` to `k'` in which no frame lost its way, and after which the branches of `k` stand where they stood. -/
structure Adds (k k' : Stack) : Prop where
  grows : Grows k k'
  keepsFirst : KeepsFirst k.branches.size k.branches k'.branches

theorem Sound.adds (h : k.Sound) : Adds k k := ⟨h.grows, .refl (Nat.le_refl _)⟩

theorem Adds.sound (h : Adds k k') : k'.Sound := h.grows.sound

theorem Adds.size_le (h : Adds k k') : k.branches.size ≤ k'.branches.size := h.keepsFirst.size_le

theorem Adds.trans (h : Adds k k') (h' : Adds k' k'') : Adds k k'' :=
  ⟨h.grows.trans h'.grows, Nat.le_trans h.size_le h'.size_le, fun j hj =>
    (h'.keepsFirst.frame_eq j (Nat.lt_of_lt_of_le hj h.size_le)).trans (h.keepsFirst.frame_eq j hj)⟩

theorem Adds.top_ne_zero (h : Adds k k') (hv : v < k.branches.size) (hway : (k.top v).state ≠ 0) :
    (k'.top v).state ≠ 0 := by
  show stateAt k'.frames (k'.branch v).frame ≠ 0
  rw [Stack.branch, h.keepsFirst.frame_eq v hv]
  exact h.grows.stays.ne_zero hway

/-- Taking a new branch away by `remove` leaves the old ones alone. -/
theorem Adds.remove (h : Adds k k') (hu : k.branches.size ≤ u) : Adds k (k'.remove u) :=
  ⟨h.grows.remove u, h.keepsFirst.trans (keepsFirst_remove h.size_le hu)⟩

/-- Merging a new branch into another by `merge?` takes away the new one. -/
theorem Adds.merge {j : Nat} (h : Adds k k') (hu : k.branches.size ≤ u) (hmerge : k'.merge? l s j u = some k'') :
    Adds k k'' :=
  ⟨h.grows.trans (h.sound.merge hmerge), h.keepsFirst.trans (keepsFirst_merge h.size_le hu hmerge)⟩

theorem Adds.mergeIntoEarlier {except : Nat} (h : Adds k k') (hu : k.branches.size ≤ u)
    (hmerge : k'.mergeIntoEarlier? l s u except = some k'') : Adds k k'' := by
  obtain ⟨j, -, hj⟩ := List.exists_of_findSome?_eq_some hmerge
  split at hj
  · cases hj
  · exact h.merge hu hj

/-- Pieces are put on a branch, one after the other, and lead on only from a branch that has its way. -/
theorem Sound.pushes (h : k.Sound) (ps : List Piece) {state : Nat} (hextras : ∀ p ∈ ps, p.ExtrasCharged)
    (hway : state ≠ 0 → (k.top v).state ≠ 0 ∧ ∀ p ∈ ps, p.Charged) :
    Grows k (ps.foldl (fun k p => k.push l v (some p) state) k) := by
  induction ps generalizing k with
  | nil => exact h.grows
  | cons p ps ih =>
    have hpush : Grows k (k.push l v (some p) state) := by
      refine h.push ?_ fun hstate => ⟨(hway hstate).1, p, rfl, (hway hstate).2 p List.mem_cons_self⟩
      rintro q ⟨⟩
      exact hextras p List.mem_cons_self
    refine hpush.trans (ih hpush.sound (fun q hq => hextras q (List.mem_cons_of_mem p hq)) fun hstate => ?_)
    exact ⟨h.top_push_ne_zero (some p) hstate, fun q hq => (hway hstate).2 q (List.mem_cons_of_mem p hq)⟩

/-- Pieces on a new branch leave the first `n` branches alone. -/
theorem keepsFirst_pushes {n : Nat} (h : n ≤ k.branches.size) (hv : n ≤ v) (ps : List Piece) (state : Nat) :
    KeepsFirst n k.branches (ps.foldl (fun k p => k.push l v (some p) state) k).branches := by
  induction ps generalizing k with
  | nil => exact .refl h
  | cons p ps ih =>
    have hpush := keepsFirst_push (l := l) h hv (some p) state
    exact hpush.trans (ih hpush.size_le)

theorem Adds.pushes (h : Adds k k') (hu : k.branches.size ≤ u) (ps : List Piece) {state : Nat}
    (hextras : ∀ p ∈ ps, p.ExtrasCharged) (hway : state ≠ 0 → (k'.top u).state ≠ 0 ∧ ∀ p ∈ ps, p.Charged) :
    Adds k (ps.foldl (fun k p => k.push l u (some p) state) k') :=
  ⟨h.grows.trans (h.sound.pushes ps hextras hway), h.keepsFirst.trans (keepsFirst_pushes h.size_le hu ps state)⟩

/-! ## Closing one match -/

/-- Slices by their branches, which go up. -/
structure Grouped (xs : List Slice) (gs : List (Nat × List (List Piece))) : Prop where
  branch : ∀ g ∈ gs, ∃ x ∈ xs, x.branch = g.1
  pieces : ∀ g ∈ gs, ∀ ps ∈ g.2, ∃ x ∈ xs, x.pieces = ps
  sorted : gs.Pairwise fun a b => a.1 < b.1

theorem Grouped.mem {xs : List Slice} {gs : List (Nat × List (List Piece))} {x : Slice} (h : Grouped xs gs)
    (hx : ∀ y ∈ xs, x.branch ≤ y.branch) : ∀ g ∈ gs, x.branch ≤ g.1 := by
  intro g hg
  obtain ⟨y, hy, heq⟩ := h.branch g hg
  exact heq ▸ hx y hy

/-- A slice begins a group of its own. -/
theorem Grouped.cons {xs : List Slice} {gs : List (Nat × List (List Piece))} {x : Slice} (h : Grouped xs gs)
    (hx : ∀ g ∈ gs, x.branch < g.1) : Grouped (x :: xs) ((x.branch, [x.pieces]) :: gs) := by
  refine ⟨fun g hg => ?_, fun g hg ps hps => ?_, List.pairwise_cons.mpr ⟨hx, h.sorted⟩⟩
  · rcases List.mem_cons.mp hg with rfl | hg
    · exact ⟨x, List.mem_cons_self, rfl⟩
    · exact (h.branch g hg).imp fun y hy => ⟨List.mem_cons_of_mem x hy.1, hy.2⟩
  · rcases List.mem_cons.mp hg with rfl | hg
    · exact ⟨x, List.mem_cons_self, (List.mem_singleton.mp hps).symm⟩
    · exact (h.pieces g hg ps hps).imp fun y hy => ⟨List.mem_cons_of_mem x hy.1, hy.2⟩

/-- A slice of the branch of the first group joins that group. -/
theorem Grouped.join {xs : List Slice} {gs : List (Nat × List (List Piece))} {x : Slice} {pss : List (List Piece)}
    (h : Grouped xs ((v, pss) :: gs)) : Grouped (x :: xs) ((v, x.pieces :: pss) :: gs) := by
  -- the branches of the groups are as before, and one slice more is in the first
  refine ⟨fun g hg => ?_, fun g hg ps hps => ?_, List.pairwise_cons.mpr (List.pairwise_cons.mp h.sorted)⟩
  · have hbranch : ∃ y ∈ xs, y.branch = g.1 := by
      rcases List.mem_cons.mp hg with rfl | hg
      · exact h.branch (v, pss) List.mem_cons_self
      · exact h.branch g (List.mem_cons_of_mem _ hg)
    exact hbranch.imp fun y hy => ⟨List.mem_cons_of_mem x hy.1, hy.2⟩
  · have hpieces : ps = x.pieces ∨ ∃ y ∈ xs, y.pieces = ps := by
      rcases List.mem_cons.mp hg with rfl | hg
      · exact (List.mem_cons.mp hps).imp_right (h.pieces (v, pss) List.mem_cons_self ps)
      · exact .inr (h.pieces g (List.mem_cons_of_mem _ hg) ps hps)
    rcases hpieces with rfl | ⟨y, hy, heq⟩
    · exact ⟨x, List.mem_cons_self, rfl⟩
    · exact ⟨y, List.mem_cons_of_mem x hy, heq⟩

/-- What `groups` lists are the slices by their branches. -/
theorem grouped_groups {xs : Array Slice} (h : xs.toList.Pairwise fun a b => a.branch ≤ b.branch) :
    Grouped xs.toList (groups xs) := by
  unfold groups
  -- from the right, each slice joins the first group or begins one before it
  rw [← Array.foldr_toList]
  generalize xs.toList = xs at h ⊢
  induction xs with
  | nil => exact ⟨nofun, nofun, .nil⟩
  | cons x xs ih =>
    obtain ⟨hx, hxs⟩ := List.pairwise_cons.mp h
    have hgrouped := ih hxs
    rw [List.foldr_cons]
    generalize List.foldr _ _ xs = out at hgrouped ⊢
    match out with
    | [] => exact hgrouped.cons nofun
    | (v, pss) :: rest =>
      dsimp only
      split
      · exact hgrouped.join
      next hne =>
        have hle : x.branch ≤ v := hgrouped.mem hx (v, pss) List.mem_cons_self
        have hlt : x.branch < v := Nat.lt_of_le_of_ne hle fun heq => hne (beq_iff_eq.mpr heq.symm)
        refine hgrouped.cons fun g hg => ?_
        rcases List.mem_cons.mp hg with rfl | hg
        · exact hlt
        · exact Nat.lt_trans hlt ((List.pairwise_cons.mp hgrouped.sorted).1 g hg)

/-- The `best` match is one of those that were compared. -/
theorem mem_of_best {ms : List Match} {m : Match} (h : best ms = some m) : m ∈ ms := by
  cases ms with
  | nil => cases h
  | cons a ms =>
    cases h
    refine List.foldlRecOn (motive := (· ∈ a :: ms)) _ _ List.mem_cons_self fun b hb c hc => ?_
    split
    · exact List.mem_cons_of_mem a hc
    · exact hb

/-- What is known while a match is closed along the groups `gs`: no branch but new ones is changed. -/
structure Reducing (k : Stack) (gs : List (Nat × List (List Piece))) (x : Stack × Nat) : Prop where
  adds : Adds k x.1
  branch : ∀ g ∈ gs, k.branches.size + x.2 ≤ g.1
  sorted : gs.Pairwise fun a b => a.1 < b.1
  charged : ∀ g ∈ gs, ∀ ps ∈ g.2, ∀ p ∈ ps, p.Charged ∧ p.ExtrasCharged

/-- One group has been dealt with, and at most one branch has been removed. -/
theorem Reducing.next {g : Nat × List (List Piece)} {gs : List (Nat × List (List Piece))} {n m : Nat}
    (h : Reducing k (g :: gs) (k', n)) (hadds : Adds k k'') (hm : m ≤ n + 1) : Reducing k gs (k'', m) := by
  obtain ⟨hg, hgs⟩ := List.pairwise_cons.mp h.sorted
  refine ⟨hadds, fun g' hg' => ?_, hgs, fun g' hg' => h.charged g' (List.mem_cons_of_mem g hg')⟩
  have hlt := hg g' hg'
  have hle : k.branches.size + n ≤ g.1 := h.branch g List.mem_cons_self
  show k.branches.size + m ≤ g'.1
  omega

/-- A match of charged pieces is closed on the new branch `u`, with the extras that follow it. -/
theorem Adds.close (hlost : l.HasLostState) (h : Adds k k') (hu : k.branches.size ≤ u)
    {ps : List Piece} (hps : ∀ p ∈ ps, p.Charged ∧ p.ExtrasCharged) (symbol shape place : Nat) (weight : Int) :
    let m := Piece.join l s (.symbol symbol) shape place (Piece.splitExtras ps).1
    let next := l.automaton.next (k'.top u).state symbol
    Adds k ((Piece.splitExtras ps).2.foldl (fun k p => k.push l u (some p) next)
      (k'.push l u (some (.mk { m.facts with weight := m.facts.weight + weight } m.children)) next)) := by
  intro m next
  have hinner : ∀ p ∈ (Piece.splitExtras ps).1, p.Charged ∧ p.ExtrasCharged := fun p hp =>
    hps p (Piece.mem_of_mem_splitExtras hp)
  have hextras : ∀ p ∈ (Piece.splitExtras ps).2, p.Charged ∧ p.ExtrasCharged := fun p hp =>
    hps p (Piece.mem_splitExtras_snd hp).1
  have hm : m.Charged := Piece.charged_join_symbol fun p hp => (hinner p hp).1
  have hcharged : (Piece.mk { m.facts with weight := m.facts.weight + weight } m.children).Charged :=
    hm.congr rfl rfl rfl
  -- no match leads on from a lost state
  have hway (hnext : next ≠ 0) : (k'.top u).state ≠ 0 := fun hzero =>
    hnext (show l.automaton.next _ symbol = 0 from hzero ▸ Automaton.next_lost hlost symbol)
  refine h.pushes hu (_ :: (Piece.splitExtras ps).2) ?_ fun hnext => ⟨hway hnext, ?_⟩
  · exact List.forall_mem_cons.mpr
      ⟨.intro (fun _ => hcharged) fun p hp => (hinner p hp).2, fun p hp => (hextras p hp).2⟩
  · exact List.forall_mem_cons.mpr ⟨hcharged, fun p hp => (hextras p hp).1⟩

/-- A branch that has its way closes matches of charged pieces only, on branches of their own. -/
theorem Sound.adds_reduce (hlost : l.HasLostState) (h : k.Sound) (hway : (k.top v).state ≠ 0) (target count : Nat)
    (weight : Int) (shape : Nat) : Adds k (k.reduce l s v target count weight shape).2 := by
  have hcuts : Cuts k _ ((k.popCount v count).2, (k.popCount v count).1) := h.cuts_slices v _
  have hgrouped := grouped_groups hcuts.sorted
  unfold Stack.reduce
  dsimp only
  refine Loop.bind_run (q := fun x : Option Nat × Stack => Adds k x.2) (p := Loop.First (Adds k))
    (Loop.forIn_list_leads (Reducing k) ?_ ?_ fun x hx => hx.adds) fun x hx => hx
  · refine ⟨⟨hcuts.grows h, hcuts.keepsFirst⟩, fun g hg => ?_, hgrouped.sorted, fun g hg ps hps p hp => ?_⟩
    · obtain ⟨x, hx, heq⟩ := hgrouped.branch g hg
      exact heq ▸ hcuts.le_branch x (Array.mem_toList_iff.mp hx)
    · obtain ⟨x, hx, rfl⟩ := hgrouped.pieces g hg ps hps
      have hx := Array.mem_toList_iff.mp hx
      exact ⟨hcuts.charged h hway x hx p hp, hcuts.extras h x hx p hp⟩
  · rintro ⟨v', runs⟩ rest ⟨k', removed⟩ hreducing
    -- as the numbers of the groups go up, what has been removed before this one never takes it to an old branch
    have hu : k.branches.size ≤ v' - removed := by
      have hle : k.branches.size + removed ≤ v' := hreducing.branch _ List.mem_cons_self
      omega
    dsimp only
    generalize v' - removed = u at hu ⊢
    split
    · exact hreducing.next (hreducing.adds.remove hu) (Nat.le_refl _)
    · split
      · exact hreducing.next hreducing.adds (Nat.le_succ _)
      next m extras hbest =>
        obtain ⟨ps, hps, heq⟩ := List.mem_map.mp (mem_of_best hbest)
        obtain ⟨rfl, rfl⟩ := Prod.mk.inj heq
        have hclosed := hreducing.adds.close (s := s) hlost hu (hreducing.charged _ List.mem_cons_self ps hps)
          (l.automaton.vocabulary.tokenCount + target) shape (k'.top u).place weight
        split
        next hmerge => exact hreducing.next (hclosed.mergeIntoEarlier hu hmerge) (Nat.le_refl _)
        next => exact hreducing.next hclosed (Nat.le_succ _)

/-- The branch that goes on from there is a new one. -/
theorem eq_of_mem_reduce (k : Stack) (l : Language) (s : Source) (v target count : Nat) (weight : Int) (shape : Nat) :
    ∀ u ∈ (k.reduce l s v target count weight shape).1, u = k.branches.size := by
  unfold Stack.reduce
  refine Loop.bind_run (q := fun x : Option Nat × Stack => ∀ u ∈ x.1, u = k.branches.size) (p := fun _ => True)
    trivial fun x _ u hu => ?_
  change u ∈ (if k.branches.size < x.1.branches.size then some k.branches.size else none) at hu
  split at hu
  · exact (Option.some.inj hu).symm
  · cases hu

/-! ## Closing whatever can be closed -/

theorem closings_add_lost (o : Options) {a : Action} (ha : a = .shiftExtra ∨ a = .recover) :
    (o.add a).closings = o.closings := by
  rcases ha with rfl | rfl
  · rfl
  · rfl

/-- In a lost state no match can be closed: there are no `closings`. -/
theorem closings_lost (hlost : l.HasLostState) (token : Nat) : (options l 0 token).closings = #[] := by
  unfold options
  refine List.foldlRecOn (motive := fun o : Options => o.closings = #[]) _ _ rfl fun o ho t _ => ?_
  refine List.foldlRecOn (motive := fun o : Options => o.closings = #[]) _ _ ho fun o ho a ha => ?_
  rw [closings_add_lost o (Automaton.mem_actions_lost hlost ha), ho]

/-- Closing whatever can be closed before `token` adds branches, and takes none from its way. -/
theorem Sound.grows_closeAll (hlost : l.HasLostState) (h : k.Sound) (v token : Nat) :
    Grows k (k.closeAll l s v token).2 := by
  unfold Stack.closeAll
  refine Loop.bind_run (q := fun x : Bool × Stack => Grows k x.2) (p := Loop.First (Grows k))
    (Loop.forIn_range_keeps h.grows ?_) fun x hx => hx
  rintro i - - ⟨k', can, u⟩ (hgrows : Grows k k')
  dsimp only
  -- a branch beyond the last one is not looked at
  split
  · exact hgrows
  next hu =>
    split
    next hmerge =>
      obtain ⟨j, -, hj⟩ := List.exists_of_findSome?_eq_some hmerge
      exact hgrows.trans (hgrows.sound.merge hj)
    next =>
      refine Loop.bind_run (p := Loop.First (Adds k')) (Loop.forIn_array_keeps hgrows.sound.adds ?_) fun x hx => ?_
      · rintro ⟨target, count, weight, shape⟩ hclosing ⟨k'', last⟩ (hadds : Adds k' k'')
        -- where anything can be closed the way is not lost, and closing one match leaves the branch where it is
        have hway : (k'.top u).state ≠ 0 := by
          intro hzero
          rw [hzero, closings_lost hlost] at hclosing
          exact Array.not_mem_empty _ hclosing
        have hway' := hadds.top_ne_zero (Nat.lt_of_not_le hu) hway
        exact hadds.trans (hadds.sound.adds_reduce hlost hway' target count weight shape)
      · obtain ⟨k'', last⟩ := x
        have hadds : Adds k' k'' := hx
        have hall : Grows k k'' := hgrows.trans hadds.grows
        have hremove := hall.remove u
        dsimp only
        split
        · exact hall
        · split
          · exact hall.trans (hall.sound.renumber _ u)
          · split
            · exact hremove
            · exact hall
        · split
          · exact hremove
          · exact hall

end Stack

end PayloadAtlas.Python
