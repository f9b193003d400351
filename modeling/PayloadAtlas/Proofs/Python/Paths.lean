import PayloadAtlas.Proofs.Python.Graph

/-!
# Paths back from a branch

What is popped along the paths from a branch that has its way is charged, and the paths end where branches have
their way (`onWay_of_mem_paths`). The branches that go on from their ends are new ones; their numbers do not go
down from one path to the next (`Cuts`).
-/

namespace PayloadAtlas.Python

open PayloadAtlas.Text

namespace Stack

variable {k k' : Stack} {l : Language} {s : Source} {v : Nat}

/-! ## Following paths -/

/-- Each path of `after` goes one link further than one of `before`. -/
def Extends (k : Stack) (before after : Array Path) : Prop :=
  ∀ p ∈ after, ∃ q ∈ before, ∃ x ∈ (k.frame q.frame).links, p = q.extend x

/-- The paths of one step while they are collected. -/
structure Collects (k : Stack) (paths : Array Path) (x : Array Path × Array Path × Array Path) : Prop where
  kept : ∀ p ∈ x.1, p ∈ paths
  own : Extends k paths x.2.1
  more : Extends k paths x.2.2

theorem getD_mem {α : Type} {xs : Array α} {i : Nat} (d : α) (h : i < xs.size) : xs.getD i d ∈ xs := by
  rw [← Array.getElem_eq_getD (h := h)]
  exact Array.getElem_mem h

theorem Extends.push {before after : Array Path} {p : Path} {x : Link} (h : Extends k before after)
    (hp : p ∈ before) (hx : x ∈ (k.frame p.frame).links) : Extends k before (after.push (p.extend x)) := by
  intro q hq
  rcases Array.mem_push.mp hq with hq | rfl
  · exact h q hq
  · exact ⟨p, hp, x, hx, rfl⟩

/-- A path is followed along all links of its last frame, or along none. -/
theorem collects_follow {paths kept own more : Array Path} {p : Path} {room : Nat} {stop : Bool} (hp : p ∈ paths)
    (h : Collects k paths (kept, own, more)) (hstop : stop = false → 0 < (k.frame p.frame).links.size) :
    Loop.Leads (Collects k paths) (Collects k paths)
      (if stop = true then pure (.yield (kept, own, more))
      else do
        let more ← forIn [1:(k.frame p.frame).links.size] more fun j more =>
          if own.size + room + more.size < maxPaths then
            pure (.yield (more.push (p.extend ((k.frame p.frame).links.getD j default))))
          else pure (.yield more)
        pure (.yield (kept, own.push (p.extend ((k.frame p.frame).links.getD 0 default)), more)) : Id _).run := by
  cases stop with
  | true => exact h
  | false =>
    refine Loop.bind_run (p := Extends k paths) (Loop.forIn_range_keeps h.more ?_) fun more' hmore' =>
      ⟨h.kept, h.own.push hp (getD_mem default (hstop rfl)), hmore'⟩
    intro j _ hj more' hmore'
    have hmem := getD_mem default hj
    generalize (k.frame p.frame).links.getD j default = x at hmem ⊢
    split
    · exact hmore'.push hp hmem
    · exact hmore'

/-- In one step of `stepPaths` paths are kept, or followed one link further. -/
theorem stepPaths_spec (verdict : Path → Verdict) (paths : Array Path) :
    (∀ p ∈ (k.stepPaths verdict paths).1, p ∈ paths) ∧ Extends k paths (k.stepPaths verdict paths).2 := by
  unfold stepPaths
  refine Loop.bind_run (p := Collects k paths)
    (q := fun x : Array Path × Array Path => (∀ p ∈ x.1, p ∈ paths) ∧ Extends k paths x.2)
    (Loop.forIn_range_keeps ⟨nofun, nofun, nofun⟩ ?_) fun x hx => ⟨hx.kept, fun p hp => ?_⟩
  · rintro i - hi ⟨kept, own, more⟩ h
    have hp := getD_mem default hi
    dsimp only
    generalize paths.getD i default = p at hp ⊢
    have hkept : ∀ q ∈ kept.push p, q ∈ paths := by
      intro q hq
      rcases Array.mem_push.mp hq with hq | rfl
      · exact h.kept q hq
      · exact hp
    -- a path that does not stop has a link to follow
    have hstop {w : Bool} (hw : (w || (k.frame p.frame).links.isEmpty) = false) :
        0 < (k.frame p.frame).links.size := by
      have hempty := (Bool.or_eq_false_iff.mp hw).2
      rw [Array.isEmpty, decide_eq_false_iff_not] at hempty
      exact Nat.pos_of_ne_zero hempty
    split
    · exact collects_follow hp ⟨hkept, h.own, h.more⟩ hstop
    · exact collects_follow hp h hstop
  · rcases Array.mem_append.mp hp with hp | hp
    · exact hx.own p hp
    · exact hx.more p hp

/-- What holds of the path of no pieces, and is kept by `Path.extend` along each link, holds of all paths. -/
theorem paths_induction {verdict : Path → Verdict} {q : Path → Prop} (hstart : q ⟨(k.branch v).frame, [], 0⟩)
    (hextend : ∀ p, q p → ∀ x ∈ (k.frame p.frame).links, q (p.extend x)) : ∀ p ∈ k.paths v verdict, q p := by
  unfold Stack.paths
  refine Loop.bind_run (q := fun out : Array Path => ∀ p ∈ out, q p)
    (p := fun x : Array Path × Array Path => (∀ p ∈ x.1, q p) ∧ ∀ p ∈ x.2, q p) ?_ fun x hx => hx.1
  refine Loop.forIn_range_keeps (p := fun x : Array Path × Array Path => (∀ p ∈ x.1, q p) ∧ ∀ p ∈ x.2, q p)
    ⟨nofun, fun p hp => ?_⟩ ?_
  · obtain rfl := Array.mem_singleton.mp hp
    exact hstart
  · rintro i - - ⟨out, current⟩ ⟨hout, hcurrent⟩
    obtain ⟨hkept, hnext⟩ := stepPaths_spec (k := k) verdict current
    dsimp only at hout hcurrent ⊢
    split
    · exact ⟨hout, hcurrent⟩
    · refine ⟨fun p hp => ?_, fun p hp => ?_⟩
      · rcases Array.mem_append.mp hp with hp | hp
        · exact hout p hp
        · exact hcurrent p (hkept p hp)
      · obtain ⟨p', hp', x, hx, rfl⟩ := hnext p hp
        exact hextend p' (hcurrent p' hp') x hx

/-- A path with charged pieces to a frame of `fs` that has its way. -/
structure OnWay (fs : Array Frame) (p : Path) : Prop where
  charged : ∀ q ∈ p.pieces, q.Charged
  ne_zero : stateAt fs p.frame ≠ 0

/-- One link further, a path has the piece of the link besides its own. -/
theorem mem_pieces_extend {p : Path} {x : Link} {q : Piece} (hq : q ∈ (p.extend x).pieces) :
    q ∈ x.piece ∨ q ∈ p.pieces := by
  unfold Path.extend at hq
  cases hx : x.piece with
  | none =>
    rw [hx] at hq
    exact .inr hq
  | some r =>
    rw [hx] at hq
    rcases List.mem_cons.mp hq with rfl | hq
    · exact .inl rfl
    · exact .inr hq

theorem frame_extend (p : Path) (x : Link) : (p.extend x).frame = x.frame := by
  unfold Path.extend
  cases x.piece <;> rfl

/-- Whatever may stand anywhere in the pieces of a path is charged. -/
theorem Sound.extras_of_mem_paths (h : k.Sound) {verdict : Path → Verdict} :
    ∀ p ∈ k.paths v verdict, ∀ q ∈ p.pieces, q.ExtrasCharged := by
  refine paths_induction nofun fun p hp x hx q hq => ?_
  rcases mem_pieces_extend hq with hq | hq
  · exact (h.linked p.frame x hx).extras q hq
  · exact hp q hq

/-- A branch that has its way came on it, along each of its paths. -/
theorem Sound.onWay_of_mem_paths (h : k.Sound) (hv : (k.top v).state ≠ 0) {verdict : Path → Verdict} :
    ∀ p ∈ k.paths v verdict, OnWay k.frames p := by
  refine paths_induction ⟨nofun, hv⟩ fun p hp x hx => ?_
  have hlink := h.linked p.frame x hx
  refine ⟨fun q hq => ?_, ?_⟩
  · rcases mem_pieces_extend hq with hq | hq
    · obtain ⟨r, hr, hcharged⟩ := hlink.charged hp.ne_zero
      cases Option.mem_unique hr hq
      exact hcharged
    · exact hp.charged q hq
  · rw [frame_extend]
    exact hlink.target hp.ne_zero

/-! ## New branches -/

/-- The slices `x.2` that are cut from a stack along paths, and the stack `x.1` with the branches that go on from
there. -/
structure Cuts (k : Stack) (found : Array Path) (x : Stack × Array Slice) : Prop where
  frames : x.1.frames = k.frames
  waiting : Waiting x.1.branches
  keepsFirst : KeepsFirst k.branches.size k.branches x.1.branches
  pieces : ∀ y ∈ x.2, ∃ p ∈ found, y.pieces = p.pieces
  le_branch : ∀ y ∈ x.2, k.branches.size ≤ y.branch
  branch_lt : ∀ y ∈ x.2, y.branch < x.1.branches.size
  sorted : x.2.toList.Pairwise fun a b => a.branch ≤ b.branch

/-- A slice that is put right after one of its branch leaves the branches in order. -/
theorem pairwise_insert {xs : List Slice} (h : xs.Pairwise fun a b => a.branch ≤ b.branch) {i : Nat}
    (hi : i < xs.length) {x : Slice} (hx : x.branch = xs[i].branch) :
    (xs.take (i + 1) ++ [x] ++ xs.drop (i + 1)).Pairwise fun a b => a.branch ≤ b.branch := by
  have hle (a b : Nat) (ha : a < xs.length) (hb : b < xs.length) (hab : a ≤ b) : xs[a].branch ≤ xs[b].branch := by
    rcases Nat.lt_or_eq_of_le hab with hlt | rfl
    · exact List.pairwise_iff_getElem.mp h a b ha hb hlt
    · exact Nat.le_refl _
  have hparts : (xs.take (i + 1) ++ xs.drop (i + 1)).Pairwise fun a b => a.branch ≤ b.branch := by
    rwa [List.take_append_drop]
  obtain ⟨htake, hdrop, hacross⟩ := List.pairwise_append.mp hparts
  -- the new one stands right after the one whose branch it has
  rw [List.append_assoc, List.pairwise_append]
  refine ⟨htake, ?_, fun a ha b hb => ?_⟩
  · rw [List.singleton_append, List.pairwise_cons]
    refine ⟨fun b hb => ?_, hdrop⟩
    obtain ⟨j, hj, rfl⟩ := List.mem_iff_getElem.mp hb
    rw [hx, List.getElem_drop]
    exact hle _ _ _ _ (by omega)
  · rcases List.mem_append.mp hb with hb | hb
    · obtain rfl := List.mem_singleton.mp hb
      obtain ⟨j, hj, rfl⟩ := List.mem_iff_getElem.mp ha
      rw [List.length_take] at hj
      rw [hx, List.getElem_take]
      exact hle _ _ _ _ (by omega)
    · exact hacross a ha b hb

/-- A path that ends where an earlier one did gets a slice of that one's branch. -/
theorem Cuts.insert {found : Array Path} {out : Array Slice} {p : Path} (h : Cuts k found (k', out)) (hp : p ∈ found)
    {i : Nat} (hi : i < out.toList.length) {x : Slice} (hpieces : x.pieces = p.pieces)
    (hbranch : x.branch = out.toList[i].branch) :
    Cuts k found (k', out.extract 0 (i + 1) ++ #[x] ++ out.extract (i + 1) out.size) := by
  have htoList : (out.extract 0 (i + 1) ++ #[x] ++ out.extract (i + 1) out.size).toList
      = out.toList.take (i + 1) ++ [x] ++ out.toList.drop (i + 1) := by
    simp [List.extract_eq_take_drop, List.take_of_length_le]
  have hold : out.toList[i] ∈ out := Array.mem_toList_iff.mp (List.getElem_mem hi)
  have hmem (y : Slice) (hy : y ∈ out.extract 0 (i + 1) ++ #[x] ++ out.extract (i + 1) out.size) : y ∈ out ∨ y = x := by
    rw [← Array.mem_toList_iff, htoList] at hy
    rcases List.mem_append.mp hy with hy | hy
    · rcases List.mem_append.mp hy with hy | hy
      · exact .inl (Array.mem_toList_iff.mp (List.mem_of_mem_take hy))
      · exact .inr (List.mem_singleton.mp hy)
    · exact .inl (Array.mem_toList_iff.mp (List.mem_of_mem_drop hy))
  -- the new slice comes after the one at `i`, and is of its branch
  refine ⟨h.frames, h.waiting, h.keepsFirst, fun y hy => ?_, fun y hy => ?_, fun y hy => ?_, ?_⟩
  · rcases hmem y hy with hy | rfl
    · exact h.pieces y hy
    · exact ⟨p, hp, hpieces⟩
  · rcases hmem y hy with hy | rfl
    · exact h.le_branch y hy
    · rw [hbranch]
      exact h.le_branch _ hold
  · rcases hmem y hy with hy | rfl
    · exact h.branch_lt y hy
    · rw [hbranch]
      exact h.branch_lt _ hold
  · rw [htoList]
    exact pairwise_insert h.sorted hi hbranch

/-- A path that ends where none did before gets a slice of a new branch. -/
theorem Cuts.push {found : Array Path} {out : Array Slice} {p : Path} (h : Cuts k found (k', out)) (hp : p ∈ found)
    {b : Branch} (hb : b.status = .active) :
    Cuts k found ({ k' with branches := k'.branches.push b }, out.push ⟨p.pieces, k'.branches.size⟩) := by
  have hsize : k.branches.size ≤ k'.branches.size := h.keepsFirst.size_le
  have hkeeps : KeepsFirst k.branches.size k'.branches (k'.branches.push b) := by
    refine ⟨by simp only [Array.size_push]; omega, fun j hj => ?_⟩
    simp only [Array.getD_eq_getD_getElem?, Array.getElem?_push]
    rw [if_neg (by omega)]
  have hlt : ∀ y ∈ out, y.branch < k'.branches.size := h.branch_lt
  -- the new branch comes after all others, and so does its slice
  refine ⟨h.frames, h.waiting.push ?_, h.keepsFirst.trans hkeeps, fun y hy => ?_, fun y hy => ?_, fun y hy => ?_, ?_⟩
  · rw [hb]
    exact nofun
  · rcases Array.mem_push.mp hy with hy | rfl
    · exact h.pieces y hy
    · exact ⟨p, hp, rfl⟩
  · rcases Array.mem_push.mp hy with hy | rfl
    · exact h.le_branch y hy
    · exact h.keepsFirst.size_le
  · rw [Array.size_push]
    rcases Array.mem_push.mp hy with hy | rfl
    · exact Nat.lt_succ_of_lt (hlt y hy)
    · exact Nat.lt_succ_self _
  · rw [Array.toList_push, List.pairwise_append]
    refine ⟨h.sorted, List.pairwise_singleton _ _, fun a ha b hb => ?_⟩
    obtain rfl := List.mem_singleton.mp hb
    exact Nat.le_of_lt (hlt a (Array.mem_toList_iff.mp ha))

/-- The paths that were found are cut one after the other by `slices`. -/
theorem Sound.cuts_slices (h : k.Sound) (v : Nat) (found : Array Path) :
    Cuts k found ((k.slices v found).2, (k.slices v found).1) := by
  unfold Stack.slices
  refine Loop.bind_run (p := Cuts k found)
    (q := fun x : Array Slice × Stack => Cuts k found (x.2, x.1)) (Loop.forIn_array_keeps ?_ ?_) fun x hx => hx
  · exact ⟨rfl, h.waiting, .refl (Nat.le_refl _), nofun, nofun, nofun, .nil⟩
  · rintro p hp ⟨k', out⟩ hcuts
    dsimp only
    split
    next i hsame =>
      have hi : i < out.toList.length := by
        have hmem := List.mem_of_find?_eq_some hsame
        simpa using hmem
      have hbranch : (out.getD i default).branch = out.toList[i].branch := by
        simp [Array.getD_eq_getD_getElem?, Array.getElem?_eq_getElem (by simpa using hi)]
      exact hcuts.insert hp hi rfl hbranch
    next => exact hcuts.push hp rfl

theorem Cuts.grows {found : Array Path} {x : Stack × Array Slice} (h : Cuts k found x) (hk : k.Sound) : Grows k x.1 :=
  ⟨⟨h.frames ▸ hk.linked, h.frames ▸ hk.start, h.waiting⟩, fun n _ => by rw [h.frames]⟩

section Popping

variable {verdict : Path → Verdict} {x : Stack × Array Slice}

/-- Whatever may stand anywhere in the pieces that are cut off is charged. -/
theorem Cuts.extras (h : Cuts k (k.paths v verdict) x) (hk : k.Sound) :
    ∀ y ∈ x.2, ∀ q ∈ y.pieces, q.ExtrasCharged := by
  intro y hy q hq
  obtain ⟨p, hp, hpieces⟩ := h.pieces y hy
  exact hk.extras_of_mem_paths p hp q (hpieces ▸ hq)

theorem Cuts.charged (h : Cuts k (k.paths v verdict) x) (hk : k.Sound) (hv : (k.top v).state ≠ 0) :
    ∀ y ∈ x.2, ∀ q ∈ y.pieces, q.Charged := by
  intro y hy q hq
  obtain ⟨p, hp, hpieces⟩ := h.pieces y hy
  exact (hk.onWay_of_mem_paths hv p hp).charged q (hpieces ▸ hq)

end Popping

/-- All that `popAll` takes from a branch that has its way is charged. -/
theorem Sound.charged_of_mem_popAll (h : k.Sound) (hv : (k.top v).state ≠ 0) :
    ∀ ps ∈ k.popAll v, ∀ q ∈ ps, q.Charged := by
  intro ps hps
  obtain ⟨p, hp, rfl⟩ := Array.mem_map.mp hps
  exact (h.onWay_of_mem_paths hv p hp).charged

/-! ## Errors on top of a branch -/

/-- A single path is cut into one slice by `slices`, and one branch is new. -/
theorem slices_singleton (k : Stack) (v : Nat) (p : Path) :
    ∃ b : Branch, b.frame = p.frame ∧
      k.slices v #[p] = (#[⟨p.pieces, k.branches.size⟩], { k with branches := k.branches.push b }) :=
  ⟨{ frame := p.frame, countAtFault := (k.branch v).countAtFault, layout := (k.branch v).layout }, rfl, by
    unfold Stack.slices
    simp⟩

@[simp] theorem frames_renumber (k : Stack) (u v : Nat) : (k.renumber u v).frames = k.frames := by
  unfold Stack.renumber
  split <;> rfl

/-- A branch that comes after all others takes the place of branch `v`. -/
theorem frame_renumber_push (k : Stack) (b : Branch) (v : Nat) :
    ((({ k with branches := k.branches.push b } : Stack).renumber k.branches.size v).branch v).frame = b.frame ∨
      ((({ k with branches := k.branches.push b } : Stack).renumber k.branches.size v).branch v).frame = 0 := by
  unfold Stack.renumber
  split
  next heq =>
    subst heq
    left
    simp [Stack.branch, Array.getD_eq_getD_getElem?]
  next hne =>
    simp only [Stack.branch, Stack.remove, Array.set!_eq_setIfInBounds, Array.getD_eq_getD_getElem?,
      Array.getElem?_append, Array.size_extract, Array.size_setIfInBounds, Array.size_push, Array.getElem?_extract]
    rcases Nat.lt_or_gt_of_ne hne with hlt | hlt
    · -- there is no such branch
      right
      rw [if_neg (by omega), if_neg (by omega)]
      rfl
    · left
      rw [if_pos (by omega), if_pos (by omega), Nat.zero_add, Array.getElem?_setIfInBounds_self_of_lt (by simp; omega)]
      simp

/-- What is popped from branch `v`, and where it goes on. -/
structure PopsError (k : Stack) (v : Nat) (x : List Piece × Stack) : Prop where
  extras : ∀ q ∈ x.1, q.ExtrasCharged
  grows : Grows k x.2
  ne_zero : (k.top v).state ≠ 0 → (x.2.top v).state ≠ 0

/-- An error is popped by `popError` from a branch along its one path, or nothing is. -/
theorem Sound.popsError (h : k.Sound) (v : Nat) : PopsError k v (k.popError v) := by
  have hnone : PopsError k v ([], k) := ⟨nofun, h.grows, id⟩
  unfold Stack.popError
  dsimp only
  split
  · split
    next => exact hnone
    next p hp =>
      have hmem := Array.mem_of_getElem? hp
      obtain ⟨b, hb, hslices⟩ := slices_singleton k v p
      have hgrows := (hslices ▸ h.cuts_slices v #[p]).grows h
      rw [hslices]
      show PopsError k v (p.pieces, ({ k with branches := k.branches.push b } : Stack).renumber k.branches.size v)
      dsimp only at hgrows
      have hrenumbered := hgrows.sound.renumber k.branches.size v
      refine ⟨h.extras_of_mem_paths p hmem, hgrows.trans hrenumbered, fun hv => ?_⟩
      have hway := (h.onWay_of_mem_paths hv p hmem).ne_zero
      -- a number of no branch stands for the first frame, which has its way too
      rw [Stack.top, Stack.frame, frames_renumber]
      rcases frame_renumber_push k b v with heq | heq
      · rw [heq, hb]
        exact hway
      · rw [heq]
        exact h.start
  · exact hnone

end Stack

end PayloadAtlas.Python
