import PayloadAtlas.Proofs.Loop
import PayloadAtlas.Proofs.Python.Charge
import PayloadAtlas.Python.Moves

/-!
# Frames and what has been charged

Between two frames that have their way there is a charged piece (`Stack.Linked`): what a reader took while it had
lost its way lies between frames in state `0`, and does not come up from there but in an error. Frames never change
their states, so links stay sound when links are added (`keeps_addLink`) and when a piece is put on a branch
(`Sound.push`).
-/

namespace PayloadAtlas.Python

open PayloadAtlas.Text

namespace Stack

/-- The state of the frame at place `n`. -/
def stateAt (fs : Array Frame) (n : Nat) : Nat := (fs.getD n default).state

end Stack

/-- A link from a frame that has its way carries a charged piece, and leads to a frame that has its way. -/
structure Link.Sound (fs : Array Frame) (state : Nat) (x : Link) : Prop where
  extras : ∀ p ∈ x.piece, p.ExtrasCharged
  charged : state ≠ 0 → ∃ p ∈ x.piece, p.Charged
  target : state ≠ 0 → Stack.stateAt fs x.frame ≠ 0

namespace Stack

/-- Whether each link is sound in the state of its frame. -/
def Linked (fs : Array Frame) : Prop := ∀ n, ∀ x ∈ (fs.getD n default).links, x.Sound fs (stateAt fs n)

/-- Whether the frames of `fs` that have their way stay where they are in `gs`. -/
def Stays (fs gs : Array Frame) : Prop := ∀ n, stateAt fs n ≠ 0 → stateAt gs n = stateAt fs n

/-- Sound links, and the same states as in `fs`. -/
structure Keeps (fs gs : Array Frame) : Prop where
  linked : Linked gs
  stateAt_eq : ∀ n, stateAt gs n = stateAt fs n

variable {fs gs hs : Array Frame} {n state : Nat} {x : Link}

theorem Stays.refl (fs : Array Frame) : Stays fs fs := fun _ _ => rfl

theorem Stays.trans (h : Stays fs gs) (h' : Stays gs hs) : Stays fs hs := fun n hn =>
  (h' n (h n hn ▸ hn)).trans (h n hn)

theorem Stays.ne_zero (h : Stays fs gs) (hn : stateAt fs n ≠ 0) : stateAt gs n ≠ 0 := h n hn ▸ hn

theorem Keeps.stays (h : Keeps fs gs) : Stays fs gs := fun n _ => h.stateAt_eq n

theorem Keeps.trans (h : Keeps fs gs) (h' : Keeps gs hs) : Keeps fs hs :=
  ⟨h'.linked, fun n => (h'.stateAt_eq n).trans (h.stateAt_eq n)⟩

theorem Linked.keeps (h : Linked fs) : Keeps fs fs := ⟨h, fun _ => rfl⟩

end Stack

theorem Link.Sound.mono {fs gs : Array Frame} {state : Nat} {x : Link} (h : x.Sound fs state)
    (hstays : Stack.Stays fs gs) : x.Sound gs state :=
  ⟨h.extras, h.charged, fun hstate => hstays.ne_zero (h.target hstate)⟩

namespace Stack

variable {fs gs hs : Array Frame} {n : Nat} {x : Link}

/-- Frames that keep their states, and have no links but sound ones. -/
theorem keeps_of_links (hstate : ∀ n, stateAt gs n = stateAt fs n)
    (hlinks : ∀ n, ∀ x ∈ (gs.getD n default).links, x.Sound fs (stateAt fs n)) : Keeps fs gs :=
  ⟨fun n x hx => hstate n ▸ (hlinks n x hx).mono fun m _ => hstate m, hstate⟩

/-- In the place of a frame there is the new one, if there is such a place. -/
theorem getD_set (fs : Array Frame) (n m : Nat) (f : Frame) :
    (fs.set! n f).getD m default = fs.getD m default ∨ m = n ∧ (fs.set! n f).getD m default = f := by
  simp only [Array.set!_eq_setIfInBounds, Array.getD_eq_getD_getElem?, Array.getElem?_setIfInBounds]
  split
  next heq =>
    subst heq
    split
    next => exact .inr ⟨rfl, rfl⟩
    next hge => exact .inl (by rw [Array.getElem?_eq_none (Nat.le_of_not_lt hge)])
  next => exact .inl rfl

/-- In the place of a frame there is the one it is changed to, if there is such a place. -/
theorem getD_modify (fs : Array Frame) (n m : Nat) (change : Frame → Frame) :
    (fs.modify n change).getD m default = fs.getD m default ∨
      (fs.modify n change).getD m default = change (fs.getD m default) := by
  simp only [Array.getD_eq_getD_getElem?, Array.getElem?_modify]
  split
  · cases fs[m]? with
    | none => exact .inl rfl
    | some f => exact .inr rfl
  · exact .inl rfl

/-- A frame is replaced by one in the same state. -/
theorem keeps_set (h : Linked fs) {f : Frame} (hstate : f.state = stateAt fs n)
    (hlinks : ∀ x ∈ f.links, x.Sound fs (stateAt fs n)) : Keeps fs (fs.set! n f) := by
  refine keeps_of_links (fun m => ?_) fun m x hx => ?_
  · unfold stateAt
    rcases getD_set fs n m f with heq | ⟨rfl, heq⟩
    · rw [heq]
    · rw [heq, hstate, stateAt]
  · rcases getD_set fs n m f with heq | ⟨rfl, heq⟩
    · exact h m x (heq ▸ hx)
    · exact hlinks x (heq ▸ hx)

/-- Neither the state nor the links of a frame are changed. -/
theorem keeps_modify (h : Linked fs) {change : Frame → Frame} (hstate : ∀ f, (change f).state = f.state)
    (hlinks : ∀ f, (change f).links = f.links) : Keeps fs (fs.modify n change) := by
  refine keeps_of_links (fun m => ?_) fun m x hx => ?_
  · unfold stateAt
    rcases getD_modify fs n m change with heq | heq
    · rw [heq]
    · rw [heq, hstate]
  · rcases getD_modify fs n m change with heq | heq
    · exact h m x (heq ▸ hx)
    · rw [heq, hlinks] at hx
      exact h m x hx

theorem keeps_set_link (h : Linked fs) (i : Nat) {f : Frame} (hstate : f.state = stateAt fs n)
    (hlinks : f.links = (fs.getD n default).links.set! i x) (hx : x.Sound fs (stateAt fs n)) :
    Keeps fs (fs.set! n f) := by
  refine keeps_set h hstate fun y hy => ?_
  rw [hlinks, Array.set!_eq_setIfInBounds] at hy
  rcases Array.mem_or_eq_of_mem_setIfInBounds hy with hy | rfl
  · exact h n y hy
  · exact hx

theorem keeps_foldl_links {add : Array Frame → Link → Array Frame} {m : Nat} (h : Linked fs)
    (hstate : stateAt fs n = stateAt fs m)
    (hadd : ∀ gs x, Linked gs → x.Sound gs (stateAt gs n) → Keeps gs (add gs x)) :
    Keeps fs ((fs.getD m default).links.foldl add fs) := by
  rw [← Array.foldl_toList]
  refine List.foldlRecOn (motive := Keeps fs) _ _ h.keeps fun gs hgs x hx => hgs.trans (hadd gs x hgs.linked ?_)
  rw [hgs.stateAt_eq, hstate]
  exact (h m x (Array.mem_toList_iff.mp hx)).mono hgs.stays

/-- By `addLink` a sound link is added, and so are the links of the frames that are merged with others. -/
theorem keeps_addLink (l : Language) (s : Source) (fuel : Nat) (h : Linked fs) (hx : x.Sound fs (stateAt fs n)) :
    Keeps fs (addLink l s fuel fs n x) := by
  -- links are followed as far as the fuel goes
  induction fuel generalizing fs n x with
  | zero => exact h.keeps
  | succ fuel ih =>
    unfold addLink
    split
    · exact h.keeps
    -- a link that is as good as one that is there changes frames only by replacing it, or by merging
    refine Loop.bind_run (p := fun r : Option (Array Frame) × Unit => ∀ gs ∈ r.1, Keeps fs gs)
      (Loop.forIn_range_keeps (p := fun r : Option (Array Frame) × Unit => ∀ gs ∈ r.1, Keeps fs gs) nofun ?_)
      fun r hr => ?_
    · intro i _ hi r hr
      have hold : ((fs.getD n default).links.getD i default).Sound fs (stateAt fs n) := by
        refine h n _ ?_
        rw [← Array.getElem_eq_getD (h := hi)]
        exact Array.getElem_mem hi
      dsimp only
      generalize (fs.getD n default).links.getD i default = old at hold ⊢
      split
      · split
        · split
          · split
            · rintro gs ⟨⟩
              exact keeps_set_link h i rfl rfl ⟨hx.extras, hx.charged, hold.target⟩
            · rintro gs ⟨⟩
              exact h.keeps
          · rintro gs ⟨⟩
            exact h.keeps
        · split
          next hsame =>
            rintro gs ⟨⟩
            have hstate := (Bool.and_eq_true_iff.mp (Bool.and_eq_true_iff.mp hsame).1).1
            have hmerged := keeps_foldl_links h (beq_iff_eq.mp hstate) fun gs y hgs hy => ih hgs hy
            exact hmerged.trans (keeps_modify hmerged.linked (fun _ => rfl) fun _ => rfl)
          next => exact nofun
      · exact nofun
    · obtain ⟨_ | gs, _⟩ := r
      · dsimp only
        split
        · exact h.keeps
        · refine keeps_set h rfl fun y hy => ?_
          rcases Array.mem_push.mp hy with hy | rfl
          · exact h n y hy
          · exact hx
      · exact hr gs rfl

/-! ## Branches -/

/-- Whether all branches that wait for a token wait with one. -/
def Waiting (bs : Array Branch) : Prop := ∀ b ∈ bs, ∀ t, b.status = .paused t → t.IsToken

section Waiting

variable {bs cs : Array Branch} {v : Nat} {b : Branch}

theorem Waiting.extract (h : Waiting bs) (i j : Nat) : Waiting (bs.extract i j) := by
  intro b hb
  obtain ⟨k, hk, rfl⟩ := Array.mem_extract_iff_getElem.mp hb
  exact h _ (Array.getElem_mem _)

theorem Waiting.append (h : Waiting bs) (h' : Waiting cs) : Waiting (bs ++ cs) := by
  intro b hb
  rcases Array.mem_append.mp hb with hb | hb
  · exact h b hb
  · exact h' b hb

theorem Waiting.push (h : Waiting bs) (hb : ∀ t, b.status = .paused t → t.IsToken) : Waiting (bs.push b) := by
  intro c hc
  rcases Array.mem_push.mp hc with hc | rfl
  · exact h c hc
  · exact hb

theorem Waiting.set (h : Waiting bs) (hb : ∀ t, b.status = .paused t → t.IsToken) : Waiting (bs.set! v b) := by
  intro c hc
  rw [Array.set!_eq_setIfInBounds] at hc
  rcases Array.mem_or_eq_of_mem_setIfInBounds hc with hc | rfl
  · exact h c hc
  · exact hb

theorem Waiting.modify {change : Branch → Branch} (h : Waiting bs)
    (hchange : ∀ b t, (change b).status = .paused t → b.status = .paused t ∨ t.IsToken) :
    Waiting (bs.modify v change) := by
  intro b hb t ht
  obtain ⟨i, hi⟩ := Array.mem_iff_getElem?.mp hb
  rw [Array.getElem?_modify] at hi
  split at hi
  · obtain ⟨c, hc, rfl⟩ := Option.map_eq_some_iff.mp hi
    rcases hchange c t ht with ht | ht
    · exact h c (Array.mem_of_getElem? hc) t ht
    · exact ht
  · exact h b (Array.mem_of_getElem? hi) t ht

theorem Waiting.branch {k : Stack} (h : Waiting k.branches) (v : Nat) {t : Piece}
    (ht : (k.branch v).status = .paused t) : t.IsToken := by
  unfold Stack.branch at ht
  rw [Array.getD_eq_getD_getElem?] at ht
  cases hb : k.branches[v]? with
  | none =>
    rw [hb] at ht
    cases ht
  | some b =>
    rw [hb] at ht
    exact h b (Array.mem_of_getElem? hb) t ht

end Waiting

/-- Links are sound, the first frame has its way, and branches wait with tokens: what holds of `k` at each step. -/
structure Sound (k : Stack) : Prop where
  linked : Linked k.frames
  start : stateAt k.frames 0 ≠ 0
  waiting : Waiting k.branches

/-- The stack is sound after a step in which no frame of `k` lost its way. -/
structure Grows (k k' : Stack) : Prop where
  sound : k'.Sound
  stays : Stays k.frames k'.frames

variable {k k' k'' : Stack} {l : Language} {s : Source} {u v : Nat}

theorem Sound.grows (h : k.Sound) : Grows k k := ⟨h, .refl _⟩

theorem Grows.trans (h : Grows k k') (h' : Grows k' k'') : Grows k k'' := ⟨h'.sound, h.stays.trans h'.stays⟩

/-- Only branches change. -/
theorem Sound.withBranches (h : k.Sound) {bs : Array Branch} (hbs : Waiting bs) : Grows k { k with branches := bs } :=
  ⟨⟨h.linked, h.start, hbs⟩, .refl _⟩

/-- The stack `initial`, of one branch in the first frame, is sound. -/
theorem sound_initial : initial.Sound := by
  refine ⟨fun n x hx => ?_, Nat.one_ne_zero, fun b hb t ht => ?_⟩
  · cases n with
    | zero => exact absurd hx (Array.not_mem_empty x)
    | succ n => exact absurd hx (Array.not_mem_empty x)
  · obtain rfl : b = { frame := 0 } := by simpa [initial] using hb
    cases ht

@[simp] theorem branches_modify (k : Stack) (v : Nat) (change : Branch → Branch) :
    (k.modify v change).branches = k.branches.modify v change := rfl

theorem Sound.modify (h : k.Sound) {change : Branch → Branch}
    (hchange : ∀ b t, (change b).status = .paused t → b.status = .paused t ∨ t.IsToken) : Grows k (k.modify v change) :=
  h.withBranches (h.waiting.modify hchange)

theorem Sound.halt (h : k.Sound) (v : Nat) : Grows k (k.halt v) := h.modify fun _ _ => nofun

/-- A branch is taken away. -/
theorem Sound.remove (h : k.Sound) (v : Nat) : Grows k (k.remove v) :=
  h.withBranches ((h.waiting.extract _ _).append (h.waiting.extract _ _))

theorem Grows.remove (h : Grows k k') (v : Nat) : Grows k (k'.remove v) := h.trans (h.sound.remove v)

/-- A branch takes the number of another. -/
theorem Sound.renumber (h : k.Sound) (u v : Nat) : Grows k (k.renumber u v) := by
  unfold Stack.renumber
  split
  · exact h.grows
  · let b : Branch := { k.branch u with waypoints := (k.branch u).waypoints.or (k.branch v).waypoints }
    have hset : Grows k { k with branches := k.branches.set! v b } :=
      h.withBranches (h.waiting.set fun t ht => h.waiting.branch u ht)
    exact hset.trans (hset.sound.remove u)

/-- A branch is put beside one that stands in the same frame. -/
theorem Sound.duplicate (h : k.Sound) (v : Nat) : Grows k (k.duplicate v).2 :=
  h.withBranches (h.waiting.push fun _ ht => h.waiting.branch v ht)

/-! ## Putting pieces on a branch -/

theorem getD_push (fs : Array Frame) (f : Frame) (n : Nat) :
    (fs.push f).getD n default = fs.getD n default ∧ n ≠ fs.size ∨ n = fs.size ∧ (fs.push f).getD n default = f := by
  simp only [Array.getD_eq_getD_getElem?, Array.getElem?_push]
  split
  next heq => exact .inr ⟨heq, rfl⟩
  next hne => exact .inl ⟨rfl, hne⟩

theorem stays_push (fs : Array Frame) (f : Frame) : Stays fs (fs.push f) := by
  intro n hn
  unfold stateAt at hn ⊢
  rcases getD_push fs f n with ⟨heq, -⟩ | ⟨rfl, -⟩
  · rw [heq]
  · rw [Array.getD_eq_getD_getElem?, Array.getElem?_eq_none (Nat.le_refl _)] at hn
    exact absurd rfl hn

/-- A frame is added whose links are sound. -/
theorem Linked.push (h : Linked fs) {f : Frame} (hf : ∀ x ∈ f.links, x.Sound fs f.state) : Linked (fs.push f) := by
  intro n x hx
  unfold stateAt
  rcases getD_push fs f n with ⟨heq, -⟩ | ⟨rfl, heq⟩
  · rw [heq] at hx ⊢
    exact (h n x hx).mono (stays_push fs f)
  · rw [heq] at hx ⊢
    exact (hf x hx).mono (stays_push fs f)

/-- There is one new frame, in the state that was asked for, with one link, which carries the piece. -/
theorem frames_push (k : Stack) (l : Language) (v : Nat) (piece : Option Piece) (state : Nat) :
    ∃ f : Frame, (k.push l v piece state).frames = k.frames.push f ∧ f.state = state ∧
      f.links = #[⟨(k.branch v).frame, piece⟩] := by
  cases piece with
  | none => exact ⟨_, rfl, rfl, rfl⟩
  | some p => exact ⟨_, rfl, rfl, rfl⟩

/-- The branch goes to the new frame, and waits as before. -/
theorem branches_push (k : Stack) (l : Language) (v : Nat) (piece : Option Piece) (state : Nat) :
    ∃ change : Branch → Branch, (k.push l v piece state).branches = k.branches.modify v change ∧
      ∀ b, (change b).frame = k.frames.size ∧ (change b).status = b.status := by
  cases piece with
  | none =>
    exact ⟨fun b => { b with frame := k.frames.size, countAtFault := (k.frame (k.branch v).frame).count }, rfl,
      fun _ => ⟨rfl, rfl⟩⟩
  | some p => exact ⟨fun b => { b with frame := k.frames.size }, rfl, fun _ => ⟨rfl, rfl⟩⟩

/-- On a frame that has its way a charged piece is put; on others pieces are put by those that lost it. -/
theorem Sound.push (h : k.Sound) {piece : Option Piece} {state : Nat} (hextras : ∀ p ∈ piece, p.ExtrasCharged)
    (hway : state ≠ 0 → (k.top v).state ≠ 0 ∧ ∃ p ∈ piece, p.Charged) : Grows k (k.push l v piece state) := by
  obtain ⟨f, hframes, hstate, hlinks⟩ := frames_push k l v piece state
  obtain ⟨change, hbranches, hchange⟩ := branches_push k l v piece state
  have hstays : Stays k.frames (k.push l v piece state).frames := hframes ▸ stays_push k.frames f
  refine ⟨⟨?_, hstays.ne_zero h.start, ?_⟩, hstays⟩
  · rw [hframes]
    refine h.linked.push fun x hx => ?_
    rw [hlinks] at hx
    obtain rfl := Array.mem_singleton.mp hx
    rw [hstate]
    exact ⟨hextras, fun hne => (hway hne).2, fun hne => (hway hne).1⟩
  · rw [hbranches]
    exact h.waiting.modify fun b t ht => .inl ((hchange b).2 ▸ ht)

/-- A branch has its way after a piece is put on it that leads to a state. -/
theorem Sound.top_push_ne_zero (h : k.Sound) (piece : Option Piece) {state : Nat} (hstate : state ≠ 0) :
    ((k.push l v piece state).top v).state ≠ 0 := by
  obtain ⟨f, hframes, hf, -⟩ := frames_push k l v piece state
  obtain ⟨change, hbranches, hchange⟩ := branches_push k l v piece state
  show stateAt (k.push l v piece state).frames ((k.push l v piece state).branch v).frame ≠ 0
  rw [hframes]
  have hbranch : ((k.push l v piece state).branch v).frame = k.frames.size ∨
      ((k.push l v piece state).branch v).frame = 0 := by
    rw [Stack.branch, hbranches, Array.getD_eq_getD_getElem?, Array.getElem?_modify, if_pos rfl]
    cases k.branches[v]? with
    | none => exact .inr rfl
    | some b => exact .inl (hchange b).1
  rcases hbranch with heq | heq
  · have htop : stateAt (k.frames.push f) k.frames.size = state := by
      simp [stateAt, Array.getD_eq_getD_getElem?, hf]
    rw [heq, htop]
    exact hstate
  · rw [heq]
    exact (stays_push k.frames f).ne_zero h.start

/-! ## Merging branches -/

theorem Keeps.grows {bs : Array Branch} (h : k.Sound) (hkeeps : Keeps k.frames fs) (hbs : Waiting bs) :
    Grows k ⟨fs, bs⟩ :=
  ⟨⟨hkeeps.linked, hkeeps.stays.ne_zero h.start, hbs⟩, hkeeps.stays⟩

/-- Branches are merged only where they stand in the same state. -/
theorem canMerge_state {a b : Nat} (h : k.canMerge a b = true) : (k.top a).state = (k.top b).state := by
  simp only [canMerge, Bool.and_eq_true, beq_iff_eq] at h
  exact h.1.1.1.2

/-- Two branches are merged, and all links remain sound. -/
theorem Sound.merge {a b : Nat} (h : k.Sound) (hmerge : k.merge? l s a b = some k') : Grows k k' := by
  unfold Stack.merge? at hmerge
  split at hmerge
  next hcan =>
    cases hmerge
    have hkeeps : Keeps k.frames ((k.top b).links.foldl
        (fun fs x => addLink l s (fs.size + 1) fs (k.branch a).frame x) k.frames) :=
      keeps_foldl_links h.linked (canMerge_state hcan) fun gs x hgs hx => keeps_addLink l s _ hgs hx
    generalize (k.top b).links.foldl _ k.frames = fs at hkeeps ⊢
    have hmerged : Grows k { k with frames := fs } := hkeeps.grows h h.waiting
    refine Grows.remove ?_ b
    split
    · exact hmerged.trans (hmerged.sound.modify fun _ _ ht => .inl ht)
    · exact hmerged
  next => cases hmerge

/-- The first `n` branches keep their frames. -/
structure KeepsFirst (n : Nat) (bs cs : Array Branch) : Prop where
  size_le : n ≤ cs.size
  frame_eq : ∀ j < n, (cs.getD j default).frame = (bs.getD j default).frame

section KeepsFirst

variable {n : Nat} {bs cs ds : Array Branch}

theorem KeepsFirst.refl (h : n ≤ bs.size) : KeepsFirst n bs bs := ⟨h, fun _ _ => rfl⟩

theorem KeepsFirst.trans (h : KeepsFirst n bs cs) (h' : KeepsFirst n cs ds) : KeepsFirst n bs ds :=
  ⟨h'.size_le, fun j hj => (h'.frame_eq j hj).trans (h.frame_eq j hj)⟩

/-- A branch after the first `n` is changed, or one that keeps its frame. -/
theorem keepsFirst_modify (h : n ≤ bs.size) {change : Branch → Branch}
    (hchange : n ≤ v ∨ ∀ b, (change b).frame = b.frame) : KeepsFirst n bs (bs.modify v change) := by
  refine ⟨by simpa using h, fun j hj => ?_⟩
  simp only [Array.getD_eq_getD_getElem?, Array.getElem?_modify]
  split
  next heq =>
    rcases hchange with hle | hchange
    · omega
    · cases bs[j]? with
      | none => rfl
      | some b => exact hchange b
  next => rfl

/-- A branch after the first `n` is taken away. -/
theorem keepsFirst_remove (h : n ≤ k.branches.size) (hv : n ≤ v) :
    KeepsFirst n k.branches (k.remove v).branches := by
  refine ⟨?_, fun j hj => ?_⟩
  · simp only [Stack.remove, Array.size_append, Array.size_extract]
    omega
  · simp only [Stack.remove, Array.getD_eq_getD_getElem?, Array.getElem?_append, Array.size_extract]
    rw [if_pos (by omega), Array.getElem?_extract, if_pos (by omega), Nat.zero_add]

/-- A piece is put on a branch after the first `n`. -/
theorem keepsFirst_push (h : n ≤ k.branches.size) (hv : n ≤ v) (piece : Option Piece) (state : Nat) :
    KeepsFirst n k.branches (k.push l v piece state).branches := by
  obtain ⟨change, hbranches, -⟩ := branches_push k l v piece state
  rw [hbranches]
  exact keepsFirst_modify h (.inl hv)

/-- A branch after the first `n` is merged into another. -/
theorem keepsFirst_merge {a b : Nat} (h : n ≤ k.branches.size) (hb : n ≤ b)
    (hmerge : k.merge? l s a b = some k') : KeepsFirst n k.branches k'.branches := by
  unfold Stack.merge? at hmerge
  split at hmerge
  · cases hmerge
    split
    · refine KeepsFirst.trans ?_ (keepsFirst_remove ?_ hb)
      · rw [branches_modify]
        exact keepsFirst_modify h (.inr fun _ => rfl)
      · simpa [Stack.modify] using h
    · exact keepsFirst_remove h hb
  · cases hmerge

end KeepsFirst

end Stack

end PayloadAtlas.Python
