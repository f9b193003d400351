import PayloadAtlas.Proofs.Python.Whole
import PayloadAtlas.Python.Recovery

/-!
# Readers that have lost their way

A branch that has lost its way goes on from frames in a lost state, and nothing that it puts there has to be
charged. It comes back to a frame that has its way with an error, which is charged whatever is in it
(`Sound.returnTo`), or with a missing token, which is charged for its absence (`Sound.tryMissing`).
-/

namespace PayloadAtlas.Python

open PayloadAtlas.Grammar PayloadAtlas.Text

namespace Stack

variable {k k' : Stack} {l : Language} {s : Source} {v : Nat}

/-- The counts of the branches, which `settleCounts` changes, have no part in what is sound. -/
theorem Sound.settleCounts (h : k.Sound) : k.settleCounts.Sound := by
  refine List.foldlRecOn (motive := Sound) _ _ h fun k hk v _ => ?_
  unfold settleCount
  dsimp only
  split
  · exact Grows.sound (hk.modify fun _ _ ht => .inl ht)
  · exact hk

theorem Sound.recordWaypoints (h : k.Sound) (v : Nat) : (k.recordWaypoints v).Sound := by
  unfold Stack.recordWaypoints
  refine Loop.bind_run (p := fun _ => True) trivial fun x _ => ?_
  show (k.modify v fun b => { b with waypoints := some x.1 }).Sound
  exact Grows.sound (h.modify fun _ _ ht => .inl ht)

/-- The branches that were left behind by a try are taken away by `dropIdle`. -/
theorem Sound.dropIdle (h : k.Sound) (first : Nat) : (Reader.dropIdle k first).Sound := by
  refine (h.withBranches ((h.waiting.extract 0 first).append fun b hb => ?_)).sound
  obtain ⟨v, -, rfl⟩ := List.mem_map.mp (List.mem_toArray.mp hb)
  exact fun t => h.waiting.branch v

/-! ## Returning to a state -/

theorem extrasCharged_earlier {errors : List Piece} (h : ∀ p ∈ errors, p.ExtrasCharged) :
    ∀ p ∈ (errors.head?.map Piece.children).getD [], p.ExtrasCharged := by
  cases errors with
  | nil => exact nofun
  | cons e es => exact (h e List.mem_cons_self).parts

section Putting

variable {ps : List Piece} {goal : Nat} (hway : (k.top v).state ≠ 0) (hps : ∀ p ∈ ps, p.ExtrasCharged)

include hps in
theorem charged_splitExtras {p : Piece} (hp : p ∈ (Piece.splitExtras ps).2) : p.Charged ∧ p.ExtrasCharged := by
  obtain ⟨hmem, hextra⟩ := Piece.mem_splitExtras_snd hp
  exact ⟨(hps p hmem).self hextra, hps p hmem⟩

include hway hps

theorem Sound.pushes_extras (h : k.Sound) :
    Grows k ((Piece.splitExtras ps).2.foldl (fun k y => k.push l v (some y) goal) k) :=
  h.pushes _ (fun _ hp => (charged_splitExtras hps hp).2) fun _ => ⟨hway, fun _ hp => (charged_splitExtras hps hp).1⟩

/-- The pieces `ps` are put on a branch as an error, with the extras that follow it. -/
theorem Sound.pushes_fault (h : k.Sound) (place : Nat) :
    Grows k ((Piece.splitExtras ps).2.foldl (fun k y => k.push l v (some y) goal)
      (k.push l v (some ((Piece.join l s .error 0 place (Piece.splitExtras ps).1).setExtra true)) goal)) := by
  have hfault : ((Piece.join l s .error 0 place (Piece.splitExtras ps).1).setExtra true).Charged :=
    Piece.charged_join_error.setExtra true
  refine h.pushes (_ :: (Piece.splitExtras ps).2) ?_ fun _ => ⟨hway, ?_⟩
  · exact List.forall_mem_cons.mpr ⟨.intro (fun _ => hfault) fun p hp => hps p (Piece.mem_of_mem_splitExtras hp),
      fun p hp => (charged_splitExtras hps hp).2⟩
  · exact List.forall_mem_cons.mpr ⟨hfault, fun p hp => (charged_splitExtras hps hp).1⟩

end Putting

/-- What is on a branch down to an earlier state becomes an error on top of that state. -/
theorem Sound.returnTo (h : k.Sound) {goal : Nat} (hgoal : goal ≠ 0) (depth : Nat) :
    (Reader.returnTo k l s v depth goal).2.Sound := by
  have hcuts : Cuts k _ ((k.popCount v depth).2, (k.popCount v depth).1) := h.cuts_slices v _
  unfold Reader.returnTo
  dsimp only
  refine Loop.bind_run (q := fun x : Bool × Stack => x.2.Sound) (p := Loop.First Sound)
    (Loop.forIn_array_keeps (hcuts.grows h).sound ?_) fun x hx => hx
  rintro x hx ⟨k', last⟩ (hk' : k'.Sound)
  dsimp only
  split
  · exact hk'
  · split
    · exact (hk'.halt x.branch).sound
    next hstate =>
      have hway : (k'.top x.branch).state ≠ 0 := by
        rw [bne_iff_ne, ne_eq, not_not] at hstate
        exact hstate ▸ hgoal
      obtain ⟨herrors, hgrows, hway'⟩ := hk'.popsError x.branch
      generalize k'.popError x.branch = popped at herrors hgrows hway' ⊢
      have hpieces : ∀ p ∈ (popped.1.head?.map Piece.children).getD [] ++ x.pieces, p.ExtrasCharged := by
        intro p hp
        rcases List.mem_append.mp hp with hp | hp
        · exact extrasCharged_earlier herrors p hp
        · exact hcuts.extras h x hx p hp
      split
      -- the branch stands on a frame that has its way, so only what is charged may be put there
      · exact (hgrows.sound.pushes_extras (hway' hway) hpieces).sound
      · exact (hgrows.sound.pushes_fault (hway' hway) hpieces _).sound

/-- What comes of one try after another is sound, both where it was found and where none was. -/
structure Tries (x : Option (Bool × Stack) × Stack) : Prop where
  found : ∀ y ∈ x.1, y.2.Sound
  stack : x.2.Sound

theorem Sound.tries (h : k.Sound) : Tries (none, k) := ⟨nofun, h⟩

/-- One try, after which no other is made if it is a success. -/
theorem leads_tries {x : Bool × Stack} (h : x.2.Sound) :
    Loop.Leads Tries Tries (if x.1 = true then pure (.done (some (true, x.2), x.2)) else pure (.yield (none, x.2)) :
      Id _).run := by
  split
  · exact ⟨fun _ hy => Option.some.inj hy ▸ h, h⟩
  · exact h.tries

/-- By `tryReturn` branches return to states that are not lost. -/
theorem Sound.tryReturn {r : Reader} (h : r.stack.Sound) (token : Piece) : (r.tryReturn l s v token).2.Sound := by
  unfold Reader.tryReturn
  split
  next =>
    refine Loop.bind_run (q := fun x : Bool × Stack => x.2.Sound) (p := Tries)
      (Loop.forIn_array_keeps h.tries ?_) fun x hx => ?_
    · rintro w - ⟨found, k'⟩ ⟨-, hk'⟩
      dsimp only at hk' ⊢
      split
      · exact hk'.tries
      next hskip =>
        -- the lost state is none to return to
        have hgoal : w.state ≠ 0 := by
          simp only [Bool.or_eq_true, not_or, beq_iff_eq] at hskip
          exact hskip.1.1
        split
        · exact hk'.tries
        · split
          · exact hk'.tries
          · exact leads_tries (hk'.returnTo hgoal _)
    · obtain ⟨_ | y, k'⟩ := x
      · exact hx.stack
      · exact hx.found y rfl
  next => exact h

/-! ## Skipping a token -/

theorem Sound.setLayout (h : k.Sound) (v : Nat) (layout : Option Layout) :
    Stack.Sound (match layout with
      | some y => k.modify v fun b => { b with layout := some y }
      | none => k) := by
  split
  · exact Grows.sound (h.modify fun _ _ ht => .inl ht)
  · exact h

theorem Sound.push_run (h : k.Sound) {run : Piece} (hrun : run.ExtrasCharged) : (k.push l v (some run) 0).Sound := by
  refine Grows.sound (h.push ?_ fun hne => absurd rfl hne)
  rintro p ⟨⟩
  exact hrun

/-- By `skipToken` a token joins the run of skipped pieces on top of a branch, or begins one. -/
theorem Sound.skipToken (h : k.Sound) {token : Piece} (htoken : token.IsToken) :
    (Reader.skipToken k l s v token).Sound := by
  unfold Reader.skipToken
  extract_lets extra token' place single
  have htoken' : token'.ExtrasCharged := by
    show (if extra = true then token.setExtra true else token).ExtrasCharged
    split
    next hextra =>
      have hsymbol : ∃ n, token.facts.kind = .symbol n := by
        cases hkind : token.facts.kind with
        | symbol n => exact ⟨n, rfl⟩
        | error => simp [extra, hkind] at hextra
        | skipped => simp [extra, hkind] at hextra
      obtain ⟨n, hkind⟩ := hsymbol
      exact htoken.extrasCharged_setExtra hkind true
    next => exact htoken.extrasCharged
  have hsingle : single.ExtrasCharged := Piece.extrasCharged_join (List.forall_mem_singleton.mpr htoken')
  have hcuts : Cuts k _ ((k.popCount v 1).2, (k.popCount v 1).1) := h.cuts_slices v _
  split
  next run k' heq =>
    -- the run that the token joins, and the stack without the run
    have hrun : run.ExtrasCharged ∧ k'.Sound := by
      split at heq
      · generalize k.popCount v 1 = popped at hcuts heq
        dsimp only at heq
        split at heq
        next =>
          cases heq
          exact ⟨hsingle, (hcuts.grows h).sound⟩
        next x hx =>
          cases heq
          refine ⟨Piece.extrasCharged_join fun c hc => ?_, ?_⟩
          · rcases List.mem_append.mp hc with hc | hc
            · exact hcuts.extras h x (Array.mem_of_getElem? hx) c hc
            · exact List.mem_singleton.mp hc ▸ hsingle
          · have hpopped := (hcuts.grows h).sound
            have hfirst := hpopped.withBranches (hpopped.waiting.extract 0 (x.branch + 1))
            exact (hfirst.sound.renumber x.branch v).sound
      · cases heq
        exact ⟨hsingle, h⟩
    exact (hrun.2.push_run hrun.1).setLayout v _

/-! ## Missing tokens -/

theorem top_duplicate (k : Stack) (v : Nat) : (k.duplicate v).2.top (k.duplicate v).1 = k.top v := by
  simp [Stack.top, Stack.frame, Stack.branch, duplicate, Array.getD_eq_getD_getElem?]

/-- A missing token is charged for its absence, so that it may be put on any branch. -/
theorem Sound.push_missing (h : k.Sound) (token place after : Nat) (hway : after ≠ 0 → (k.top v).state ≠ 0) :
    Grows k (k.push l v (some (.mk
      { kind := .symbol token, origin := place, start := place, stop := place, missing := true } [])) after) := by
  have hcharged : Piece.Charged (.mk
      { kind := .symbol token, origin := place, start := place, stop := place, missing := true } []) :=
    Piece.charged_of_no_parts rfl rfl rfl
  refine h.push ?_ fun hafter => ⟨hway hafter, _, rfl, hcharged⟩
  rintro p ⟨⟩
  exact .intro nofun nofun

/-- A token that would lead on to `next` is put on a copy of the branch as missing. -/
theorem Sound.tryMissing (hlost : l.HasLostState) (h : k.Sound) (next : Piece) :
    (Reader.tryMissing k l s v next).2.Sound := by
  unfold Reader.tryMissing
  split
  next =>
    -- each token is tried in turn, until one leads on
    refine Loop.bind_run (q := fun x : Bool × Stack => x.2.Sound) (p := Tries)
      (Loop.forIn_list_keeps h.tries ?_) fun x hx => ?_
    · rintro w - ⟨found, k'⟩ ⟨-, hk'⟩
      dsimp only at hk' ⊢
      split
      · exact hk'.tries
      next hskip =>
        split
        next =>
          -- from the lost state no token leads on, so that none is missing there
          have hway : l.automaton.next (k'.top v).state w ≠ 0 →
              ((k'.duplicate v).2.top (k'.duplicate v).1).state ≠ 0 := by
            rw [top_duplicate]
            exact fun hafter hzero => hafter (hzero ▸ Automaton.next_lost hlost w)
          have hpushed := (hk'.duplicate v).sound.push_missing (l := l) w
            ((k'.duplicate v).2.top (k'.duplicate v).1).place _ hway
          exact leads_tries (hpushed.sound.grows_closeAll hlost _ _).sound
        next => exact hk'.tries
    · obtain ⟨_ | y, k'⟩ := x
      · exact hx.stack
      · exact hx.found y rfl
  next => exact h

end Stack

/-! ## Readers -/

namespace Reader

variable {r : Reader} {l : Language} {s : Source} {v : Nat} {token : Piece}

/-- By `recover` a branch returns to an earlier state, comes to its end with an error, or skips a token. -/
theorem Sound.recover (h : r.Sound l) (v : Nat) (htoken : token.IsToken) : (r.recover l s v token).Sound l := by
  unfold Reader.recover
  have hsettled := h.withStack h.stack.settleCounts
  have hreturned := hsettled.stack.tryReturn (l := l) (s := s) (v := v) token
  dsimp only
  generalize ({ r with stack := r.stack.settleCounts } : Reader).tryReturn l s v token = tried at hreturned ⊢
  have hidle := h.withStack (hreturned.dropIdle r.stack.settleCounts.branches.size)
  generalize dropIdle tried.2 r.stack.settleCounts.branches.size = k at hidle ⊢
  split
  · exact h.withStack (hidle.stack.halt v).sound
  · split
    next hend =>
      -- what the branch has come with does not matter, as an error is put after it
      exact hidle.accept fun ps _ whole hwhole => costsFaults_of_whole Piece.charged_join_error Piece.kind_join
        Piece.extra_join (beq_iff_eq.mp hend) hwhole
    next =>
      split
      · exact h.withStack (hidle.stack.halt v).sound
      · exact h.withStack (hidle.stack.skipToken htoken)

/-- By `loseWay` a branch without an action for a token closes what it can, tries missing tokens, and recovers. -/
theorem Sound.loseWay (hlost : l.HasLostState) (h : r.Sound l) (v : Nat)
    (htoken : token.IsToken) : (r.loseWay l s v token).Sound l := by
  unfold Reader.loseWay
  dsimp only
  refine Loop.bind_run (q := Sound l) (p := Loop.First Stack.Sound)
    (Loop.forIn_list_keeps (h.stack.grows_closeAll hlost v 0).sound ?_) fun x hx => ?_
  · rintro u - ⟨k, helped⟩ (hk : k.Sound)
    dsimp only
    -- the lost state is pushed with no piece
    have hpush {k' : Stack} (hk' : k'.Sound) : (k'.push l u none 0).Sound :=
      Stack.Grows.sound (hk'.push nofun fun hne => absurd rfl hne)
    split
    · exact hpush hk
    · exact hpush (hk.tryMissing hlost token)
  · refine Loop.bind_run (q := Sound l) (p := Stack.Sound) (Loop.forIn_range_keeps hx ?_) fun k hk => ?_
    · rintro i - - k hk
      show ((k.merge? l s v r.stack.branches.size).getD k).Sound
      cases hmerge : k.merge? l s v r.stack.branches.size with
      | none => exact hk
      | some merged => exact (hk.merge hmerge).sound
    · exact (h.withStack (hk.recordWaypoints v)).recover v htoken

end Reader

end PayloadAtlas.Python
