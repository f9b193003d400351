import PayloadAtlas.Proofs.Python.Recovery
import PayloadAtlas.Python.Reader

/-!
# What a reader finishes with

Each round keeps a reader sound (`Reader.Sound`): a branch that has its way takes charged tokens and closes matches of
them, and one that has lost it skips what comes. So the piece that a whole source is read as costs something if and
only if something in it is faulty (`costsFaults_whole?`).
-/

namespace PayloadAtlas.Python

open PayloadAtlas.Grammar PayloadAtlas.Text

/-! ## Tokens -/

namespace Token

variable {l : Language} {s : Source} {w : View} {origin : Nat}

/-- A line end, an indentation or its end is a token. -/
theorem isToken_ofLayout? {mode i : Nat} {lost : Bool} {token : Piece}
    (h : ofLayout? l s w mode lost origin i = some token) : token.IsToken := by
  unfold ofLayout? at h
  obtain ⟨p, -, h⟩ := Option.bind_eq_some_iff.mp h
  dsimp only at h
  split at h
  · cases h
    exact ⟨rfl, rfl, nofun⟩
  · cases h

/-- What a terminal matches, by `ofTerminal`, is a token. -/
theorem isToken_ofTerminal (symbol start stop : Nat) : (ofTerminal l s w origin symbol start stop).IsToken := by
  unfold ofTerminal
  dsimp only
  split
  · split
    · exact ⟨rfl, rfl, fun _ => ⟨_, rfl⟩⟩
    · exact ⟨rfl, rfl, fun _ => ⟨_, rfl⟩⟩
  · exact ⟨rfl, rfl, fun _ => ⟨_, rfl⟩⟩

/-- What is found in the text is a token, whichever of the kinds it is. -/
theorem isToken_search {mode i : Nat} {lost : Bool} {token : Piece}
    (h : search l s w mode lost origin i = .found token) : token.IsToken := by
  unfold search at h
  split at h
  next hlayout =>
    cases h
    exact isToken_ofLayout? hlayout
  next =>
    split at h
    · cases h
      exact isToken_ofTerminal _ _ _
    · cases h

/-- Characters that no token begins with are a token of their own. -/
theorem isToken_skip (start fuel stop reached : Nat) : (skip l s w origin start fuel stop reached).IsToken := by
  induction fuel generalizing stop reached with
  | zero => exact ⟨rfl, rfl, nofun⟩
  | succ fuel ih =>
    unfold skip
    dsimp only
    split
    · exact ⟨rfl, rfl, nofun⟩
    · split
      · exact ⟨rfl, rfl, nofun⟩
      · exact ih _ _

/-- Whatever `next` finds in the text is a token. -/
theorem isToken_next : (next l s w origin).IsToken := by
  unfold next
  dsimp only
  split
  next hfound => exact isToken_search hfound
  next =>
    split
    · exact isToken_skip _ _ _ _
    · split
      next hfound => exact isToken_search hfound
      next => exact isToken_skip _ _ _ _

end Token

namespace Stack

variable {k : Stack} {l : Language} {s : Source} {v : Nat}

/-- By `shift` a branch takes a token in every state that is not lost, and in a lost state it takes nothing. -/
theorem Sound.shift (h : k.Sound) {state n : Nat} {token : Piece} (hway : state ≠ 0 → (k.top v).state ≠ 0)
    (htoken : token.IsToken) (hkind : token.facts.kind = .symbol n) (extra : Bool) :
    (k.shift l v state token extra).Sound := by
  refine Sound.setLayout (Grows.sound (h.push ?_ fun hstate => ⟨hway hstate, _, rfl, ?_⟩)) v token.facts.layout
  · rintro p ⟨⟩
    exact htoken.extrasCharged_setExtra hkind extra
  · exact (htoken.charged hkind).setExtra extra

end Stack

namespace Reader

variable {r : Reader} {l : Language} {s : Source} {v : Nat} {token : Piece}

/-! ## One token -/

/-- What comes of the actions on a token: the readers are sound, and branch `v` is still there. -/
structure Acts (l : Language) (v : Nat) (x : Option Nat × Option Reader × Reader) : Prop where
  done : ∀ r ∈ x.2.1, Reader.Sound l r
  reader : Reader.Sound l x.2.2
  lt_size : v < x.2.2.stack.branches.size
  lt_new : ∀ u ∈ x.1, v < u

/-- One action after the other is done by `act` on a token, until one of them ends the branch. -/
theorem acts_act (hlost : l.HasLostState) (h : r.Sound l)
    (hv : v < r.stack.branches.size) {actions : List Action} {n : Nat}
    (hway : (r.stack.top v).state ≠ 0 ∨ ∀ a ∈ actions, a = .shiftExtra ∨ a = .recover) (htoken : token.IsToken)
    (hkind : token.facts.kind = .symbol n) {last : Option Nat} (hlast : ∀ u ∈ last, v < u) :
    Acts l v (act l s v token actions r last) := by
  -- along the actions: each of them either comes to an end or hands the reader to those after it
  induction actions generalizing r last with
  | nil => exact ⟨nofun, h, hv, hlast⟩
  | cons a rest ih =>
    have hrest : (r.stack.top v).state ≠ 0 ∨ ∀ a ∈ rest, a = .shiftExtra ∨ a = .recover :=
      hway.imp_right fun hall b hb => hall b (List.mem_cons_of_mem a hb)
    -- all but skipping is done by branches that have their way
    have hself : (a ≠ .shiftExtra ∧ a ≠ .recover) → (r.stack.top v).state ≠ 0 := by
      rintro ⟨hshift, hrecover⟩
      refine hway.resolve_right fun hall => ?_
      rcases hall a List.mem_cons_self with heq | heq
      · exact hshift heq
      · exact hrecover heq
    have hdone {r' : Reader} (hr' : r'.Sound l) : Acts l v (last, some r', r) :=
      ⟨fun _ hx => Option.some.inj hx ▸ hr', h, hv, hlast⟩
    unfold act
    match a with
    | .shift _ true => exact ih h hv hrest hlast
    | .shift state false =>
      exact hdone (h.withStack (h.stack.shift (fun _ => hself ⟨nofun, nofun⟩) htoken hkind false))
    | .shiftExtra => exact hdone (h.withStack (h.stack.shift id htoken hkind true))
    | .reduce target count weight shape =>
      -- the match is closed on new branches, so the rest of the actions finds the branch in the same state
      have hadds := h.stack.adds_reduce (s := s) hlost (hself ⟨nofun, nofun⟩) target count weight shape
      have hnew := r.stack.eq_of_mem_reduce l s v target count weight shape
      generalize hreduced : r.stack.reduce l s v target count weight shape = reduced at hadds hnew
      dsimp only
      rw [hreduced]
      refine ih (h.withStack hadds.sound) (Nat.lt_of_lt_of_le hv hadds.size_le)
        (.inl (hadds.top_ne_zero hv (hself ⟨nofun, nofun⟩))) fun u hu => ?_
      rcases Option.or_eq_some_iff.mp hu with hu | ⟨-, hu⟩
      · exact hnew u hu ▸ hv
      · exact hlast u hu
    | .accept =>
      refine hdone (h.accept fun ps hps whole hwhole => (charged_of_whole (fun p hp => ?_) hwhole).costsFaults)
      rcases List.mem_append.mp hp with hp | hp
      · exact h.stack.charged_of_mem_popAll (hself ⟨nofun, nofun⟩) ps hps p hp
      · exact List.mem_singleton.mp hp ▸ htoken.charged hkind
    | .recover => exact hdone (h.recover v htoken)

theorem lt_size_renumber {k : Stack} {u : Nat} (hv : v < k.branches.size) (hu : v < u) :
    v < (k.renumber u v).branches.size := by
  unfold Stack.renumber
  rw [if_neg (Nat.ne_of_gt hu)]
  simp only [Stack.remove, Array.size_append, Array.size_extract, Array.set!_eq_setIfInBounds,
    Array.size_setIfInBounds]
  omega

/-- A token is taken in the state that the branch is in, be it lost or not. -/
theorem acts_token (hlost : l.HasLostState) (h : r.Sound l)
    (hv : v < r.stack.branches.size) (htoken : token.IsToken) :
    Acts l v (act l s v token (match token.facts.kind with
      | .symbol n => l.automaton.actions (r.stack.top v).state n
      | _ => []) r none) := by
  cases hkind : token.facts.kind with
  | symbol n =>
    refine acts_act hlost h hv ?_ htoken hkind nofun
    by_cases hstate : (r.stack.top v).state = 0
    · exact .inr fun a ha => Automaton.mem_actions_lost hlost (hstate ▸ ha)
    · exact .inl hstate
  | error => exact ⟨nofun, h, hv, nofun⟩
  | skipped => exact ⟨nofun, h, hv, nofun⟩

/-- By `advanceBy` a branch takes a token after as many matches as the fuel lets it close. -/
theorem sound_advanceBy (hlost : l.HasLostState) (fuel : Nat) (h : r.Sound l)
    (hv : v < r.stack.branches.size) (htoken : token.IsToken) : (advanceBy l s v fuel token r).Sound l := by
  induction fuel generalizing r token with
  | zero => exact h.withStack (h.stack.halt v).sound
  | succ fuel ih =>
    unfold advanceBy
    dsimp only
    -- the token was taken, or a match was closed before it, or there was no action on it
    split
    next new done r' heq =>
      have hacts : Acts l v (new, some done, r') := heq ▸ acts_token hlost h hv htoken
      exact hacts.done done rfl
    next new r' heq =>
      have hacts : Acts l v (some new, none, r') := heq ▸ acts_token hlost h hv htoken
      have hrenumbered := hacts.reader.stack.renumber new v
      exact ih (hacts.reader.withStack hrenumbered.sound) (lt_size_renumber hacts.lt_size (hacts.lt_new new rfl)) htoken
    next r' heq =>
      have hacts : Acts l v (none, none, r') := heq ▸ acts_token hlost h hv htoken
      split
      -- the token is tried again as a word
      · exact ih hacts.reader hacts.lt_size ⟨rfl, htoken.cost, fun _ => ⟨_, rfl⟩⟩
      · split
        · exact hacts.reader.recover v htoken
        · refine hacts.reader.withStack (Stack.Grows.sound (hacts.reader.stack.modify fun b t ht => .inr ?_))
          cases ht
          exact htoken

/-! ## One round -/

theorem lt_size_of_isActive {k : Stack} (h : k.isActive v = true) : v < k.branches.size := by
  by_contra hge
  rw [Stack.isActive, Stack.branch, Array.getD_eq_getD_getElem?, Array.getElem?_eq_none (Nat.le_of_not_lt hge)] at h
  cases h

/-- A branch goes on until it is beyond the place `last`. -/
theorem sound_advanceBeyond (hlost : l.HasLostState) (fuel last : Nat)
    (h : r.Sound l) : (advanceBeyond l s v fuel last r).2.Sound l := by
  induction fuel generalizing r with
  | zero => exact h
  | succ fuel ih =>
    unfold advanceBeyond
    dsimp only
    split
    next hactive =>
      have hadvanced : (r.advance l s v).Sound l :=
        sound_advanceBy hlost _ h (lt_size_of_isActive hactive) Token.isToken_next
      split
      · exact hadvanced
      · exact ih hadvanced
    next => exact h

/-- One branch after the other goes on, those that are new in this round included. -/
theorem sound_advanceAll (hlost : l.HasLostState) (fuel v last : Nat) (h : r.Sound l) :
    (advanceAll l s fuel v last r).2.Sound l := by
  induction fuel generalizing r v last with
  | zero => exact h
  | succ fuel ih =>
    unfold advanceAll
    have hadvanced := sound_advanceBeyond (s := s) (v := v) hlost (1000 * (s.size + 10)) last h
    generalize advanceBeyond l s v (1000 * (s.size + 10)) last r = x at hadvanced
    split
    · exact ih _ _ hadvanced
    · exact h

/-- What is known while a branch is compared with the ones before it. -/
structure Contends (x : Option (Nat × Stack) × Stack × Nat × Nat) : Prop where
  found : ∀ y ∈ x.1, y.2.Sound
  stack : x.2.1.Sound

/-- Of two branches one may take the place of the other, or both are merged. -/
theorem sound_contend {k : Stack} (h : k.Sound) (i : Nat) : (contend k l s i).2.Sound := by
  unfold contend
  refine Loop.bind_run (q := fun x : Nat × Stack => x.2.Sound) (p := Contends)
    (Loop.forIn_range_keeps ⟨nofun, h⟩ ?_) fun x hx => ?_
  · rintro - - - ⟨found, k', i, j⟩ ⟨-, hk'⟩
    dsimp only at hk' ⊢
    have hfound (n : Nat) {k : Stack} (hk : k.Sound) : Contends (some (n, k), k', i, j) :=
      ⟨fun _ hy => Option.some.inj hy ▸ hk, hk'⟩
    -- by what the comparison says of the two
    split
    · exact ⟨nofun, hk'⟩
    · split
      · exact hfound i (hk'.remove i).sound
      · split
        next hmerge => exact hfound i (hk'.merge hmerge).sound
        next => exact ⟨nofun, hk'⟩
      · split
        next hmerge => exact hfound i (hk'.merge hmerge).sound
        next => exact ⟨nofun, hk'⟩
      · split
        next hmerge => exact hfound i (hk'.merge hmerge).sound
        next =>
          -- the two stacks change places
          have hset : Stack.Waiting (k'.branches.set! i (k'.branch j)) :=
            hk'.waiting.set fun _ => hk'.waiting.branch j
          exact ⟨nofun, (hk'.withBranches (hset.set (v := j) fun _ => hk'.waiting.branch i)).sound⟩
      · exact ⟨nofun, (hk'.remove j).sound⟩
  · obtain ⟨_ | y, k', i, j⟩ := x
    · exact hx.stack
    · exact hx.found y rfl

/-- Branches are compared with those before them, and only the first `maxBranches` are kept. -/
theorem sound_sift {k : Stack} (h : k.Sound) : (sift k l s).2.Sound := by
  unfold sift
  have hsettled := h.settleCounts
  refine Loop.bind_run (q := fun x : Option Nat × Stack => x.2.Sound) (p := Loop.First Stack.Sound)
    (Loop.forIn_range_keeps hsettled ?_) fun x (hx : x.1.Sound) => ?_
  · rintro - - - ⟨k', least, i⟩ (hk' : k'.Sound)
    dsimp only
    split
    · exact hk'
    · split
      · exact (hk'.remove i).sound
      · split
        · exact sound_contend hk' i
        · exact sound_contend hk' i
  · exact (hx.withBranches (hx.waiting.extract 0 maxBranches)).sound

/-- A branch that waits is woken where no other has its way. -/
theorem sound_resume (hlost : l.HasLostState) (h : r.Sound l) (least : Option Nat) :
    (r.resume l s least).2.Sound l := by
  unfold resume
  refine Loop.bind_run (q := fun x : Option Nat × Reader => Sound l x.2) (p := Loop.First (Sound l))
    (Loop.forIn_range_keeps h ?_) fun x hx => hx
  rintro - - - ⟨r', least, i, resumed, n⟩ (hr' : r'.Sound l)
  dsimp only
  split
  · exact hr'
  · split
    next token hpaused =>
      split
      · have hactive : Stack.Grows r'.stack (r'.stack.modify i fun b => { b with status := .active }) :=
          hr'.stack.modify fun _ _ => nofun
        exact (hr'.withStack hactive.sound).loseWay hlost i (hr'.stack.waiting.branch i hpaused)
      · exact hr'.withStack (hr'.stack.remove i).sound
    next => exact hr'

/-- The reader is sound after each of the `rounds`, and so after the last. -/
theorem sound_rounds (hlost : l.HasLostState) (fuel last : Nat) (h : r.Sound l) :
    (rounds l s fuel last r).Sound l := by
  induction fuel generalizing r last with
  | zero => exact h
  | succ fuel ih =>
    unfold rounds
    have hadvanced := sound_advanceAll (s := s) hlost 1000 0 last h
    have hresumed := sound_resume (s := s) hlost (hadvanced.withStack (sound_sift (l := l) (s := s) hadvanced.stack))
    have hnext (settled : Bool) (last : Nat) {r : Reader} (hr : r.Sound l) :
        Sound l (if settled then r else rounds l s fuel last r) := by
      split
      · exact hr
      · exact ih last hr
    exact hnext _ _ (hresumed _)

end Reader

/-- The piece that a whole source is read as `CostsFaults`. -/
theorem costsFaults_whole? {l : Language} (hlost : l.HasLostState) {s : Source}
    {p : Piece} (h : whole? l s = some p) : p.CostsFaults l := by
  have hinitial : Reader.Sound l { stack := .initial } := ⟨Stack.sound_initial, fun p hp => by cases hp⟩
  exact (Reader.sound_rounds hlost _ 0 hinitial).finished p h

end PayloadAtlas.Python
