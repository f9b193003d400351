import PayloadAtlas.Grammar.Merging
import PayloadAtlas.Proofs.Loop

/-!
# The state of a reader that has lost its way

In state `0` a token is skipped, or taken as something that may stand anywhere; no match is closed, and nothing
leads to another state (`State.IsLost`). That is how the state is made, and it stays so when states are joined,
as no other state has its set of items (`Division.Alone`), and when states are passed by or emptied. So a reader
with the automaton of a grammar never leaves the state by what the grammar says (`isLost_ofGrammar`).
-/

namespace PayloadAtlas.Grammar

/-- On every token nothing is done but to skip it, or to take it as something that may stand anywhere. -/
def SkipsAll (actions : Array (List Action)) : Prop :=
  ∀ token, ∀ a ∈ actions.getD token [], a = .shiftExtra ∨ a = .recover

/-- No variable leads to a state. -/
def LeadsNowhere (gotos : Array Nat) : Prop := ∀ i, gotos.getD i 0 = 0

/-- Nothing is done in the state but to skip tokens, and nothing leads from it. -/
structure State.IsLost (s : State) : Prop where
  skipsAll : SkipsAll s.actions
  leadsNowhere : LeadsNowhere s.gotos

theorem skipsAll_replicate (n : Nat) : SkipsAll (Array.replicate n []) := by
  intro token a ha
  rw [Array.getD_eq_getD_getElem?, Array.getElem?_replicate] at ha
  split at ha <;> cases ha

theorem leadsNowhere_replicate (n : Nat) : LeadsNowhere (Array.replicate n 0) := by
  intro i
  rw [Array.getD_eq_getD_getElem?, Array.getElem?_replicate]
  split <;> rfl

theorem State.isLost_default : (default : State).IsLost :=
  ⟨skipsAll_replicate 0, leadsNowhere_replicate 0⟩

/-- Whether the state of number `0` is lost is seen from what stands there, if anything does. -/
theorem isLost_getD_zero_iff {states : Array State} :
    (states.getD 0 default).IsLost ↔ ∀ s, states[0]? = some s → s.IsLost := by
  rw [Array.getD_eq_getD_getElem?]
  cases states[0]? with
  | none => exact ⟨fun _ _ => nofun, fun _ => State.isLost_default⟩
  | some s => exact ⟨fun h s' hs => Option.some.inj hs ▸ h, fun h => h s rfl⟩

/-- Actions that skip may be put for a token, and `SkipsAll` stays. -/
theorem SkipsAll.set {actions : Array (List Action)} (h : SkipsAll actions) (token : Nat) {as : List Action}
    (has : ∀ a ∈ as, a = .shiftExtra ∨ a = .recover) : SkipsAll (actions.set! token as) := by
  intro i a ha
  rw [Array.set!_eq_setIfInBounds, Array.getD_eq_getD_getElem?, Array.getElem?_setIfInBounds] at ha
  split at ha
  · split at ha
    · exact has a ha
    · cases ha
  · exact h i a (Array.getD_eq_getD_getElem? ▸ ha)

/-- Steps to other states may be renumbered by `goTo`: there are none among actions that skip. -/
theorem map_shift_of_skips {as : List Action} (has : ∀ a ∈ as, a = .shiftExtra ∨ a = .recover) (goTo : Nat → Nat) :
    ∀ a ∈ as.map (fun | .shift n again => .shift (goTo n) again | a => a), a = Action.shiftExtra ∨ a = .recover := by
  intro a ha
  obtain ⟨b, hb, rfl⟩ := List.mem_map.mp ha
  rcases has b hb with rfl | rfl
  · exact .inl rfl
  · exact .inr rfl

namespace Automaton

/-- The `lostState` is lost. -/
theorem isLost_lostState (v : Vocabulary) (excluded : List Nat) (core : Nat) :
    (lostState v excluded core).IsLost := by
  refine ⟨fun token a ha => ?_, leadsNowhere_replicate _⟩
  simp only [lostState, Array.getD_eq_getD_getElem?, Array.getElem?_map, Array.getElem?_range] at ha
  split at ha
  · dsimp only [Option.map_some, Option.getD_some] at ha
    split at ha
    · exact .inl (List.mem_singleton.mp ha)
    · split at ha
      · cases ha
      · exact .inr (List.mem_singleton.mp ha)
  · cases ha

/-! ## Discovery -/

/-- The numbers of item sets are below their count. -/
structure Discovery.Numbered (d : Discovery) : Prop where
  numbers : ∀ (key : Array Nat) (c : Nat), d.coreNumbers[key]? = some c → c < d.coreNumbers.size
  cores : ∀ c ∈ d.cores, c < d.coreNumbers.size
  size_pos : 0 < d.coreNumbers.size

/-- Item sets are numbered in `d'`, which has all of `d`. -/
structure Discovery.Grows (d d' : Discovery) : Prop where
  numbered : d'.Numbered
  size_le : d.coreNumbers.size ≤ d'.coreNumbers.size

theorem Discovery.Grows.trans {d d' d'' : Discovery} (h : d.Grows d') (h' : d'.Grows d'') : d.Grows d'' :=
  ⟨h'.numbered, Nat.le_trans h.size_le h'.size_le⟩

section Numbers

variable {m : Std.HashMap (Array Nat) Nat} {key key' : Array Nat} {c n : Nat}

/-- Where the numbers were below `n`, they are below `n + 1` with one more. -/
theorem lt_of_getElem?_insert (hm : ∀ (k : Array Nat) (x : Nat), m[k]? = some x → x < n)
    (h : (m.insert key n)[key']? = some c) : c < n + 1 := by
  rw [Std.HashMap.getElem?_insert] at h
  split at h
  · cases h
    exact Nat.lt_succ_self _
  · exact Nat.lt_succ_of_lt (hm key' c h)

theorem size_insert_of_getElem?_eq_none (n : Nat) (h : m[key]? = none) : (m.insert key n).size = m.size + 1 := by
  rw [Std.HashMap.size_insert, if_neg]
  rw [Std.HashMap.mem_iff_isSome_getElem?, h]
  exact Bool.false_ne_true

end Numbers

/-- Visiting a kernel numbers its item set if it is new. -/
theorem Discovery.Numbered.grows_visit {d : Discovery} (h : d.Numbered) (kernel : ItemTable.Kernel) :
    d.Grows (d.visit kernel).2 := by
  unfold Discovery.visit
  cases d.known[kernel]? with
  | some n => exact ⟨h, Nat.le_refl _⟩
  | none =>
    dsimp only
    cases hcore : d.coreNumbers[kernel.map (·.1)]? with
    | some c =>
      refine ⟨⟨h.numbers, fun x hx => ?_, h.size_pos⟩, Nat.le_refl _⟩
      rcases Array.mem_push.mp hx with hx | rfl
      · exact h.cores x hx
      · exact h.numbers _ _ hcore
    | none =>
      have hsize : (d.coreNumbers.insert (kernel.map (·.1)) d.coreNumbers.size).size = d.coreNumbers.size + 1 :=
        size_insert_of_getElem?_eq_none _ hcore
      refine ⟨⟨fun key c hc => ?_, fun x hx => ?_, ?_⟩, ?_⟩
      · exact hsize ▸ lt_of_getElem?_insert h.numbers hc
      · show x < (d.coreNumbers.insert _ _).size
        rw [hsize]
        rcases Array.mem_push.mp hx with hx | rfl
        · exact Nat.lt_succ_of_lt (h.cores x hx)
        · exact Nat.lt_succ_self _
      · exact hsize ▸ Nat.succ_pos _
      · exact hsize ▸ Nat.le_succ _

/-- The start state has the first item set. -/
theorem Discovery.numbered_begin (kernel : ItemTable.Kernel) :
    (Discovery.visit ⟨#[#[]], #[0], ∅, ∅⟩ kernel).2.Numbered := by
  have hsize : ((∅ : Std.HashMap (Array Nat) Nat).insert (kernel.map (·.1)) 0).size = 1 :=
    size_insert_of_getElem?_eq_none _ Std.HashMap.getElem?_empty
  simp only [Discovery.visit, Std.HashMap.getElem?_empty, Std.HashMap.size_empty]
  refine ⟨fun key c hc => hsize ▸ lt_of_getElem?_insert (fun k x hx => ?_) hc, fun c hc => ?_, ?_⟩
  · rw [Std.HashMap.getElem?_empty] at hx
    cases hx
  · have hzero : c = 0 := by simpa using hc
    exact hsize ▸ hzero ▸ Nat.zero_lt_one
  · exact hsize ▸ Nat.zero_lt_one

/-- A state is made of an item set, and item sets stay numbered. -/
structure Explores (d : Discovery) (core : Nat) (r : State × Discovery) : Prop where
  core_eq : r.1.core = core
  grows : d.Grows r.2

/-- The state that `explore` makes has the item set that it is for, and item sets stay numbered. -/
theorem explores_explore (t : ItemTable) {d : Discovery} (h : d.Numbered) (kernel : ItemTable.Kernel) (core : Nat) :
    Explores d core (explore t d kernel core) := by
  have hvisit (d' : Discovery) (hd' : d.Grows d') (kernel : ItemTable.Kernel) : d.Grows (d'.visit kernel).2 :=
    hd'.trans (hd'.numbered.grows_visit kernel)
  unfold explore
  refine Loop.bind_run (p := fun _ => True) trivial fun _ _ => ?_
  refine Loop.bind_run (p := Loop.First d.Grows) (Loop.forIn_list_keeps ⟨h, Nat.le_refl _⟩ ?_) fun x hx => ?_
  · rintro token - ⟨d', cells⟩ hd'
    dsimp only
    split
    · exact hd'
    · exact hvisit d' hd' _
  refine Loop.bind_run (p := Loop.First d.Grows) (Loop.forIn_range_keeps hx ?_) fun y hy => ?_
  · rintro i - - ⟨d', gotos⟩ hd'
    dsimp only
    split
    · exact hd'
    · exact hvisit d' hd' _
  -- what the actions of the state are does not matter here
  exact Explores.mk (d := d) rfl hy

/-- The states that were found have item sets with numbers. -/
structure Found (x : Discovery × Array State) : Prop where
  numbered : x.1.Numbered
  size_pos : 0 < x.2.size
  cores : ∀ s ∈ x.2, s.core < x.1.coreNumbers.size

/-- The first state is the lost one, and no other has its item set. -/
structure BeginsLost (states : Array State) : Prop where
  size_pos : 0 < states.size
  isLost : (states.getD 0 default).IsLost
  core_ne : ∀ i, 0 < i → i < states.size → (states.getD i default).core ≠ (states.getD 0 default).core

/-- The lost state gets a number that no item set has. -/
theorem Found.beginsLost {x : Discovery × Array State} (h : Found x) (v : Vocabulary) (excluded : List Nat) :
    BeginsLost (x.2.set! 0 (lostState v excluded x.1.coreNumbers.size)) := by
  obtain ⟨d, states⟩ := x
  have hzero : (states.set! 0 (lostState v excluded d.coreNumbers.size)).getD 0 default
      = lostState v excluded d.coreNumbers.size := by
    have hsize := h.size_pos
    simp [Array.getD_eq_getD_getElem?, hsize]
  refine ⟨by simpa using h.size_pos, ?_, fun i hi hlt => ?_⟩
  · dsimp only
    rw [hzero]
    exact isLost_lostState _ _ _
  have hother : (states.set! 0 (lostState v excluded d.coreNumbers.size)).getD i default
      = states.getD i default := by
    simp [Array.getD_eq_getD_getElem?, Nat.ne_of_lt hi]
  have hmem : states.getD i default ∈ states := by
    rw [Array.set!_eq_setIfInBounds, Array.size_setIfInBounds] at hlt
    rw [← Array.getElem_eq_getD (h := hlt)]
    exact Array.getElem_mem hlt
  rw [hzero, hother]
  exact Nat.ne_of_lt (h.cores _ hmem)

/-- The states of `canonical` begin with the lost one. -/
theorem beginsLost_canonical (t : ItemTable) (excluded : List Nat) : BeginsLost (canonical t excluded) := by
  unfold canonical
  refine Loop.bind_run (p := Found) (Loop.forIn_range_keeps ?_ ?_) fun x hx => ?_
  · have hbegin := Discovery.numbered_begin #[(t.start, TokenSet.singleton 0)]
    refine ⟨hbegin, Nat.zero_lt_one, fun s hs => ?_⟩
    obtain rfl : s = default := by simpa using hs
    exact hbegin.size_pos
  · rintro i - - ⟨d, states⟩ ⟨hd, hsize, hcores⟩
    have hcore : d.cores.getD i 0 < d.coreNumbers.size := by
      rw [Array.getD_eq_getD_getElem?]
      cases hi : d.cores[i]? with
      | some c => exact hd.cores c (Array.mem_of_getElem? hi)
      | none => exact hd.size_pos
    have hexplores := explores_explore t hd (d.kernels.getD i #[]) (d.cores.getD i 0)
    dsimp only at hd hcores hexplores ⊢
    split
    · exact ⟨hd, hsize, hcores⟩
    · refine ⟨hexplores.grows.numbered, by simp [Array.size_push], fun s hs => ?_⟩
      have hle := hexplores.grows.size_le
      -- a new state has the item set with which it was found
      rcases Array.mem_push.mp hs with hs | rfl
      · exact Nat.lt_of_lt_of_le (hcores s hs) hle
      · exact hexplores.core_eq ▸ Nat.lt_of_lt_of_le hcore hle
  · exact hx.beginsLost _ _

/-! ## Groups -/

/-- State `0` is alone in the group `own`, and in no other. -/
structure AloneIn (own : Nat) (groups : Array (Array Nat)) : Prop where
  group : groups.getD own #[] = #[0]
  only : ∀ g, 0 ∈ groups.getD g #[] → g = own

/-- State `0` is alone in the group that it has. -/
def Division.Alone (d : Division) : Prop := AloneIn (d.groupOf.getD 0 0) d.groups

/-- Each item set has a number below the count that the fold finds. -/
theorem le_foldl_core (states : List State) (n : Nat) :
    n ≤ states.foldl (fun n s => max n (s.core + 1)) n ∧
      ∀ s ∈ states, s.core < states.foldl (fun n s => max n (s.core + 1)) n := by
  induction states generalizing n with
  | nil => exact ⟨Nat.le_refl n, fun s hs => by cases hs⟩
  | cons x xs ih =>
    obtain ⟨hle, hlt⟩ := ih (max n (x.core + 1))
    rw [List.foldl_cons]
    refine ⟨Nat.le_trans (Nat.le_max_left _ _) hle, fun s hs => ?_⟩
    rcases List.mem_cons.mp hs with rfl | hs
    · exact Nat.lt_of_lt_of_le (Nat.lt_succ_self _) (Nat.le_trans (Nat.le_max_right _ _) hle)
    · exact hlt s hs

/-- The groups of the first `i` states, of which state `0` is alone in its own. -/
structure GroupsUpTo (own : Nat) (i : Nat) (groups : Array (Array Nat)) : Prop where
  size : own < groups.size
  group : groups.getD own #[] = if i = 0 then #[] else #[0]
  only : ∀ g, 0 ∈ groups.getD g #[] → g = own

/-- The next state joins the group of its item set, which is `own` for state `0` only. -/
theorem GroupsUpTo.push {own i core : Nat} {groups : Array (Array Nat)} (h : GroupsUpTo own i groups)
    (hcore : core = own ↔ i = 0) : GroupsUpTo own (i + 1) (groups.modify core (·.push i)) := by
  have hgetD (g : Nat) : (groups.modify core (·.push i)).getD g #[]
      = if core = g ∧ g < groups.size then (groups.getD g #[]).push i else groups.getD g #[] := by
    simp only [Array.getD_eq_getD_getElem?, Array.getElem?_modify]
    by_cases hlt : g < groups.size
    · by_cases hg : core = g
      · simp [hg, hlt]
      · simp [hg]
    · simp [hlt]
  refine ⟨by simpa using h.size, ?_, fun g hg => ?_⟩
  · rw [hgetD, h.group, if_neg (Nat.succ_ne_zero i)]
    -- the group of state `0` gets that state and no other
    by_cases hi : i = 0
    · rw [if_pos ⟨hcore.mpr hi, h.size⟩, if_pos hi, hi]
      rfl
    · rw [if_neg fun h => hi (hcore.mp h.1), if_neg hi]
  · rw [hgetD] at hg
    split at hg
    next heq =>
      rcases Array.mem_push.mp hg with hg | hi
      · exact h.only g hg
      · exact heq.1.symm.trans (hcore.mpr hi.symm)
    next => exact h.only g hg

theorem mem_of_mem_filterMap_zip {members : Array Nat} {out : Array Bool} {f : Nat × Bool → Option Nat} {m : Nat}
    (hf : ∀ x, f x = none ∨ f x = some x.1) (h : m ∈ (members.zip out).filterMap f) : m ∈ members := by
  obtain ⟨x, hmem, hsome⟩ := Array.mem_filterMap.mp h
  rcases hf x with hnone | hself
  · rw [hnone] at hsome
    cases hsome
  · cases hself.symm.trans hsome
    exact (Array.of_mem_zip hmem).1

section Parting

variable {members : Array Nat} {out : Array Bool} {m : Nat}

theorem mem_of_mem_leaving
    (h : m ∈ (members.zip out).filterMap fun (m, o) => if o then some m else none) : m ∈ members := by
  refine mem_of_mem_filterMap_zip ?_ h
  rintro ⟨m, _ | _⟩
  · exact .inl rfl
  · exact .inr rfl

theorem mem_of_mem_staying
    (h : m ∈ (members.zip out).filterMap fun (m, o) => if o then none else some m) : m ∈ members := by
  refine mem_of_mem_filterMap_zip ?_ h
  rintro ⟨m, _ | _⟩
  · exact .inr rfl
  · exact .inl rfl

end Parting

theorem getD_zero_set_of_ne {groupOf : Array Nat} {m : Nat} (h : m ≠ 0) (n : Nat) :
    (groupOf.set! m n).getD 0 0 = groupOf.getD 0 0 := by
  rw [Array.set!_eq_setIfInBounds, Array.getD_eq_getD_getElem?, Array.getElem?_setIfInBounds_ne h,
    ← Array.getD_eq_getD_getElem?]

/-- Nothing is at odds with a state that is alone: the group `g`, with two members, is another one. -/
theorem AloneIn.ne_of_lt {own : Nat} {groups : Array (Array Nat)} (h : AloneIn own groups) {g i j : Nat}
    (hij : i + 1 ≤ j) (hj : j < (groups.getD g #[]).size) : g ≠ own := by
  rintro rfl
  rw [h.group] at hj
  exact absurd hj (by simp; omega)

theorem AloneIn.lt_size {own : Nat} {groups : Array (Array Nat)} (h : AloneIn own groups) : own < groups.size := by
  by_contra hge
  have hgroup := h.group
  rw [Array.getD_eq_getD_getElem?, Array.getElem?_eq_none (Nat.le_of_not_lt hge)] at hgroup
  cases hgroup

/-- A group `g` that is not that of state `0` may be taken apart. -/
theorem AloneIn.regroup {own : Nat} {groups : Array (Array Nat)} (h : AloneIn own groups) {g : Nat} (hg : g ≠ own)
    {staying leaving : Array Nat} (hstaying : 0 ∉ staying) (hleaving : 0 ∉ leaving) :
    AloneIn own ((groups.set! g staying).push leaving) := by
  have hgetD (i : Nat) : ((groups.set! g staying).push leaving).getD i #[]
      = if i = groups.size then leaving else if g = i then if i < groups.size then staying else #[]
        else groups.getD i #[] := by
    simp only [Array.set!_eq_setIfInBounds, Array.getD_eq_getD_getElem?, Array.getElem?_push,
      Array.size_setIfInBounds, Array.getElem?_setIfInBounds]
    split
    · rfl
    · split
      next heq =>
        subst heq
        split <;> rfl
      next => rfl
  refine ⟨?_, fun g' hmem => ?_⟩
  · rw [hgetD, if_neg (Nat.ne_of_lt h.lt_size), if_neg hg, h.group]
  · rw [hgetD] at hmem
    split at hmem
    · exact absurd hmem hleaving
    · split at hmem
      · split at hmem
        · exact absurd hmem hstaying
        · cases hmem; contradiction
      · exact h.only g' hmem

/-- What the loop over the groups keeps: it has not moved state `0`. -/
structure SplitsApart (own : Nat) (x : Array Nat × Array (Array Nat) × Bool) : Prop where
  groupOf : x.1.getD 0 0 = own
  alone : AloneIn own x.2.1

/-- Splitting groups leaves state `0` alone. -/
theorem alone_split {d : Division} (h : d.Alone) (odds : Array Nat → Nat → Nat → Bool) :
    (d.split odds).2.Alone := by
  unfold Division.split
  refine Loop.bind_run (q := fun x : Bool × Division => x.2.Alone) (p := SplitsApart (d.groupOf.getD 0 0))
    (Loop.forIn_range_keeps ⟨rfl, h⟩ ?_) fun x hx => (hx.groupOf.symm ▸ hx.alone : AloneIn (x.1.getD 0 0) x.2.1)
  rintro g - - ⟨groupOf, groups, any⟩ ⟨hgroupOf, halone⟩
  dsimp only at hgroupOf halone ⊢
  split
  · exact ⟨hgroupOf, halone⟩
  -- a group that loses a member has two, so that it is not the one of state `0`
  refine Loop.bind_run (p := fun out => true ∈ out → g ≠ d.groupOf.getD 0 0)
    (Loop.forIn_range_keeps (p := fun out => true ∈ out → g ≠ d.groupOf.getD 0 0) ?_ ?_) fun out hout => ?_
  · intro hmem
    simp at hmem
  · rintro i - hi out hmem
    split
    · exact hmem
    refine Loop.bind_run (p := fun out => true ∈ out → g ≠ d.groupOf.getD 0 0)
      (Loop.forIn_range_keeps (p := fun out => true ∈ out → g ≠ d.groupOf.getD 0 0) hmem ?_) fun out hout => hout
    intro j hij hj out' hmem'
    split
    · exact hmem'
    split
    · exact fun _ => halone.ne_of_lt hij hj
    · exact hmem'
  · split
    next hany =>
      have hg := hout (Array.contains_iff_mem.mp hany)
      have hzero : 0 ∉ groups.getD g #[] := fun hmem => hg (halone.only g hmem)
      refine Loop.bind_run (p := fun x : Array Nat => x.getD 0 0 = d.groupOf.getD 0 0)
        (Loop.forIn_array_keeps (p := fun x : Array Nat => x.getD 0 0 = d.groupOf.getD 0 0) hgroupOf ?_)
        fun groupOf' hgroupOf' => ⟨hgroupOf', halone.regroup hg (mt mem_of_mem_staying hzero)
          (mt mem_of_mem_leaving hzero)⟩
      intro m hm groupOf' hgroupOf'
      have hne : m ≠ 0 := fun heq => hzero (heq ▸ mem_of_mem_leaving hm)
      exact (getD_zero_set_of_ne hne groups.size).trans hgroupOf'
    next => exact ⟨hgroupOf, halone⟩

/-- Dividing the states into groups leaves state `0` alone: its item set is its own, and no split touches its group.
-/
theorem alone_divide (v : Vocabulary) (r : Rivalry) {states : Array State} (h : BeginsLost states) :
    (divide v r states).Alone := by
  have hzero : ((states.map State.core).getD 0 0) = (states.getD 0 default).core := by
    have hsize := h.size_pos
    simp [Array.getD_eq_getD_getElem?, hsize]
  unfold divide
  refine Loop.bind_run (p := GroupsUpTo (states.getD 0 default).core states.size)
    (Loop.forIn_range_leads (GroupsUpTo (states.getD 0 default).core) ?_ ?_ fun _ hb => hb) fun groups hgroups => ?_
  · refine ⟨?_, ?_, fun g hg => ?_⟩
    · rw [Array.size_replicate, ← Array.foldl_toList]
      refine (le_foldl_core states.toList 0).2 _ (Array.mem_toList_iff.mpr ?_)
      rw [← Array.getElem_eq_getD (h := h.size_pos)]
      exact Array.getElem_mem h.size_pos
    · rw [Array.getD_eq_getD_getElem?, Array.getElem?_replicate]
      split <;> rfl
    · rw [Array.getD_eq_getD_getElem?, Array.getElem?_replicate] at hg
      split at hg
      · exact absurd hg (Array.not_mem_empty 0)
      · exact absurd hg (Array.not_mem_empty 0)
  · intro i hi groups hgroups
    -- no other state has the item set of state `0`, so that none joins its group
    refine hgroups.push ⟨fun heq => ?_, fun heq => heq ▸ rfl⟩
    by_contra hne
    exact h.core_ne i (Nat.pos_of_ne_zero hne) hi heq
  have halone : (⟨states.map State.core, groups⟩ : Division).Alone := by
    have hsize := Nat.ne_of_gt h.size_pos
    show AloneIn ((states.map State.core).getD 0 0) groups
    rw [hzero]
    exact ⟨by rw [hgroups.group, if_neg hsize], hgroups.only⟩
  refine Loop.bind_run (p := Division.Alone) (Loop.forIn_range_keeps (alone_split halone _) ?_) fun d hd => hd
  rintro i - - d hd
  have hsplit := alone_split hd (lead v states)
  dsimp only
  split
  · exact hsplit
  · exact hsplit

/-! ## Joining states -/

/-- Actions and steps of a state while they are collected, if the state is to be the lost one. -/
structure CollectsLost (x : Array (List Action) × Array Nat) : Prop where
  skipsAll : SkipsAll x.1
  leadsNowhere : LeadsNowhere x.2

theorem getD_zero_map_append (f : Nat → State) (lost start : Nat) (rest : Array Nat) :
    ((#[lost, start] ++ rest).map f).getD 0 default = f lost := by
  rw [Array.map_append, Array.getD_eq_getD_getElem?, Array.getElem?_append_left (by simp)]
  simp

/-- The state that is made of the group of state `0` is lost if state `0` was. -/
theorem isLost_join (v : Vocabulary) {states : Array State} (h : (states.getD 0 default).IsLost) {d : Division}
    (hd : d.Alone) : ((join v states d).getD 0 default).IsLost := by
  unfold join
  refine Loop.bind_run (p := fun _ => True) (q := fun x : Array State => (x.getD 0 default).IsLost) trivial
    fun place _ => ?_
  show State.IsLost (((#[_, _] ++ _).map _).getD 0 default)
  rw [getD_zero_map_append]
  -- the first of the new states is made of the group of state 0
  refine Loop.bind_run (p := CollectsLost) (q := State.IsLost) (Loop.forIn_array_keeps ?_ ?_) fun x hx =>
    ⟨hx.skipsAll, hx.leadsNowhere⟩
  · exact ⟨skipsAll_replicate _, leadsNowhere_replicate _⟩
  · -- the group has no member but state `0`
    rintro m hm ⟨actions, gotos⟩ ⟨hactions, hgotos⟩
    obtain rfl : m = 0 := by
      rw [hd.group] at hm
      simpa using hm
    refine Loop.bind_run (p := SkipsAll) (Loop.forIn_range_keeps hactions ?_) fun actions' hactions' => ?_
    · rintro token - - as has
      dsimp only
      split
      · exact has
      · exact has.set token (map_shift_of_skips (h.skipsAll token) _)
    refine Loop.bind_run (p := LeadsNowhere) (Loop.forIn_range_keeps hgotos ?_) fun gotos' hgotos' =>
      ⟨hactions', hgotos'⟩
    rintro i - - gs hgs
    dsimp only
    rw [if_pos (by rw [h.leadsNowhere i]; rfl)]
    exact hgs

/-- Passing states by, in `passBy`, leaves the lost state lost. -/
theorem isLost_passBy (v : Vocabulary) (supertypes : List String) (shapes : Array (Array Slot))
    {states : Array State} (h : (states.getD 0 default).IsLost) :
    ((passBy v supertypes shapes states).getD 0 default).IsLost := by
  rw [isLost_getD_zero_iff] at h ⊢
  unfold passBy
  intro s hs
  simp only [Array.getElem?_map, Option.map_eq_some_iff] at hs
  obtain ⟨s, hs, rfl⟩ := hs
  have hlost := h s hs
  refine ⟨fun token a ha => ?_, fun i => ?_⟩
  · -- the actions, of which none leads to a state that could be passed by
    simp only [Array.getD_eq_getD_getElem?, Array.getElem?_map] at ha
    cases htoken : s.actions[token]? with
    | none =>
      rw [htoken] at ha
      cases ha
    | some as =>
      rw [htoken] at ha
      refine map_shift_of_skips (fun b hb => hlost.skipsAll token b ?_) _ a ha
      rwa [Array.getD_eq_getD_getElem?, htoken]
  · simp only [Array.getD_eq_getD_getElem?, Array.getElem?_map]
    have hi := hlost.leadsNowhere i
    rw [Array.getD_eq_getD_getElem?] at hi
    cases hn : s.gotos[i]? with
    | none => rfl
    | some n =>
      rw [hn] at hi
      obtain rfl : n = 0 := hi
      rfl

/-- Emptying the states that nothing leads to, in `emptyUnreached`, leaves the lost state lost. -/
theorem isLost_emptyUnreached {states : Array State} (h : (states.getD 0 default).IsLost) :
    ((emptyUnreached states).getD 0 default).IsLost := by
  rw [isLost_getD_zero_iff] at h ⊢
  unfold emptyUnreached
  refine Loop.bind_run (p := fun _ => True) (q := fun x : Array State => ∀ s, x[0]? = some s → s.IsLost) trivial
    fun reached _ => ?_
  show ∀ s, (Array.mapIdx _ states)[0]? = some s → _
  intro s hs
  rw [Array.getElem?_mapIdx, Option.map_eq_some_iff] at hs
  obtain ⟨s, hs, rfl⟩ := hs
  split
  · exact h s hs
  · exact ⟨State.isLost_default.skipsAll, State.isLost_default.leadsNowhere⟩

/-- The automaton of a grammar has the lost state at `0`. -/
theorem isLost_ofGrammar (g : Grammar) (c : Contention) : ((ofGrammar g c).states.getD 0 default).IsLost := by
  have hcanonical := beginsLost_canonical (ItemTable.ofVocabulary (Vocabulary.ofGrammar g))
    (c.greedy.filterMap (Vocabulary.ofGrammar g).symbol?)
  exact isLost_emptyUnreached (isLost_passBy _ _ _ (isLost_join _ hcanonical.isLost (alone_divide _ _ hcanonical)))

section

variable {a : Automaton} (h : (a.states.getD 0 default).IsLost)
include h

/-- A reader that has lost its way takes a token as something that may stand anywhere, or skips it. -/
theorem mem_actions_lost {token : Nat} {x : Action} (hx : x ∈ a.actions 0 token) : x = .shiftExtra ∨ x = .recover :=
  h.skipsAll token x hx

/-- Nothing leads from the lost state `0` to another one. -/
theorem next_lost (symbol : Nat) : a.next 0 symbol = 0 := by
  unfold next
  split
  · have hlast : ∀ x ∈ (a.actions 0 symbol).getLast?, x = .shiftExtra ∨ x = .recover := fun x hx =>
      mem_actions_lost h (List.mem_of_mem_getLast? hx)
    cases hactions : (a.actions 0 symbol).getLast? with
    | none => rfl
    | some x =>
      rcases hlast x hactions with rfl | rfl
      · rfl
      · rfl
  · exact h.leadsNowhere _

end

end Automaton

end PayloadAtlas.Grammar
