import Mathlib.Data.List.Pairwise
import Mathlib.Data.List.TakeWhile
import PayloadAtlas.Proofs.Grammar.Yield

/-!
# Reading nodes by a grammar

`read` finds ways in which a rule yields the first of some nodes: each is one in which it does (`sound_read`). So
that the grammar allows a given tree can be seen by computation (`allows_of_check`).
-/

namespace PayloadAtlas.Grammar

open PayloadAtlas.Python.Piece (withField)

/-! ## Reading nodes by a rule -/

/-- A way of reading the first of some nodes: whether a token is read for them, and the nodes that are left. There may
be several. -/
abbrev Reader := List Tree → List (Bool × List Tree)

/-- All that `read` reads is what the rule `r` yields in the slot. -/
def Reader.Sound (g : Grammar) (slot : Slot) (r : Rule) (read : Reader) : Prop :=
  ∀ ts, ∀ x ∈ read ts, ∃ us, ts = us ++ x.2 ∧ Yields g slot r x.1 us

namespace Reader

/-- The readings that are told apart by what is left, and by whether a token is read. -/
def distinct (xs : List (Bool × List Tree)) : List (Bool × List Tree) :=
  xs.pwFilter fun x y => (x.1, x.2.length) ≠ (y.1, y.2.length)

/-- Reads one node that shows in some way. -/
def node (a : Appearance) : Reader
  | [] => []
  | t :: ts => if Shows a t then [(true, ts)] else []

/-- Reads with `first` and then with `second`, over extra nodes if there is something before and behind them. -/
def join (g : Grammar) (first second : Reader) : Reader := fun ts =>
  distinct ((first ts).flatMap fun (b, rest) =>
    let beyond := rest.dropWhile fun t => decide (IsTrivia g t)
    (second rest).map (fun (c, left) => (b || c, left)) ++
      if b = true ∧ beyond.length < rest.length then (second beyond).filter (·.1) else [])

/-- Reads once or more often, but not more often than `bound` says. -/
def repeated (g : Grammar) (read : Reader) : Nat → Reader
  | 0 => fun _ => []
  | bound + 1 => fun ts => distinct (read ts ++ join g read (repeated g read bound) ts)

/-- The tree without the field, if it is in that one. -/
def withoutField (field : Option String) : Tree → Tree
  | .node t cs => .node { t with field := if t.field = field then none else t.field } cs

/-- Reads nodes that are in `field`, or in a field of their own, as if they were in no other. -/
def inField (read : Reader) (field : Option String) : Reader := fun ts =>
  (read (ts.map (withoutField field))).filterMap fun (b, rest) =>
    let count := ts.length - rest.length
    if ∀ t ∈ ts.take count, field.isSome → t.tag.field.isSome then some (b, ts.drop count) else none

end Reader

/-- The ways in which a rule yields the first of some nodes; `hidden` reads the rules that it refers to. -/
def readWith (g : Grammar) (hidden : Slot → Rule → Reader) : Slot → Rule → Reader
  | _, .blank => fun ts => [(false, ts)]
  | slot, .text s => .node (shownAs slot s false)
  | slot, .pattern p =>
    if slot.1.isSome = true ∨ isHiddenName p = false then .node (shownAs slot p false) else fun ts => [(true, ts)]
  | slot, .ref n =>
    if n ∈ g.inlined then (g.rule? n).elim (fun _ => []) (hidden slot)
    else if slot.1.isSome = true ∨ ¬g.Hides n then .node (shownAs slot n true)
    else
      match g.rule? n with
      | some r => (hidden (none, none) r).inField slot.2
      | none => fun ts => if n ∈ g.layout then [(true, ts)] else []
  | slot, .seq a b => .join g (g.readWith hidden slot a) (g.readWith hidden slot b)
  | slot, .choice a b => fun ts => Reader.distinct (g.readWith hidden slot a ts ++ g.readWith hidden slot b ts)
  | slot, .repeat1 r => fun ts => Reader.repeated g (g.readWith hidden slot r) (ts.length + 1) ts
  | slot, .prec _ _ r | slot, .dynamic _ r => g.readWith hidden slot r
  | slot, .relabel l r => g.readWith hidden (some l, slot.2) r
  | slot, .field f r => g.readWith hidden (slot.1, some f) r

/-- The ways in which a rule yields the first of some nodes, if hidden rules lie in one another at most so deep. -/
def read (g : Grammar) : Nat → Slot → Rule → Reader
  | 0 => g.readWith fun _ _ _ => []
  | depth + 1 => g.readWith (g.read depth)

namespace Reader

variable {g : Grammar} {slot : Slot} {r s : Rule} {read first second : Reader}

theorem mem_of_mem_distinct {xs : List (Bool × List Tree)} {x : Bool × List Tree} (h : x ∈ distinct xs) : x ∈ xs :=
  List.pwFilter_subset xs h

/-- A node that was read is the first one, and shows as it should. -/
theorem exists_of_mem_node {a : Appearance} {ts : List Tree} {b : Bool} {rest : List Tree}
    (h : (b, rest) ∈ node a ts) : ∃ t, ts = [t] ++ rest ∧ b = true ∧ Shows a t := by
  cases ts with
  | nil => cases h
  | cons t ts =>
    rw [node] at h
    split at h
    · next hshows =>
      cases List.mem_singleton.mp h
      exact ⟨t, rfl, rfl, hshows⟩
    · cases h

/-- What two readings read one after the other, and the extra nodes `es` between them. -/
theorem exists_of_mem_join (hfirst : Sound g slot r first) (hsecond : Sound g slot s second) {ts : List Tree}
    {b : Bool} {rest : List Tree} (h : (b, rest) ∈ join g first second ts) :
    ∃ us es vs c d, ts = us ++ es ++ vs ++ rest ∧ b = (c || d) ∧ Yields g slot r c us ∧
      (∀ e ∈ es, c = true ∧ d = true ∧ IsTrivia g e) ∧ Yields g slot s d vs := by
  obtain ⟨⟨c, mid⟩, hmid, hbehind⟩ := List.mem_flatMap.mp (mem_of_mem_distinct h)
  obtain ⟨us, rfl, hus⟩ := hfirst _ _ hmid
  rcases List.mem_append.mp hbehind with h | h
  · -- the second reader goes on where the first one stopped
    obtain ⟨⟨d, left⟩, hleft, heq⟩ := List.mem_map.mp h
    obtain ⟨rfl, rfl⟩ := Prod.mk.inj heq
    obtain ⟨vs, rfl, hvs⟩ := hsecond _ _ hleft
    exact ⟨us, [], vs, c, d, by simp, rfl, hus, fun e he => absurd he List.not_mem_nil, hvs⟩
  · -- the second reader goes on behind extra nodes, if both read something
    split at h
    · next hbeyond =>
      obtain ⟨hmem, hread⟩ := List.mem_filter.mp h
      obtain ⟨vs, hvs, hyields⟩ := hsecond _ _ hmem
      refine ⟨us, mid.takeWhile fun t => decide (IsTrivia g t), vs, c, b, ?_, ?_, hus, ?_, hyields⟩
      · rw [List.append_assoc, List.append_assoc, ← hvs, List.takeWhile_append_dropWhile]
      · rw [hbeyond.1, Bool.true_or]
        exact hread
      · intro e he
        have htrivia := List.mem_takeWhile_imp (p := fun t => decide (IsTrivia g t)) he
        exact ⟨hbeyond.1, hread, of_decide_eq_true htrivia⟩
    · cases h

theorem Sound.join (hfirst : Sound g slot r first) (hsecond : Sound g slot s second) :
    Sound g slot (.seq r s) (join g first second) := by
  intro ts ⟨b, rest⟩ h
  obtain ⟨us, es, vs, c, d, rfl, rfl, hus, hes, hvs⟩ := exists_of_mem_join hfirst hsecond h
  exact ⟨us ++ es ++ vs, rfl, .seq hus hes hvs⟩

/-- What is read once or more often is what the repetition `Yields`. -/
theorem Sound.repeated (hread : Sound g slot r read) (bound : Nat) :
    Sound g slot (.repeat1 r) (repeated g read bound) := by
  induction bound with
  | zero =>
    intro ts ⟨b, rest⟩ h
    cases h
  | succ bound ih =>
    intro ts ⟨b, rest⟩ h
    rcases List.mem_append.mp (mem_of_mem_distinct h) with h | h
    · obtain ⟨us, rfl, hus⟩ := hread _ _ h
      exact ⟨us, rfl, .once hus⟩
    · obtain ⟨us, es, vs, c, d, rfl, rfl, hus, hes, hvs⟩ := exists_of_mem_join hread ih h
      exact ⟨us ++ es ++ vs, rfl, .again hus hes hvs⟩

/-- A node that is taken out of a field and put back is the same, if it was in one. -/
theorem withField_withoutField {field : Option String} {t : Tree}
    (h : field.isSome = true → t.tag.field.isSome = true) : withField field (withoutField field t) = t := by
  cases t with
  | node tag cs =>
    have hfield : (if tag.field = field then none else tag.field).or field = tag.field := by
      split
      · next heq => rw [heq, Option.none_or]
      · next hne =>
        cases field with
        | none => rw [Option.or_none]
        | some f => exact Option.or_of_isSome (h rfl)
    show Tree.node { tag with field := (if tag.field = field then none else tag.field).or field } cs = _
    rw [hfield]

/-- What is read in a field is what a hidden rule `Yields` there. -/
theorem Sound.inField {field : Option String} {n : String} (hread : Sound g (none, none) r read)
    (hinlined : n ∉ g.inlined) (hhidden : g.Hides n) (hrule : g.rule? n = some r) :
    Sound g (none, field) (.ref n) (inField read field) := by
  intro ts ⟨b, rest⟩ h
  obtain ⟨⟨c, left⟩, hleft, hsome⟩ := List.mem_filterMap.mp h
  obtain ⟨us, hus, hyields⟩ := hread _ _ hleft
  dsimp only at hsome hus hyields
  split at hsome
  · next hfields =>
    obtain ⟨rfl, rfl⟩ := Prod.mk.inj (Option.some.inj hsome)
    -- what was read is the first of the nodes, with their fields taken away
    have hcount : ts.length - left.length = us.length := by
      have hlength := congrArg List.length hus
      rw [List.length_map, List.length_append] at hlength
      omega
    rw [hcount] at hfields ⊢
    have htake : us = (ts.take us.length).map (withoutField field) := by
      rw [List.map_take, hus, List.take_left]
    have hwith : us.map (withField field) = ts.take us.length := by
      conv_lhs => rw [htake]
      rw [List.map_map]
      exact (List.map_congr_left fun t ht => withField_withoutField (hfields t ht)).trans (List.map_id' _)
    refine ⟨us.map (withField field), ?_, .hidden hinlined hhidden hrule hyields⟩
    rw [hwith, List.take_append_drop]
  · cases hsome

end Reader

section Leaves

variable {g : Grammar} {hidden : Slot → Rule → Reader}

/-- A pattern is a node of its own if it has a label, or a name that shows, and nothing otherwise. -/
theorem sound_readWith_pattern (slot : Slot) (p : String) :
    Reader.Sound g slot (.pattern p) (g.readWith hidden slot (.pattern p)) := by
  intro ts ⟨b, rest⟩ h
  rw [readWith] at h
  split at h
  · next hshown =>
    obtain ⟨t, rfl, rfl, hshows⟩ := Reader.exists_of_mem_node h
    exact ⟨[t], rfl, .pattern hshown hshows⟩
  · next hnot =>
    cases List.mem_singleton.mp h
    obtain ⟨label, field⟩ := slot
    simp only [not_or, Bool.not_eq_true, Bool.not_eq_false, Option.isSome_eq_false_iff, Option.isNone_iff_eq_none]
      at hnot
    obtain ⟨rfl, hname⟩ := hnot
    exact ⟨[], rfl, .hiddenPattern hname⟩

/-- A rule that is named is put in place, a node of its own, or hidden. -/
theorem sound_readWith_ref (hhidden : ∀ slot r, Reader.Sound g slot r (hidden slot r)) (slot : Slot) (n : String) :
    Reader.Sound g slot (.ref n) (g.readWith hidden slot (.ref n)) := by
  intro ts ⟨b, rest⟩ h
  rw [readWith] at h
  split at h
  · next hinlined =>
    cases hrule : g.rule? n with
    | none =>
      rw [hrule] at h
      cases h
    | some r =>
      rw [hrule] at h
      obtain ⟨us, rfl, hus⟩ := hhidden slot r _ _ h
      exact ⟨us, rfl, .inlined hinlined hrule hus⟩
  · next hinlined =>
    split at h
    · next hshown =>
      obtain ⟨t, rfl, rfl, hshows⟩ := Reader.exists_of_mem_node h
      exact ⟨[t], rfl, .node hinlined hshown hshows⟩
    · next hnot =>
      obtain ⟨label, field⟩ := slot
      simp only [not_or, not_not, Bool.not_eq_true, Option.isSome_eq_false_iff, Option.isNone_iff_eq_none] at hnot
      obtain ⟨rfl, hhides⟩ := hnot
      cases hrule : g.rule? n with
      | some r =>
        rw [hrule] at h
        exact (hhidden _ r).inField hinlined hhides hrule _ _ h
      | none =>
        -- a name without a rule is one of the layout, which has no nodes
        rw [hrule] at h
        dsimp only at h
        split at h
        · next hlayout =>
          cases List.mem_singleton.mp h
          exact ⟨[], rfl, .layout hinlined hhides hrule hlayout⟩
        · cases h

end Leaves

/-- What `readWith` reads is what the rule yields, if it is so for the `hidden` rules. -/
theorem sound_readWith {g : Grammar} {hidden : Slot → Rule → Reader}
    (hhidden : ∀ slot r, Reader.Sound g slot r (hidden slot r)) (slot : Slot) (r : Rule) :
    Reader.Sound g slot r (g.readWith hidden slot r) := by
  induction r generalizing slot with
  | blank =>
    intro ts ⟨b, rest⟩ h
    cases List.mem_singleton.mp h
    exact ⟨[], rfl, .blank⟩
  | text s =>
    intro ts ⟨b, rest⟩ h
    obtain ⟨t, rfl, rfl, hshows⟩ := Reader.exists_of_mem_node h
    exact ⟨[t], rfl, .text hshows⟩
  | pattern p => exact sound_readWith_pattern slot p
  | ref n => exact sound_readWith_ref hhidden slot n
  | seq a b iha ihb => exact (iha slot).join (ihb slot)
  | choice a b iha ihb =>
    intro ts ⟨c, rest⟩ h
    rcases List.mem_append.mp (Reader.mem_of_mem_distinct h) with h | h
    · obtain ⟨us, rfl, hus⟩ := iha slot _ _ h
      exact ⟨us, rfl, .one hus⟩
    · obtain ⟨us, rfl, hus⟩ := ihb slot _ _ h
      exact ⟨us, rfl, .other hus⟩
  | repeat1 r ih =>
    intro ts ⟨b, rest⟩ h
    exact (ih slot).repeated (ts.length + 1) _ _ h
  | prec level side r ih =>
    intro ts ⟨b, rest⟩ h
    obtain ⟨us, rfl, hus⟩ := ih slot _ _ h
    exact ⟨us, rfl, .prec hus⟩
  | dynamic weight r ih =>
    intro ts ⟨b, rest⟩ h
    obtain ⟨us, rfl, hus⟩ := ih slot _ _ h
    exact ⟨us, rfl, .dynamic hus⟩
  | relabel l r ih =>
    intro ts ⟨b, rest⟩ h
    obtain ⟨us, rfl, hus⟩ := ih _ _ _ h
    exact ⟨us, rfl, .relabel hus⟩
  | field f r ih =>
    intro ts ⟨b, rest⟩ h
    obtain ⟨us, rfl, hus⟩ := ih _ _ _ h
    exact ⟨us, rfl, .field hus⟩

/-- What `read` reads is what the rule yields. -/
theorem sound_read (g : Grammar) (depth : Nat) (slot : Slot) (r : Rule) :
    Reader.Sound g slot r (g.read depth slot r) := by
  induction depth generalizing slot r with
  | zero =>
    refine sound_readWith (fun _ _ => ?_) slot r
    intro ts ⟨b, rest⟩ h
    cases h
  | succ depth ih => exact sound_readWith ih slot r

/-- Whether a rule for nodes of its kind is found to yield the children of `n`. -/
def check (g : Grammar) (depth : Nat) (n : Tree) : Bool :=
  !n.tag.named || (g.bodies n.kind).any fun r => (g.read depth (none, none) r n.children).any fun x => x.2.isEmpty

/-- A node that passes the `check` conforms to the grammar. -/
theorem conforms_of_check {g : Grammar} {depth : Nat} {n : Tree} (h : g.check depth n = true) : g.Conforms n := by
  intro hnamed
  unfold check at h
  rw [hnamed, Bool.not_true, Bool.false_or, List.any_eq_true] at h
  obtain ⟨r, hr, hread⟩ := h
  obtain ⟨⟨b, rest⟩, hmem, hempty⟩ := List.any_eq_true.mp hread
  obtain ⟨us, hus, hyields⟩ := g.sound_read depth _ r _ _ hmem
  obtain rfl := List.isEmpty_iff.mp hempty
  rw [List.append_nil] at hus
  exact ⟨r, hr, b, hus ▸ hyields⟩

/-- A tree whose nodes all pass the `check` is allowed. -/
theorem allows_of_check {g : Grammar} {depth : Nat} {t : Tree} (h : ∀ n ∈ t.nodes, g.check depth n = true) :
    g.Allows t :=
  fun n hn => conforms_of_check (h n hn)

end PayloadAtlas.Grammar
