import PayloadAtlas.Proofs.Drift

/-!
# Drift seen from both sides

What a drift says hangs on what each list has for each identity, whatever texts the identities are made of. So
shapes of different identities may change places in a list (`between_eq_of_lookup`), what came in one direction went
in the other (`mirrors_between`), and two lists do not differ if and only if they have shapes of the same signatures
for the same identities (`unchanged_iff`), which is an equivalence.
-/

namespace PayloadAtlas

namespace Drift

variable {previous previous' current current' here there : List Shape} {s t : Shape}

/-- The shapes of two lists are the same, and those of one identity come in the same order. -/
structure Rearranged (shapes shapes' : List Shape) : Prop where
  perm : shapes.Perm shapes'
  order : ∀ identity, shapes.filter (·.identity = identity) = shapes'.filter (·.identity = identity)

/-- The drift `back` says of the way back what `there` says of the way there. -/
structure Mirrors (there back : Drift) : Prop where
  added : back.added = there.removed
  removed : back.removed = there.added
  changed : back.changed.length = there.changed.length

/-- The list `current` does not differ from the earlier list `previous`. -/
def Unchanged (previous current : List Shape) : Prop := (between previous current).isEmpty = true

/-! ## Rearranged lists -/

theorem Rearranged.swap (h : s.identity ≠ t.identity) (rest : List Shape) :
    Rearranged (s :: t :: rest) (t :: s :: rest) where
  perm := .swap t s rest
  order identity := by
    by_cases hs : s.identity = identity
    · have ht : t.identity ≠ identity := fun ht => h (hs.trans ht.symm)
      simp [hs, ht]
    · rw [List.filter_cons_of_neg (by simpa using hs), List.filter_cons, List.filter_cons,
        List.filter_cons_of_neg (by simpa using hs)]

theorem Rearranged.refl (shapes : List Shape) : Rearranged shapes shapes := ⟨.refl shapes, fun _ => rfl⟩

/-- What `lookup` finds for an identity is the last shape of that identity. -/
theorem lookup_eq_getLast? (shapes : List Shape) (identity : String) :
    lookup shapes identity = (shapes.filter (·.identity = identity)).getLast? := by
  rw [lookup, ← List.head?_filter, List.filter_reverse, List.head?_reverse]

/-- What is found for an identity has it. -/
theorem identity_of_lookup {shapes : List Shape} {identity : String} (h : lookup shapes identity = some s) :
    s.identity = identity := by
  rw [lookup] at h
  simpa using List.find?_some h

/-- In rearranged lists `lookup` finds the same for an identity. -/
theorem Rearranged.lookup_eq (h : Rearranged previous previous') (identity : String) :
    lookup previous identity = lookup previous' identity := by
  rw [lookup_eq_getLast?, lookup_eq_getLast?, h.order]

/-- The shapes that count are known, up to their order, by what `lookup` finds for each identity. -/
theorem latest_perm (h : ∀ identity, lookup previous identity = lookup previous' identity) :
    (latest previous).Perm (latest previous') := by
  have hnodup : ∀ shapes, (latest shapes).Nodup := fun shapes =>
    (nodup_latest shapes).imp fun hne heq => hne (congrArg Shape.identity heq)
  refine (List.perm_ext_iff_of_nodup (hnodup previous) (hnodup previous')).mpr fun s => ?_
  rw [mem_latest, mem_latest, h]

/-- By `label`, the order of the shapes does not count. -/
theorem label_perm {all all' : List Shape} (h : all.Perm all') : label all = label all' := by
  funext s
  rw [label, label, isShared, isShared, h.any_eq]

/-- What came hangs on what is found `there`, and not on any order, for the texts are sorted. -/
theorem only_perm {all all' here' there' : List Shape} (hall : all.Perm all') (hhere : here.Perm here')
    (hthere : ∀ identity, lookup there identity = lookup there' identity) :
    only all here there = only all' here' there' := by
  rw [only, only, label_perm hall]
  simp only [hthere]
  exact Text.sorted_eq_of_perm ((hhere.filter _).map _)

/-- A drift hangs on what `lookup` finds for each identity. -/
theorem between_eq_of_lookup (h : ∀ identity, lookup previous identity = lookup previous' identity)
    (h' : ∀ identity, lookup current identity = lookup current' identity) :
    between previous current = between previous' current' := by
  have hbefore := latest_perm h
  have hnow := latest_perm h'
  have hall := hbefore.append hnow
  have hlookup (identity : String) : lookup (latest previous) identity = lookup (latest previous') identity := by
    rw [lookup_latest, lookup_latest, h]
  have hlookup' (identity : String) : lookup (latest current) identity = lookup (latest current') identity := by
    rw [lookup_latest, lookup_latest, h']
  have hchanged : hasChanged (latest previous) = hasChanged (latest previous') := by
    funext s
    rw [hasChanged, hasChanged, hlookup]
  rw [between, between, only_perm hall hnow hlookup, only_perm hall hbefore hlookup', hchanged,
    Text.sorted_eq_of_perm ((hnow.filter _).map _)]

/-! ## The way back -/

/-- Two lists have shapes of different signatures for `identity`. -/
def ChangedAt (previous current : List Shape) (identity : String) : Prop :=
  ∃ old new, lookup previous identity = some old ∧ lookup current identity = some new ∧ old.signature ≠ new.signature

theorem ChangedAt.symm {identity : String} (h : ChangedAt previous current identity) :
    ChangedAt current previous identity := by
  obtain ⟨old, new, hold, hnew, hne⟩ := h
  exact ⟨new, old, hnew, hold, hne.symm⟩

/-- A shape that counts `hasChanged` just if the lists differ at its identity. -/
theorem hasChanged_latest (hs : s ∈ latest current) :
    hasChanged (latest previous) s = true ↔ ChangedAt previous current s.identity := by
  rw [hasChanged, lookup_latest, ChangedAt, mem_latest.mp hs]
  cases lookup previous s.identity <;> simp

/-- The identities of the shapes that have changed are those at which the lists differ. -/
theorem mem_map_changed {identity : String} :
    identity ∈ ((latest current).filter (hasChanged (latest previous))).map Shape.identity ↔
      ChangedAt previous current identity := by
  rw [List.mem_map]
  constructor
  · rintro ⟨s, hs, rfl⟩
    obtain ⟨hmem, hchanged⟩ := List.mem_filter.mp hs
    exact (hasChanged_latest hmem).mp hchanged
  · intro h
    obtain ⟨-, new, -, hnew, -⟩ := id h
    have hidentity := identity_of_lookup hnew
    have hmem : new ∈ latest current := mem_latest.mpr (hidentity ▸ hnew)
    exact ⟨new, List.mem_filter.mpr ⟨hmem, (hasChanged_latest hmem).mpr (hidentity ▸ h)⟩, hidentity⟩

theorem nodup_map_changed (previous current : List Shape) :
    (((latest current).filter (hasChanged (latest previous))).map Shape.identity).Nodup := by
  rw [List.Nodup, List.pairwise_map]
  exact (nodup_latest current).filter _

theorem length_changed (previous current : List Shape) :
    (between previous current).changed.length =
      (((latest current).filter (hasChanged (latest previous))).map Shape.identity).length := by
  rw [between, (Text.sorted_perm _).length_eq, List.length_map, List.length_map]

/-- What was `added` on the way there is `removed` on the way back, and as many have changed. -/
theorem mirrors_between (previous current : List Shape) :
    Mirrors (between previous current) (between current previous) where
  added := only_perm List.perm_append_comm (.refl _) fun _ => rfl
  removed := only_perm List.perm_append_comm (.refl _) fun _ => rfl
  changed := by
    rw [length_changed, length_changed]
    refine List.Perm.length_eq ?_
    refine (List.perm_ext_iff_of_nodup (nodup_map_changed _ _) (nodup_map_changed _ _)).mpr fun identity => ?_
    rw [mem_map_changed, mem_map_changed]
    exact ⟨ChangedAt.symm, ChangedAt.symm⟩

/-! ## No drift -/

/-- Nothing came just if whatever is found `here` is found `there`. -/
theorem only_eq_nil_iff {all : List Shape} :
    only all (latest here) (latest there) = [] ↔
      ∀ identity, lookup here identity ≠ none → lookup there identity ≠ none := by
  constructor
  · intro h identity hhere
    rw [only, Text.sorted_eq_nil_iff, List.map_eq_nil_iff, List.filter_eq_nil_iff] at h
    obtain ⟨s, hs⟩ := Option.ne_none_iff_exists'.mp hhere
    obtain rfl := identity_of_lookup hs
    have hnot := h s (mem_latest.mpr hs)
    rwa [lookup_latest, Option.isNone_iff_eq_none] at hnot
  · intro h
    refine only_eq_nil fun s hs => h _ ?_
    rw [hs]
    exact Option.some_ne_none s

/-- Nothing has changed just if the lists differ at no identity. -/
theorem changed_eq_nil_iff :
    (between previous current).changed = [] ↔ ∀ identity, ¬ChangedAt previous current identity := by
  rw [← List.length_eq_zero_iff, length_changed, List.length_eq_zero_iff, List.eq_nil_iff_forall_not_mem]
  exact forall_congr' fun identity => not_congr mem_map_changed

/-- Two lists do not differ just if they have shapes of the same signatures for the same identities. -/
theorem unchanged_iff : Unchanged previous current ↔
    ∀ identity, (lookup previous identity).map Shape.signature = (lookup current identity).map Shape.signature := by
  have hadded : (between previous current).added = [] ↔ _ := only_eq_nil_iff
  have hremoved : (between previous current).removed = [] ↔ _ := only_eq_nil_iff
  rw [Unchanged, isEmpty, Bool.and_eq_true, Bool.and_eq_true, List.isEmpty_iff, List.isEmpty_iff, List.isEmpty_iff,
    hadded, hremoved, changed_eq_nil_iff, ← forall_and, ← forall_and]
  refine forall_congr' fun identity => ?_
  rw [ChangedAt]
  cases lookup previous identity <;> cases lookup current identity <;> simp

/-- Not to differ is an equivalence, as `unchanged_iff` compares what both lists have. -/
theorem unchanged_equivalence : Equivalence Unchanged where
  refl _ := unchanged_iff.mpr fun _ => rfl
  symm h := unchanged_iff.mpr fun identity => (unchanged_iff.mp h identity).symm
  trans h h' := unchanged_iff.mpr fun identity => (unchanged_iff.mp h identity).trans (unchanged_iff.mp h' identity)

/-- Runs without drift from one to the next leave no drift from the `first` to the `last`. -/
theorem unchanged_of_chain {runs : List (List Shape)} (h : runs.IsChain Unchanged) {first last : List Shape}
    (hfirst : first ∈ runs.head?) (hlast : last ∈ runs.getLast?) : Unchanged first last := by
  induction runs generalizing first with
  | nil => cases hfirst
  | cons run rest ih =>
    cases hfirst
    cases rest with
    | nil =>
      cases hlast
      exact unchanged_equivalence.refl _
    | cons next rest =>
      rw [List.isChain_cons_cons] at h
      rw [List.getLast?_cons_cons] at hlast
      exact unchanged_equivalence.trans h.1 (ih h.2 rfl hlast)

/-- Whatever their shapes hold: drifts do not hang on the order of shapes of different identities, they are mirrored on
the way back, and having none is an equivalence, which goes on over any number of runs. -/
theorem between_rearranged_mirrors_unchanged :
    (∀ previous previous' current current', Rearranged previous previous' → Rearranged current current' →
      between previous current = between previous' current') ∧
    (∀ previous current, Mirrors (between previous current) (between current previous)) ∧
    Equivalence Unchanged ∧
    ∀ runs : List (List Shape), runs.IsChain Unchanged →
      ∀ first ∈ runs.head?, ∀ last ∈ runs.getLast?, Unchanged first last :=
  ⟨fun _ _ _ _ h h' => between_eq_of_lookup h.lookup_eq h'.lookup_eq, mirrors_between, unchanged_equivalence,
    fun _ h _ hfirst _ hlast => unchanged_of_chain h hfirst hlast⟩

/-- Two handlers whose identities are one text, and between them another handler. -/
def clashingShapes : List Shape :=
  [{ method := "GET", path := "/a::b", function := "c", parameters := [{ name := "x" }] },
    { method := "PUT", path := "/a", function := "b" },
    { method := "GET", path := "/a", function := "b::c", parameters := [{ name := "x" }] }]

/-- The other handler comes first. -/
def clashingAgain : List Shape :=
  [{ method := "PUT", path := "/a", function := "b" },
    { method := "GET", path := "/a::b", function := "c", parameters := [{ name := "x" }] },
    { method := "GET", path := "/a", function := "b::c", parameters := [{ name := "x" }] }]

theorem between_mirrors_clashing :
    Rearranged clashingShapes clashingAgain ∧
      between earlierShapes clashingShapes = between earlierShapes clashingAgain ∧
      [clashingShapes, clashingAgain, clashingShapes.drop 1].IsChain Unchanged ∧
      Unchanged clashingShapes (clashingShapes.drop 1) := by
  have hmoved : Rearranged clashingShapes clashingAgain := .swap (by decide) _
  have hfirst : Unchanged clashingShapes clashingAgain := by
    rw [Unchanged]
    decide +kernel
  have hsecond : Unchanged clashingAgain (clashingShapes.drop 1) := by
    rw [Unchanged]
    decide +kernel
  have hchain : [clashingShapes, clashingAgain, clashingShapes.drop 1].IsChain Unchanged :=
    .cons_cons hfirst (.cons_cons hsecond (.singleton _))
  obtain ⟨horder, -, -, hruns⟩ := between_rearranged_mirrors_unchanged
  exact ⟨hmoved, horder _ _ _ _ (.refl earlierShapes) hmoved, hchain, hruns _ hchain _ rfl _ rfl⟩

end Drift

end PayloadAtlas
