import PayloadAtlas.Drift
import PayloadAtlas.Proofs.Shape.Identity

/-!
# What a drift lists

A list of shapes says of each handler what its last shape says (`Shape.lastOf`). A drift compares two such
lists through the texts of identities. For plain shapes it lists just the handlers it should: each handler
that came, went or changed has one entry, and each list is in order (`tells_between`).

Matching is by `latest`, which keeps the last shape of each identity. The facts about it are those of a map:
what it holds (`mem_latest`), that it holds each identity once (`nodup_latest`), and what is found in it
(`lookup_latest`).
-/

namespace PayloadAtlas

/-! ## The handlers of a list -/

/-- The shape that a list has for the handler `h`: the last one. -/
def Shape.lastOf (shapes : List Shape) (h : Handler) : Option Shape :=
  shapes.findRev? (·.handler = h)

namespace Handler

/-- The name of the route of `h`: its method and path. -/
def routeName (h : Handler) : String := h.method ++ " " ++ h.path

/-- The name of the route, with the handler's own behind `→`. -/
def fullName (h : Handler) : String := h.method ++ " " ++ h.path ++ " → " ++ h.function

/-- No other function handles the route of `h` among some `shapes`. -/
def IsAlone (shapes : List Shape) (h : Handler) : Prop :=
  ∀ s ∈ shapes, s.method = h.method → s.path = h.path → s.function = h.function

instance (shapes : List Shape) (h : Handler) : Decidable (h.IsAlone shapes) :=
  inferInstanceAs (Decidable (∀ s ∈ shapes, _))

/-- How a handler is entered that came or went: by `routeName` if it is alone on its route, else by `fullName`. -/
def entry (shapes : List Shape) (h : Handler) : String :=
  if h.IsAlone shapes then h.routeName else h.fullName

end Handler

namespace Drift

/-- The texts `entries` are in order, and there is one for each handler that `who` holds of, the one that `name`
gives. -/
def Lists (entries : List String) (who : Handler → Prop) (name : Handler → String) : Prop :=
  entries.Pairwise (· ≤ ·) ∧
    ∃ hs : List Handler, hs.Nodup ∧ (∀ h, h ∈ hs ↔ who h) ∧ entries.Perm (hs.map name)

/-- What a drift has to say about the lists `previous` and `current`. -/
structure Tells (previous current : List Shape) (d : Drift) : Prop where
  /-- The handlers that only the later list has. -/
  added : Lists d.added
    (fun h => Shape.lastOf previous h = none ∧ Shape.lastOf current h ≠ none)
    (Handler.entry (previous ++ current))
  /-- The handlers that only the earlier list has. -/
  removed : Lists d.removed
    (fun h => Shape.lastOf previous h ≠ none ∧ Shape.lastOf current h = none)
    (Handler.entry (previous ++ current))
  /-- The handlers of both lists with some token in one signature only. -/
  changed : Lists d.changed
    (fun h => ∃ old new, Shape.lastOf previous h = some old ∧ Shape.lastOf current h = some new ∧
      ∃ token, ¬(token ∈ old.signature ↔ token ∈ new.signature))
    Handler.fullName

variable {shapes previous current : List Shape} {s : Shape}

/-! ## The shapes that count -/

theorem lookup_eq_findRev? (shapes : List Shape) (identity : String) :
    lookup shapes identity = shapes.findRev? (·.identity = identity) := by
  rw [lookup, List.findRev?_eq_find?_reverse]

/-- A later shape of the same identity goes before `s`. -/
theorem lookup_cons (s : Shape) (rest : List Shape) (identity : String) :
    lookup (s :: rest) identity =
      (lookup rest identity).or (if s.identity = identity then some s else none) := by
  simp only [lookup, List.reverse_cons, List.find?_append, List.find?_singleton,
    decide_eq_true_eq]

theorem lookup_eq_none_iff {identity : String} :
    lookup shapes identity = none ↔ ∀ s ∈ shapes, s.identity ≠ identity := by
  simp [lookup]

/-- The shapes that count, by `latest`, are among all. -/
theorem mem_of_mem_latest : s ∈ latest shapes → s ∈ shapes := by
  induction shapes with
  | nil => simp [latest]
  | cons a rest ih =>
    intro h
    rw [latest] at h
    split at h
    · exact List.mem_cons_of_mem a (ih h)
    · rcases List.mem_cons.mp h with rfl | h
      · exact List.mem_cons_self
      · exact List.mem_cons_of_mem a (ih h)

/-- Leaving out earlier shapes of an identity, as `latest` does, does not change what is found. -/
theorem lookup_latest (shapes : List Shape) (identity : String) :
    lookup (latest shapes) identity = lookup shapes identity := by
  induction shapes with
  | nil => rfl
  | cons a rest ih =>
    rw [latest, lookup_cons]
    split
    · next hany =>
      obtain ⟨b, hb, hba⟩ := List.any_eq_true.mp hany
      have hba : b.identity = a.identity := of_decide_eq_true hba
      by_cases ha : a.identity = identity
      · have hfound : lookup rest identity ≠ none := fun h =>
          lookup_eq_none_iff.mp h b hb (hba.trans ha)
        obtain ⟨t, ht⟩ := Option.ne_none_iff_exists'.mp hfound
        rw [ih, ht, Option.some_or]
      · rw [ih, if_neg ha, Option.or_none]
    · rw [lookup_cons, ih]

/-- A shape counts just if it is the one that `lookup` finds for its own identity. -/
theorem mem_latest : s ∈ latest shapes ↔ lookup shapes s.identity = some s := by
  constructor
  · intro h
    rw [← lookup_latest]
    induction shapes with
    | nil => simp [latest] at h
    | cons a rest ih =>
      rw [latest] at h ⊢
      split at h
      · next hany => rw [if_pos hany]; exact ih h
      · next hany =>
        rw [if_neg hany, lookup_cons]
        rcases List.mem_cons.mp h with rfl | h
        · have hnone : lookup (latest rest) s.identity = none := by
            rw [lookup_latest, lookup_eq_none_iff]
            intro t ht htid
            exact hany (List.any_eq_true.mpr ⟨t, ht, decide_eq_true htid⟩)
          rw [hnone, if_pos rfl, Option.none_or]
        · rw [ih h, Option.some_or]
  · intro h
    rw [← lookup_latest, lookup_eq_findRev?, List.findRev?_eq_find?_reverse] at h
    exact List.mem_reverse.mp (List.mem_of_find?_eq_some h)

/-- Of the shapes that count each has an `identity` of its own. -/
theorem nodup_latest (shapes : List Shape) :
    (latest shapes).Pairwise (·.identity ≠ ·.identity) := by
  induction shapes with
  | nil => exact List.Pairwise.nil
  | cons a rest ih =>
    rw [latest]
    split
    · exact ih
    · next hany =>
      refine List.pairwise_cons.mpr ⟨?_, ih⟩
      intro t ht hat
      exact hany (List.any_eq_true.mpr ⟨t, mem_of_mem_latest ht, decide_eq_true hat.symm⟩)

/-! ## Plain shapes -/

/-- Among plain shapes the identity of `s` finds what its handler finds. -/
theorem lookup_eq_lastOf (hall : ∀ t ∈ shapes, t.Plain) (hs : s.Plain) :
    lookup shapes s.identity = Shape.lastOf shapes s.handler := by
  rw [lookup_eq_findRev?, Shape.lastOf]
  induction shapes with
  | nil => rfl
  | cons a rest ih =>
    have ha : (a.identity = s.identity) = (a.handler = s.handler) :=
      propext (Shape.identity_eq_iff (hall a List.mem_cons_self) hs)
    have hrest := ih fun t ht => hall t (List.mem_cons_of_mem a ht)
    simp only [List.findRev?, hrest, ha]

theorem handler_of_lastOf {h : Handler} (hs : Shape.lastOf shapes h = some s) :
    s.handler = h ∧ s ∈ shapes := by
  rw [Shape.lastOf, List.findRev?_eq_find?_reverse] at hs
  have hh : s.handler = h := by simpa using List.find?_some hs
  exact ⟨hh, List.mem_reverse.mp (List.mem_of_find?_eq_some hs)⟩

/-- The shapes that count are the last ones of their handlers. -/
theorem mem_latest_iff (hall : ∀ t ∈ shapes, t.Plain) :
    s ∈ latest shapes ↔ Shape.lastOf shapes s.handler = some s := by
  constructor
  · intro h
    rw [← lookup_eq_lastOf hall (hall s (mem_of_mem_latest h))]
    exact mem_latest.mp h
  · intro h
    rw [mem_latest, lookup_eq_lastOf hall (hall s (handler_of_lastOf h).2)]
    exact h

theorem exists_mem_latest (hall : ∀ t ∈ shapes, t.Plain) (hs : s ∈ shapes) :
    ∃ t ∈ latest shapes, t.handler = s.handler := by
  have hfound : Shape.lastOf shapes s.handler ≠ none := by
    rw [← lookup_eq_lastOf hall (hall s hs)]
    exact fun h => lookup_eq_none_iff.mp h s hs rfl
  obtain ⟨t, ht⟩ := Option.ne_none_iff_exists'.mp hfound
  have hth : t.handler = s.handler := (handler_of_lastOf ht).1
  exact ⟨t, (mem_latest_iff hall).mpr (by rw [hth]; exact ht), hth⟩

/-! ## Lists of entries -/

/-- The names of those shapes that count and that `pick` picks, in order, list the handlers that are meant. -/
theorem lists_latest (hall : ∀ t ∈ shapes, t.Plain) {pick : Shape → Bool} {name : Shape → String}
    {who : Handler → Prop} {entry : Handler → String}
    (hpick : ∀ s ∈ latest shapes, pick s = true ↔ who s.handler)
    (hwho : ∀ h, who h → Shape.lastOf shapes h ≠ none)
    (hname : ∀ s ∈ latest shapes, name s = entry s.handler) :
    Lists (Text.sorted (((latest shapes).filter pick).map name)) who entry := by
  refine ⟨Text.pairwise_sorted _, ((latest shapes).filter pick).map Shape.handler, ?_, ?_, ?_⟩
  · -- of the shapes with one identity, and so of those with one handler, one counts
    rw [List.Nodup, List.pairwise_map]
    refine ((nodup_latest shapes).filter pick).imp_of_mem ?_
    intro s t hs ht hne hst
    have hs := hall s (mem_of_mem_latest (List.mem_filter.mp hs).1)
    have ht := hall t (mem_of_mem_latest (List.mem_filter.mp ht).1)
    exact hne ((Shape.identity_eq_iff hs ht).mpr hst)
  · -- the handlers that are meant are those of the shapes that are picked
    intro h
    rw [List.mem_map]
    constructor
    · rintro ⟨s, hs, rfl⟩
      obtain ⟨hmem, hp⟩ := List.mem_filter.mp hs
      exact (hpick s hmem).mp hp
    · intro hh
      obtain ⟨s, hs⟩ := Option.ne_none_iff_exists'.mp (hwho h hh)
      have hsh : s.handler = h := (handler_of_lastOf hs).1
      have hmem : s ∈ latest shapes := (mem_latest_iff hall).mpr (by rw [hsh]; exact hs)
      exact ⟨s, List.mem_filter.mpr ⟨hmem, (hpick s hmem).mpr (by rw [hsh]; exact hh)⟩, hsh⟩
  · rw [List.map_map]
    refine (Text.sorted_perm _).trans (List.Perm.of_eq (List.map_congr_left ?_))
    intro s hs
    exact hname s (List.mem_filter.mp hs).1

/-- Whether a route `isShared` is a matter of the handlers of both lists, whether or not their shapes count. -/
theorem isShared_iff (hall : ∀ t ∈ previous ++ current, t.Plain) (hs : s.Plain) :
    isShared (latest previous ++ latest current) s = true ↔
      ¬ s.handler.IsAlone (previous ++ current) := by
  have hp : ∀ t ∈ previous, t.Plain := fun t ht => hall t (List.mem_append_left _ ht)
  have hc : ∀ t ∈ current, t.Plain := fun t ht => hall t (List.mem_append_right _ ht)
  have hsub : ∀ t ∈ latest previous ++ latest current, t ∈ previous ++ current := by
    intro t ht
    rcases List.mem_append.mp ht with ht | ht
    · exact List.mem_append_left _ (mem_of_mem_latest ht)
    · exact List.mem_append_right _ (mem_of_mem_latest ht)
  simp only [isShared, List.any_eq_true, Bool.and_eq_true, decide_eq_true_eq, Handler.IsAlone,
    Shape.handler, not_forall]
  constructor
  · rintro ⟨t, ht, hroute, hne⟩
    obtain ⟨hm, hpath⟩ := (Shape.routeLabel_eq_iff (hall t (hsub t ht)) hs).mp hroute
    exact ⟨t, hsub t ht, hm, hpath, hne⟩
  · rintro ⟨t, ht, hm, hpath, hne⟩
    -- a shape that does not count has another one of its handler that does
    have hkept : ∃ u ∈ latest previous ++ latest current, u.handler = t.handler := by
      rcases List.mem_append.mp ht with ht | ht
      · obtain ⟨u, hu, hut⟩ := exists_mem_latest hp ht
        exact ⟨u, List.mem_append_left _ hu, hut⟩
      · obtain ⟨u, hu, hut⟩ := exists_mem_latest hc ht
        exact ⟨u, List.mem_append_right _ hu, hut⟩
    obtain ⟨u, hu, hut⟩ := hkept
    simp only [Shape.handler, Handler.mk.injEq] at hut
    obtain ⟨hum, hup, huf⟩ := hut
    refine ⟨u, hu, ?_, by rw [huf]; exact hne⟩
    rw [Shape.routeLabel_eq_iff (hall u (hsub u hu)) hs]
    exact ⟨hum.trans hm, hup.trans hpath⟩

/-- The label of a shape that came or went is the `entry` of its handler. -/
theorem label_eq_entry (hall : ∀ t ∈ previous ++ current, t.Plain) (hs : s.Plain) :
    label (latest previous ++ latest current) s = s.handler.entry (previous ++ current) := by
  unfold label Handler.entry
  by_cases h : s.handler.IsAlone (previous ++ current)
  · rw [if_neg (fun hshared => (isShared_iff hall hs).mp hshared h), if_pos h]
    rfl
  · rw [if_pos ((isShared_iff hall hs).mpr h), if_neg h]
    rfl

/-- What came, or went: the shapes of the list `here` whose handler is not `there`. -/
theorem lists_only {all here there : List Shape} (hhere : ∀ t ∈ here, t.Plain)
    (hthere : ∀ t ∈ there, t.Plain) {entry : Handler → String}
    (hname : ∀ s ∈ latest here, label all s = entry s.handler) :
    Lists (only all (latest here) (latest there))
      (fun h => Shape.lastOf there h = none ∧ Shape.lastOf here h ≠ none) entry := by
  refine lists_latest hhere ?_ (fun h hh => hh.2) hname
  intro s hs
  have hplain := hhere s (mem_of_mem_latest hs)
  have hfound : Shape.lastOf here s.handler ≠ none := by
    rw [(mem_latest_iff hhere).mp hs]
    exact Option.some_ne_none s
  rw [lookup_latest, lookup_eq_lastOf hthere hplain, Option.isNone_iff_eq_none]
  exact ⟨fun h => ⟨h, hfound⟩, fun h => h.1⟩

/-- A shape `hasChanged` just if some token is in the `signature` of one of the last shapes of its handler only. -/
theorem hasChanged_iff (hprevious : ∀ t ∈ previous, t.Plain) (hcurrent : ∀ t ∈ current, t.Plain)
    (hs : s ∈ latest current) :
    hasChanged (latest previous) s = true ↔
      ∃ old new, Shape.lastOf previous s.handler = some old ∧
        Shape.lastOf current s.handler = some new ∧
        ∃ token, ¬(token ∈ old.signature ↔ token ∈ new.signature) := by
  have hnew : Shape.lastOf current s.handler = some s := (mem_latest_iff hcurrent).mp hs
  have hplain := hcurrent s (mem_of_mem_latest hs)
  rw [hasChanged, lookup_latest, lookup_eq_lastOf hprevious hplain, hnew]
  cases Shape.lastOf previous s.handler with
  | none => simp
  | some old =>
    rw [decide_eq_true_eq, Ne, Shape.signature_eq_iff, not_forall]
    constructor
    · intro h
      exact ⟨old, s, rfl, rfl, h⟩
    · rintro ⟨old', new', ho, hn, h⟩
      rw [Option.some.inj ho, Option.some.inj hn]
      exact h

section Between

variable (hall : ∀ s ∈ previous ++ current, s.Plain)
include hall

theorem lists_added : Lists (between previous current).added
    (fun h => Shape.lastOf previous h = none ∧ Shape.lastOf current h ≠ none)
    (Handler.entry (previous ++ current)) := by
  have hprevious : ∀ t ∈ previous, t.Plain := fun t ht => hall t (List.mem_append_left _ ht)
  have hcurrent : ∀ t ∈ current, t.Plain := fun t ht => hall t (List.mem_append_right _ ht)
  apply lists_only hcurrent hprevious
  intro s hs
  exact label_eq_entry hall (hcurrent s (mem_of_mem_latest hs))

theorem lists_removed : Lists (between previous current).removed
    (fun h => Shape.lastOf previous h ≠ none ∧ Shape.lastOf current h = none)
    (Handler.entry (previous ++ current)) := by
  have hprevious : ∀ t ∈ previous, t.Plain := fun t ht => hall t (List.mem_append_left _ ht)
  have hcurrent : ∀ t ∈ current, t.Plain := fun t ht => hall t (List.mem_append_right _ ht)
  have hname : ∀ s ∈ latest previous, label (latest previous ++ latest current) s =
      s.handler.entry (previous ++ current) := by
    intro s hs
    exact label_eq_entry hall (hprevious s (mem_of_mem_latest hs))
  obtain ⟨hsorted, hs, hnodup, hmem, hperm⟩ := lists_only hprevious hcurrent hname
  exact ⟨hsorted, hs, hnodup, fun h => (hmem h).trans and_comm, hperm⟩

theorem lists_changed : Lists (between previous current).changed
    (fun h => ∃ old new, Shape.lastOf previous h = some old ∧ Shape.lastOf current h = some new ∧
      ∃ token, ¬(token ∈ old.signature ↔ token ∈ new.signature))
    Handler.fullName := by
  have hprevious : ∀ t ∈ previous, t.Plain := fun t ht => hall t (List.mem_append_left _ ht)
  have hcurrent : ∀ t ∈ current, t.Plain := fun t ht => hall t (List.mem_append_right _ ht)
  refine lists_latest hcurrent (fun s hs => hasChanged_iff hprevious hcurrent hs) ?_ ?_
  · rintro h ⟨old, new, -, hnew, -⟩ hnone
    rw [hnone] at hnew
    exact Option.some_ne_none new hnew.symm
  · intro s _
    rfl

end Between

/-- Of plain shapes, `between` lists each handler that came, went or changed, and lists it once. -/
theorem tells_between (hall : ∀ s ∈ previous ++ current, s.Plain) :
    Tells previous current (between previous current) :=
  ⟨lists_added hall, lists_removed hall, lists_changed hall⟩

/-- Two shapes, of which the first is renamed and the second changed in `laterShapes`. -/
def earlierShapes : List Shape :=
  [{ method := "GET", path := "/a", function := "one" },
    { method := "PUT", path := "/b", function := "kept", parameters := [{ name := "x" }] }]

/-- The handler of `/b` is given twice; what it says first does not count. -/
def laterShapes : List Shape :=
  [{ method := "GET", path := "/a", function := "two" },
    { method := "PUT", path := "/b", function := "kept", parameters := [{ name := "x" }] },
    { method := "PUT", path := "/b", function := "kept", parameters := [{ name := "y" }] }]

theorem tells_between_renamed :
    (∀ s ∈ earlierShapes ++ laterShapes, s.Plain) ∧
      Tells earlierShapes laterShapes ⟨["GET /a → two"], ["GET /a → one"], ["PUT /b → kept"]⟩ := by
  have hplain : ∀ s ∈ earlierShapes ++ laterShapes, s.Plain := by decide
  have hbetween : between earlierShapes laterShapes =
      ⟨["GET /a → two"], ["GET /a → one"], ["PUT /b → kept"]⟩ := by
    decide +kernel
  exact ⟨hplain, hbetween ▸ tells_between hplain⟩

/-! ## Lists that say the same -/

/-- Two shapes have one identity and say the same about their parameters. -/
def Alike (s t : Shape) : Prop := s.identity = t.identity ∧ s.signature = t.signature

/-- In lists that are alike, shape by shape, an identity finds shapes that are alike. -/
theorem lookup_alike (h : List.Forall₂ Alike previous current) (identity : String) :
    Option.Rel Alike (lookup previous identity) (lookup current identity) := by
  induction h with
  | nil => exact .none
  | @cons s t previous current hst _ ih =>
    rw [lookup_cons, lookup_cons, hst.1]
    generalize lookup previous identity = old at ih ⊢
    generalize lookup current identity = new at ih ⊢
    cases ih with
    | some hab => exact .some hab
    | none =>
      rw [Option.none_or, Option.none_or]
      split
      · exact .some hst
      · exact .none

/-- Nothing came if whatever is found `here` is found `there`. -/
theorem only_eq_nil {all here there : List Shape}
    (h : ∀ s, lookup here s.identity = some s → lookup there s.identity ≠ none) :
    only all (latest here) (latest there) = [] := by
  have hnone : (latest here).filter (fun s => (lookup (latest there) s.identity).isNone) = [] := by
    rw [List.filter_eq_nil_iff]
    intro s hs
    rw [lookup_latest, Option.isNone_iff_eq_none]
    exact h s (mem_latest.mp hs)
  rw [only, hnone, List.map_nil, Text.sorted, List.mergeSort_nil]

/-- Lists that are `Alike`, shape by shape, do not differ. -/
theorem between_alike (h : List.Forall₂ Alike previous current) : between previous current = {} := by
  have hrel := lookup_alike h
  have hadded : only (latest previous ++ latest current) (latest current) (latest previous) = [] := by
    apply only_eq_nil
    intro s hs hnone
    have hs' := hrel s.identity
    rw [hs, hnone] at hs'
    cases hs'
  have hremoved : only (latest previous ++ latest current) (latest previous) (latest current) = [] := by
    apply only_eq_nil
    intro s hs hnone
    have hs' := hrel s.identity
    rw [hs, hnone] at hs'
    cases hs'
  -- and alike shapes have the same signature, so none has changed
  have hchanged : (latest current).filter (hasChanged (latest previous)) = [] := by
    rw [List.filter_eq_nil_iff]
    intro s hs
    have hs' := hrel s.identity
    rw [mem_latest.mp hs] at hs'
    rw [hasChanged, lookup_latest]
    cases hold : lookup previous s.identity with
    | none => simp
    | some old =>
      rw [hold] at hs'
      cases hs' with
      | some halike => simp [halike.2]
  rw [between, hadded, hremoved, hchanged, List.map_nil, Text.sorted, List.mergeSort_nil]

end Drift

end PayloadAtlas
