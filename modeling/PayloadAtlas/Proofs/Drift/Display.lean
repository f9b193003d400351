import Mathlib.Data.List.Nodup
import PayloadAtlas.Proofs.Drift
import PayloadAtlas.Text.WordCharacter

/-!
# What the entries of a drift tell

A handler that came or went is entered by its route if no other has the route, and by its full name otherwise;
one that changed by its full name. Nothing keeps the route of one handler from being written like the full name
of another: the path may end in an arrow and a name. That is the only way in which two handlers can have one
entry, so that the entries of a drift are distinct just if it does not happen (`Drift.distinct_between_iff`).
-/

namespace PayloadAtlas

/-- No space is in the method of `s`, and the name of its function is a word. -/
def Shape.Worded (s : Shape) : Prop :=
  ' ' ∉ s.method.toList ∧ s.function.toList.all Text.isWordInner

instance (s : Shape) : Decidable s.Worded := inferInstanceAs (Decidable (_ ∧ _))

namespace Handler

variable {g h : Handler}

theorem toList_fullName (h : Handler) :
    h.fullName.toList = (h.routeName.toList ++ [' ', '→']) ++ ' ' :: h.function.toList := by
  simp [fullName, routeName]

/-- Routes are told apart by `routeName`, if no method holds a space. -/
theorem routeName_eq_iff (hg : ' ' ∉ g.method.toList) (hh : ' ' ∉ h.method.toList) :
    g.routeName = h.routeName ↔ g.method = h.method ∧ g.path = h.path := by
  constructor
  · intro heq
    have hlist : g.method.toList ++ ' ' :: g.path.toList = h.method.toList ++ ' ' :: h.path.toList := by
      simpa [routeName] using congrArg String.toList heq
    obtain ⟨hm, hp⟩ := Shape.append_cons_inj hg hh hlist
    exact ⟨String.toList_inj.mp hm, String.toList_inj.mp hp⟩
  · rintro ⟨hm, hp⟩
    rw [routeName, routeName, hm, hp]

/-- The route of `g` is written like the full name of `h` just if its path ends like that name. -/
theorem routeName_eq_fullName_iff (hg : ' ' ∉ g.method.toList) (hh : ' ' ∉ h.method.toList) :
    g.routeName = h.fullName ↔ g.method = h.method ∧ g.path = h.path ++ " → " ++ h.function := by
  have hfull : h.fullName = (Handler.mk h.method (h.path ++ " → " ++ h.function) h.function).routeName := by
    simp [fullName, routeName, String.append_assoc]
  rw [hfull]
  exact routeName_eq_iff hg hh

/-- Handlers without spaces in method and function are told apart by `fullName`. -/
theorem eq_of_fullName_eq (hg : ' ' ∉ g.method.toList ∧ ' ' ∉ g.function.toList)
    (hh : ' ' ∉ h.method.toList ∧ ' ' ∉ h.function.toList) (heq : g.fullName = h.fullName) : g = h := by
  have hlist := congrArg String.toList heq
  rw [toList_fullName, toList_fullName] at hlist
  -- the function is what follows the last space
  obtain ⟨hroute, hfunction⟩ := Shape.append_cons_inj_right hg.2 hh.2 hlist
  have hroute : g.routeName = h.routeName := String.toList_inj.mp (List.append_cancel_right hroute)
  obtain ⟨hm, hp⟩ := (routeName_eq_iff hg.1 hh.1).mp hroute
  cases g
  cases h
  simp only [mk.injEq]
  exact ⟨hm, hp, String.toList_inj.mp hfunction⟩

end Handler

namespace Drift

/-- Each list of a drift is in order, and no entry is twice in a list or in two lists. -/
structure Distinct (d : Drift) : Prop where
  added : d.added.Pairwise (· < ·)
  removed : d.removed.Pairwise (· < ·)
  changed : d.changed.Pairwise (· < ·)
  added_removed : d.added.Disjoint d.removed
  added_changed : d.added.Disjoint d.changed
  removed_changed : d.removed.Disjoint d.changed

section Handlers

variable (previous current : List Shape) (h : Handler)

/-- The handler `h` is in one of the lists only. -/
def CameOrWent : Prop :=
  Shape.lastOf previous h = none ∧ Shape.lastOf current h ≠ none ∨
    Shape.lastOf previous h ≠ none ∧ Shape.lastOf current h = none

/-- The handler `h` is in both lists, with some token in one signature only. -/
def Changed : Prop :=
  ∃ old new, Shape.lastOf previous h = some old ∧ Shape.lastOf current h = some new ∧
    ∃ token, ¬(token ∈ old.signature ↔ token ∈ new.signature)

/-- The handler `h` is entered by its route. -/
def ByRoute : Prop := CameOrWent previous current h ∧ h.IsAlone (previous ++ current)

/-- The handler `h` is entered by its full name. -/
def ByName : Prop :=
  CameOrWent previous current h ∧ ¬h.IsAlone (previous ++ current) ∨ Changed previous current h

open Classical in
/-- The entry of a handler that has one, by `ByRoute` or else by `ByName`. -/
noncomputable def shown : String := if ByRoute previous current h then h.routeName else h.fullName

end Handlers

variable {previous current : List Shape} {d : Drift} {g h : Handler}

theorem not_changed_of_cameOrWent (hcame : CameOrWent previous current h) : ¬Changed previous current h := by
  rintro ⟨old, new, hold, hnew, -⟩
  rcases hcame with ⟨hnone, -⟩ | ⟨-, hnone⟩
  · rw [hold] at hnone
    cases hnone
  · rw [hnew] at hnone
    cases hnone

theorem not_byName_of_byRoute (hroute : ByRoute previous current h) : ¬ByName previous current h := by
  rintro (⟨-, hshared⟩ | hchanged)
  · exact hshared hroute.2
  · exact not_changed_of_cameOrWent hroute.1 hchanged

/-- What is in order is distinct if nothing is twice in the three lists together. -/
theorem distinct_iff_nodup (hadded : d.added.Pairwise (· ≤ ·)) (hremoved : d.removed.Pairwise (· ≤ ·))
    (hchanged : d.changed.Pairwise (· ≤ ·)) :
    d.Distinct ↔ (d.added ++ d.removed ++ d.changed).Nodup := by
  have hstrict : ∀ {l : List String}, l.Pairwise (· ≤ ·) → (l.Pairwise (· < ·) ↔ l.Nodup) := by
    intro l hl
    constructor
    · exact fun h => h.imp ne_of_lt
    · exact fun h => (hl.and h).imp fun ⟨hle, hne⟩ => lt_of_le_of_ne hle hne
  rw [List.nodup_append', List.nodup_append', List.disjoint_append_left, ← hstrict hadded,
    ← hstrict hremoved, ← hstrict hchanged]
  constructor
  · intro h
    exact ⟨⟨h.added, h.removed, h.added_removed⟩, h.changed, h.added_changed, h.removed_changed⟩
  · rintro ⟨⟨ha, hr, har⟩, hc, hac, hrc⟩
    exact ⟨ha, hr, hc, har, hac, hrc⟩

theorem plain_of_worded {s : Shape} (hs : s.Worded) : s.Plain := by
  refine ⟨hs.1, fun hcolon => ?_⟩
  have hinner : Text.isWordInner ':' := List.all_eq_true.mp hs.2 ':' hcolon
  revert hinner
  decide

theorem space_not_mem_function {s : Shape} (hs : s.Worded) : ' ' ∉ s.function.toList := by
  intro hspace
  have hinner : Text.isWordInner ' ' := List.all_eq_true.mp hs.2 ' ' hspace
  revert hinner
  decide

/-- The three lists together have the entries, as `shown`, of the handlers that came, went or changed. -/
theorem entries_perm (hall : ∀ s ∈ previous ++ current, s.Plain) :
    ∃ hs : List Handler, hs.Nodup ∧ (∀ h, h ∈ hs ↔ ByRoute previous current h ∨ ByName previous current h) ∧
      ((between previous current).added ++ (between previous current).removed ++
        (between previous current).changed).Perm (hs.map (shown previous current)) := by
  obtain ⟨-, came, hcame, hmemcame, hadded⟩ := lists_added hall
  obtain ⟨-, went, hwent, hmemwent, hremoved⟩ := lists_removed hall
  obtain ⟨-, kept, hkept, hmemkept, hchanged⟩ := lists_changed hall
  -- what came or went is entered by its route or by its name, and what changed by its name
  have hentry : ∀ h, CameOrWent previous current h →
      h.entry (previous ++ current) = shown previous current h := by
    intro h hh
    unfold Handler.entry shown
    by_cases halone : h.IsAlone (previous ++ current)
    · rw [if_pos halone, if_pos ⟨hh, halone⟩]
    · rw [if_neg halone, if_neg fun hroute => halone hroute.2]
  have hname : ∀ h, Changed previous current h → h.fullName = shown previous current h := by
    intro h hh
    rw [shown, if_neg fun hroute => not_changed_of_cameOrWent hroute.1 hh]
  refine ⟨came ++ went ++ kept, ?_, ?_, ?_⟩
  · -- no handler is in two of the lists
    rw [List.nodup_append', List.nodup_append', List.disjoint_append_left]
    refine ⟨⟨hcame, hwent, ?_⟩, hkept, ?_, ?_⟩
    · intro h hc hw
      exact ((hmemwent h).mp hw).1 ((hmemcame h).mp hc).1
    · intro h hc hk
      exact not_changed_of_cameOrWent (.inl ((hmemcame h).mp hc)) ((hmemkept h).mp hk)
    · intro h hw hk
      exact not_changed_of_cameOrWent (.inr ((hmemwent h).mp hw)) ((hmemkept h).mp hk)
  · intro h
    have hcases : h ∈ came ++ went ++ kept ↔ CameOrWent previous current h ∨ Changed previous current h := by
      rw [List.mem_append, List.mem_append, hmemcame, hmemwent, hmemkept]
      rfl
    rw [hcases, ByRoute, ByName]
    tauto
  · rw [List.map_append, List.map_append]
    refine (List.Perm.append (hadded.trans (.of_eq ?_)) (hremoved.trans (.of_eq ?_))).append
      (hchanged.trans (.of_eq ?_))
    · exact List.map_congr_left fun h hh => hentry h (.inl ((hmemcame h).mp hh))
    · exact List.map_congr_left fun h hh => hentry h (.inr ((hmemwent h).mp hh))
    · exact List.map_congr_left fun h hh => hname h ((hmemkept h).mp hh)

/-- A handler that has an entry is that of some shape. -/
theorem exists_mem_of_listed (h : ByRoute previous current g ∨ ByName previous current g) :
    ∃ s ∈ previous ++ current, s.handler = g := by
  have hfound : Shape.lastOf previous g ≠ none ∨ Shape.lastOf current g ≠ none := by
    rcases h with ⟨⟨-, hc⟩ | ⟨hp, -⟩, -⟩ | ⟨⟨-, hc⟩ | ⟨hp, -⟩, -⟩ | ⟨old, -, hold, -⟩
    · exact .inr hc
    · exact .inl hp
    · exact .inr hc
    · exact .inl hp
    · exact .inl (by rw [hold]; exact Option.some_ne_none old)
  rcases hfound with hp | hc
  · obtain ⟨s, hs⟩ := Option.ne_none_iff_exists'.mp hp
    exact ⟨s, List.mem_append_left _ (handler_of_lastOf hs).2, (handler_of_lastOf hs).1⟩
  · obtain ⟨s, hs⟩ := Option.ne_none_iff_exists'.mp hc
    exact ⟨s, List.mem_append_right _ (handler_of_lastOf hs).2, (handler_of_lastOf hs).1⟩

/-- Two handlers have one entry only if the route of one is written like the full name of the other. -/
theorem injOn_shown_iff (hall : ∀ s ∈ previous ++ current, s.Worded) :
    (∀ g, (ByRoute previous current g ∨ ByName previous current g) →
        ∀ h, (ByRoute previous current h ∨ ByName previous current h) →
          shown previous current g = shown previous current h → g = h) ↔
      ∀ g h, ByRoute previous current g → ByName previous current h → g.routeName ≠ h.fullName := by
  have hmethod : ∀ {h}, ByRoute previous current h ∨ ByName previous current h →
      ' ' ∉ h.method.toList ∧ ' ' ∉ h.function.toList := by
    intro h hh
    obtain ⟨s, hs, rfl⟩ := exists_mem_of_listed hh
    exact ⟨(hall s hs).1, space_not_mem_function (hall s hs)⟩
  have hroute : ∀ {h}, ByRoute previous current h → shown previous current h = h.routeName :=
    fun hh => if_pos hh
  have hname : ∀ {h}, ByName previous current h → shown previous current h = h.fullName :=
    fun hh => if_neg fun hr => not_byName_of_byRoute hr hh
  constructor
  · -- a route that is written like a name gives its entry to two handlers
    intro hinj g h hg hh heq
    have hgh : g = h := hinj g (.inl hg) h (.inr hh) (by rw [hroute hg, hname hh, heq])
    rw [hgh] at hg
    exact not_byName_of_byRoute hg hh
  · intro hne g hg h hh heq
    rcases hg with hgroute | hgname <;> rcases hh with hhroute | hhname
    · -- the second is alone on the route, and the first has it too
      rw [hroute hgroute, hroute hhroute] at heq
      obtain ⟨hm, hp⟩ :=
        (Handler.routeName_eq_iff (hmethod (.inl hgroute)).1 (hmethod (.inl hhroute)).1).mp heq
      obtain ⟨s, hs, rfl⟩ := exists_mem_of_listed (.inl hgroute)
      have hf : s.function = h.function := hhroute.2 s hs hm hp
      cases h
      exact Handler.mk.injEq .. ▸ ⟨hm, hp, hf⟩
    · rw [hroute hgroute, hname hhname] at heq
      exact absurd heq (hne g h hgroute hhname)
    · rw [hname hgname, hroute hhroute] at heq
      exact absurd heq.symm (hne h g hhroute hgname)
    · rw [hname hgname, hname hhname] at heq
      exact Handler.eq_of_fullName_eq (hmethod (.inr hgname)) (hmethod (.inr hhname)) heq

/-- The entries of `between` are distinct just if no route that is entered is written like a full name that is. -/
theorem distinct_between_iff (hall : ∀ s ∈ previous ++ current, s.Worded) :
    (between previous current).Distinct ↔
      ∀ s ∈ previous ++ current, ∀ t ∈ previous ++ current, s.method = t.method →
        ByRoute previous current s.handler → ByName previous current t.handler →
          s.path ≠ t.path ++ " → " ++ t.function := by
  obtain ⟨hs, hnodup, hmem, hperm⟩ := entries_perm fun s hs => plain_of_worded (hall s hs)
  rw [distinct_iff_nodup (Text.pairwise_sorted _) (Text.pairwise_sorted _) (Text.pairwise_sorted _),
    hperm.nodup_iff, List.nodup_map_iff_inj_on hnodup]
  simp only [hmem]
  rw [injOn_shown_iff hall]
  constructor
  · intro h s hs t ht hm hroute hname hpath
    apply h s.handler t.handler hroute hname
    rw [Handler.routeName_eq_fullName_iff (hall s hs).1 (hall t ht).1]
    exact ⟨hm, hpath⟩
  · intro h g g' hroute hname heq
    obtain ⟨s, hs, rfl⟩ := exists_mem_of_listed (.inl hroute)
    obtain ⟨t, ht, rfl⟩ := exists_mem_of_listed (.inr hname)
    obtain ⟨hm, hpath⟩ := (Handler.routeName_eq_fullName_iff (hall s hs).1 (hall t ht).1).mp heq
    exact h s hs t ht hm hroute hname hpath

theorem distinct_between_renamed :
    (∀ s ∈ earlierShapes ++ laterShapes, s.Worded) ∧ (between earlierShapes laterShapes).Distinct := by
  have hworded : ∀ s ∈ earlierShapes ++ laterShapes, s.Worded := by decide
  have hpath : ∀ s ∈ earlierShapes ++ laterShapes, ∀ t ∈ earlierShapes ++ laterShapes,
      s.path ≠ t.path ++ " → " ++ t.function := by decide
  refine ⟨hworded, (distinct_between_iff hworded).mpr ?_⟩
  intro s hs t ht _ _ _
  exact hpath s hs t ht

/-- Two handlers of one route, and one of a route that is written like the name of the first. -/
def arrowShapes : List Shape :=
  [{ method := "GET", path := "/a", function := "one" }, { method := "GET", path := "/a", function := "two" },
    { method := "GET", path := "/a → one", function := "three" }]

/-- The new route of `three` and the new handler `one` have the same entry. -/
theorem not_distinct_between :
    ¬∀ previous current : List Shape, (∀ s ∈ previous ++ current, s.Worded) →
      (between previous current).Distinct := by
  intro h
  have hworded : ∀ s ∈ ([] : List Shape) ++ arrowShapes, s.Worded := by decide
  have hnodup : (between [] arrowShapes).added.Nodup := (h [] arrowShapes hworded).added.imp ne_of_lt
  rw [between, only, (Text.sorted_perm _).nodup_iff] at hnodup
  exact absurd hnodup (by decide)

end Drift

end PayloadAtlas
