import Mathlib.Data.List.Basic
import PayloadAtlas.Proofs.Python.Extraction

/-!
# Which argument gives the path

A decorator may give the path of its route by a keyword, or else by its first positional argument: that is
`RouteDecorator.statedPath`. The path that is read is this one unless a literal that is given by position comes
after all keywords that give the path (`Overrides`), or a continued line or a splat before the first positional
argument is taken for it (`Hides`); and in these cases it is not (`RouteDecorator.path_eq_statedPath_iff`).
Whether a splat `*xs` counts as a positional argument itself is left open.
-/

namespace PayloadAtlas.Python

open PayloadAtlas.Text

namespace RouteDecorator

/-! ## What arguments say of the path -/

/-- The text of a keyword `path` or `route`, if the argument is one. -/
def namedText? (s : Source) (a : Tree) : Option String :=
  if a.kind = "keyword_argument" ∧ (a.child? "name").map (textOf s) ∈ [some "path", some "route"] then
    (a.child? "value").bind (Literal.ofTree? s)
  else none

/-- Whether an argument stands in the place of a positional one for `pathOf`: it is no keyword, comment or splat of
names. -/
def isTaken (a : Tree) : Bool := a.kind ∉ ["comment", "keyword_argument", "dictionary_splat"]

/-- Whether an argument is a positional one; `splats` says whether a splat of positional arguments is. -/
def isPositional (splats : Bool) (a : Tree) : Bool :=
  isTaken a && a.kind ≠ "line_continuation" && (splats || a.kind ≠ "list_splat")

/-- The path that `arguments` state: the last that a keyword gives, or else the first positional argument, if that is
a literal. -/
def statedPath (splats : Bool) (s : Source) (args : List Tree) : Option String :=
  (args.filterMap (namedText? s)).getLast?.or ((args.find? (isPositional splats)).bind (Literal.ofTree? s))

/-- A literal that is given by position comes after the last keyword that gives the path, and differs from it. -/
def Overrides (s : Source) (args : List Tree) : Prop :=
  ∃ before a after, args = before ++ a :: after ∧ (∀ b ∈ before, isTaken b = false) ∧ isTaken a = true ∧
    after.filterMap (namedText? s) = [] ∧
    ∃ text ∈ Literal.ofTree? s a, ∃ key ∈ (before.filterMap (namedText? s)).getLast?, text ≠ key

/-- No keyword gives the path, and the first positional argument is a literal, but something that is none comes
before it and is taken for one. -/
def Hides (splats : Bool) (s : Source) (args : List Tree) : Prop :=
  args.filterMap (namedText? s) = [] ∧
    ∃ before a after, args = before ++ a :: after ∧ (∀ b ∈ before, isPositional splats b = false) ∧
      isPositional splats a = true ∧ (Literal.ofTree? s a).isSome ∧ ∃ b ∈ before, isTaken b = true

variable {s : Source} {a : Tree} {before after args : List Tree} {splats : Bool}

/-- What is positional is taken for it. -/
theorem isTaken_of_isPositional (h : isPositional splats a = true) : isTaken a = true := by
  rw [isPositional, Bool.and_assoc, Bool.and_eq_true] at h
  exact h.1

/-- What is taken for a positional argument and is none is no literal. -/
theorem ofTree?_of_not_isPositional (htaken : isTaken a = true) (h : isPositional splats a = false) :
    Literal.ofTree? s a = none := by
  have hkind : a.kind = "line_continuation" ∨ a.kind = "list_splat" := by
    by_contra hother
    rw [not_or] at hother
    simp [isPositional, htaken, hother] at h
  rw [Literal.ofTree?]
  rcases hkind with hkind | hkind <;> rw [hkind] <;> rfl

theorem namedText?_of_isTaken (h : isTaken a = true) : namedText? s a = none := by
  have hkind : a.kind ≠ "keyword_argument" := by
    rintro hkind
    simp [isTaken, hkind] at h
  rw [namedText?, if_neg fun hnamed => hkind hnamed.1]

/-- What is taken for a positional argument gives its literal, if it is one. -/
theorem pathArgument_of_isTaken (h : isTaken a = true) :
    pathArgument s a = .positional (Literal.ofTree? s a) := by
  have hkind : a.kind ≠ "comment" ∧ a.kind ≠ "keyword_argument" ∧ a.kind ≠ "dictionary_splat" := by
    simpa [isTaken] using h
  simp [pathArgument, hkind]

/-- Of all other arguments only a keyword for the path counts in `pathArgument`. -/
theorem pathArgument_of_not_isTaken (h : isTaken a = false) :
    pathArgument s a = match namedText? s a with
      | some text => .named text
      | none => .other := by
  have hkind : a.kind = "comment" ∨ a.kind = "keyword_argument" ∨ a.kind = "dictionary_splat" := by
    simpa [isTaken, Decidable.or_iff_not_imp_left] using h
  rcases hkind with hkind | hkind | hkind
  · simp [pathArgument, namedText?, hkind]
  · have hmem : (a.child? "name").map (textOf s) ∈ [some "path", some "route"] ↔
        (a.child? "name").map (textOf s) = some "path" ∨ (a.child? "name").map (textOf s) = some "route" := by simp
    simp only [pathArgument, namedText?, hkind, hmem, true_and]
    by_cases hname : (a.child? "name").map (textOf s) = some "path" ∨ (a.child? "name").map (textOf s) = some "route"
    · cases (a.child? "value").bind (Literal.ofTree? s) <;> simp only [if_pos hname]
    · simp only [if_neg hname]
  · simp [pathArgument, namedText?, hkind]

/-! ## What is read -/

/-- After the first positional argument only keywords count. -/
theorem pathOf_false (s : Source) (path : Option String) (args : List Tree) :
    pathOf false path (args.map (pathArgument s)) = (args.filterMap (namedText? s)).getLast?.or path := by
  -- the path is the last that was found, so that it varies along the arguments
  induction args generalizing path with
  | nil => simp [pathOf]
  | cons a args ih =>
    rw [List.map_cons, List.filterMap_cons]
    cases htaken : isTaken a with
    | true =>
      rw [pathArgument_of_isTaken htaken, namedText?_of_isTaken htaken]
      exact ih path
    | false =>
      rw [pathArgument_of_not_isTaken htaken]
      cases namedText? s a with
      | none => exact ih path
      | some text =>
        show pathOf false (some text) _ = _
        rw [ih, List.getLast?_cons, Option.or_some]
        rfl

/-- Before the first positional argument, too, only keywords count. -/
theorem pathOf_true_append (s : Source) (path : Option String) (hbefore : ∀ b ∈ before, isTaken b = false)
    (rest : List Tree) :
    pathOf true path ((before ++ rest).map (pathArgument s)) =
      pathOf true ((before.filterMap (namedText? s)).getLast?.or path) (rest.map (pathArgument s)) := by
  induction before generalizing path with
  | nil => simp
  | cons b before ih =>
    rw [List.forall_mem_cons] at hbefore
    rw [List.cons_append, List.map_cons, List.filterMap_cons, pathArgument_of_not_isTaken hbefore.1]
    cases namedText? s b with
    | none => exact ih path hbefore.2
    | some text =>
      show pathOf true (some text) _ = _
      rw [ih (some text) hbefore.2, List.getLast?_cons, Option.or_some]
      rfl

/-- The last keyword after the first positional argument counts, or else that argument, or else the last keyword
before it. -/
theorem pathOf_split (s : Source) (hbefore : ∀ b ∈ before, isTaken b = false) (ha : isTaken a = true)
    (after : List Tree) :
    pathOf true none ((before ++ a :: after).map (pathArgument s)) =
      (after.filterMap (namedText? s)).getLast?.or
        ((Literal.ofTree? s a).or (before.filterMap (namedText? s)).getLast?) := by
  rw [pathOf_true_append s none hbefore, List.map_cons, pathArgument_of_isTaken ha, Option.or_none]
  show pathOf false ((Literal.ofTree? s a).or _) (after.map (pathArgument s)) = _
  rw [pathOf_false]

/-- Where nothing is taken for a positional argument only keywords count. -/
theorem pathOf_of_forall (s : Source) (h : ∀ a ∈ args, isTaken a = false) :
    pathOf true none (args.map (pathArgument s)) = (args.filterMap (namedText? s)).getLast? := by
  have hpath := pathOf_true_append s none h []
  rw [List.append_nil, Option.or_none] at hpath
  exact hpath

/-! ## What is stated -/

/-- Arguments are cut before the first that is taken for a positional one. -/
theorem exists_split (h : ∃ a ∈ args, isTaken a = true) :
    ∃ before a after, args = before ++ a :: after ∧ (∀ b ∈ before, isTaken b = false) ∧ isTaken a = true := by
  obtain ⟨a, ha⟩ := Option.isSome_iff_exists.mp (List.find?_isSome.mpr h)
  obtain ⟨htaken, before, after, rfl, hbefore⟩ := List.find?_eq_some_iff_append.mp ha
  exact ⟨before, a, after, rfl, fun b hb => by simpa using hbefore b hb, htaken⟩

/-- A list is cut before the first item with a property in one way. -/
theorem split_unique {p : Tree → Bool} {before' after' : List Tree} {a' : Tree}
    (h : before ++ a :: after = before' ++ a' :: after') (hbefore : ∀ b ∈ before, p b = false) (ha : p a = true)
    (hbefore' : ∀ b ∈ before', p b = false) (ha' : p a' = true) : before = before' ∧ a = a' ∧ after = after' := by
  have htake : ∀ {xs ys : List Tree} {x : Tree}, (∀ b ∈ xs, p b = false) → p x = true →
      (xs ++ x :: ys).takeWhile (fun b => !p b) = xs := by
    intro xs ys x hxs hx
    rw [List.takeWhile_append_of_pos (fun b hb => by simp [hxs b hb]), List.takeWhile_cons_of_neg (by simp [hx]),
      List.append_nil]
  have hsame : before = before' := by rw [← htake hbefore ha, h, htake hbefore' ha']
  subst hsame
  have hrest := List.append_cancel_left h
  exact ⟨rfl, (List.cons.inj hrest).1, (List.cons.inj hrest).2⟩

/-- Where arguments are cut tells whether a positional one overrides a keyword. -/
theorem overrides_split (hbefore : ∀ b ∈ before, isTaken b = false) (ha : isTaken a = true) :
    Overrides s (before ++ a :: after) ↔ after.filterMap (namedText? s) = [] ∧
      ∃ text ∈ Literal.ofTree? s a, ∃ key ∈ (before.filterMap (namedText? s)).getLast?, text ≠ key := by
  constructor
  · rintro ⟨before', a', after', hsplit, hbefore', ha', hafter, hdiffer⟩
    obtain ⟨rfl, rfl, rfl⟩ := split_unique hsplit hbefore ha hbefore' ha'
    exact ⟨hafter, hdiffer⟩
  · rintro ⟨hafter, hdiffer⟩
    exact ⟨before, a, after, rfl, hbefore, ha, hafter, hdiffer⟩

theorem not_isPositional (h : isTaken a = false) : isPositional splats a = false := by
  rw [isPositional, h]
  rfl

/-- The first positional argument is what is taken for it, or comes after that. -/
theorem find?_split (hbefore : ∀ b ∈ before, isTaken b = false) (after : List Tree) :
    (before ++ a :: after).find? (isPositional splats) =
      if isPositional splats a = true then some a else after.find? (isPositional splats) := by
  have hnone : before.find? (isPositional splats) = none := by
    rw [List.find?_eq_none]
    intro b hb
    simp [not_isPositional (hbefore b hb)]
  rw [List.find?_append, hnone, Option.none_or, List.find?_cons]
  cases isPositional splats a <;> rfl

/-- Where arguments are cut tells whether a positional one is hidden. -/
theorem hides_split (hbefore : ∀ b ∈ before, isTaken b = false) (ha : isTaken a = true) :
    Hides splats s (before ++ a :: after) ↔ (before ++ a :: after).filterMap (namedText? s) = [] ∧
      isPositional splats a = false ∧
        (((before ++ a :: after).find? (isPositional splats)).bind (Literal.ofTree? s)).isSome := by
  constructor
  · rintro ⟨hnamed, before', a', after', hsplit, hbefore', ha', hliteral, b, hb, htaken⟩
    refine ⟨hnamed, ?_, ?_⟩
    · by_contra hpositional
      rw [Bool.not_eq_false] at hpositional
      obtain ⟨rfl, -, -⟩ :=
        split_unique hsplit (fun c hc => not_isPositional (hbefore c hc)) hpositional hbefore' ha'
      rw [hbefore b hb] at htaken
      cases htaken
    · have hfind : (before ++ a :: after).find? (isPositional splats) = some a' := by
        rw [hsplit, List.find?_eq_some_iff_append]
        exact ⟨ha', before', after', rfl, fun c hc => by simp [hbefore' c hc]⟩
      rw [hfind]
      exact hliteral
  · rintro ⟨hnamed, hpositional, hliteral⟩
    obtain ⟨text, htext⟩ := Option.isSome_iff_exists.mp hliteral
    obtain ⟨a', hfind, hliteral⟩ := Option.bind_eq_some_iff.mp htext
    obtain ⟨ha', before', after', hsplit, hbefore'⟩ := List.find?_eq_some_iff_append.mp hfind
    refine ⟨hnamed, before', a', after', hsplit, fun c hc => by simpa using hbefore' c hc, ha',
      Option.isSome_iff_exists.mpr ⟨text, hliteral⟩, ?_⟩
    by_contra hnone
    -- otherwise the two places are the same
    obtain ⟨-, rfl, -⟩ := split_unique hsplit hbefore ha
      (fun c hc => by simpa using fun htaken => hnone ⟨c, hc, htaken⟩) (isTaken_of_isPositional ha')
    rw [hpositional] at ha'
    cases ha'

/-- Where something is taken for a positional argument, the last keyword comes after it, or before it, or there is
none. -/
theorem pathOf_split_eq_statedPath_iff (hbefore : ∀ b ∈ before, isTaken b = false) (ha : isTaken a = true) :
    pathOf true none ((before ++ a :: after).map (pathArgument s)) = statedPath splats s (before ++ a :: after) ↔
      ¬Overrides s (before ++ a :: after) ∧ ¬Hides splats s (before ++ a :: after) := by
  have hnamed : (before ++ a :: after).filterMap (namedText? s) =
      before.filterMap (namedText? s) ++ after.filterMap (namedText? s) := by
    rw [List.filterMap_append, List.filterMap_cons, namedText?_of_isTaken ha]
  rw [pathOf_split s hbefore ha, statedPath, overrides_split hbefore ha, hides_split hbefore ha, hnamed,
    List.getLast?_append]
  cases hafter : (after.filterMap (namedText? s)).getLast? with
  | some key =>
    have hne : after.filterMap (namedText? s) ≠ [] := List.ne_nil_of_mem (List.mem_of_getLast? hafter)
    simp [hne]
  | none =>
    rw [List.getLast?_eq_none_iff] at hafter
    cases hkey : (before.filterMap (namedText? s)).getLast? with
    | some key =>
      have hne : before.filterMap (namedText? s) ≠ [] := List.ne_nil_of_mem (List.mem_of_getLast? hkey)
      cases Literal.ofTree? s a <;> simp [hafter, hne]
    | none =>
      rw [List.getLast?_eq_none_iff] at hkey
      rw [find?_split hbefore]
      cases hpositional : isPositional splats a with
      | true => simp
      | false =>
        -- what is taken for the positional argument gives nothing, and a literal after it would be hidden
        rw [ofTree?_of_not_isPositional ha hpositional]
        simp only [hafter, hkey, List.append_nil, Option.none_or, Bool.false_eq_true, if_false]
        cases (after.find? (isPositional splats)).bind (Literal.ofTree? s) <;> simp

/-- Where nothing `isTaken` the path is as it is stated. -/
theorem pathOf_eq_statedPath (hnone : ∀ a ∈ args, isTaken a = false) :
    pathOf true none (args.map (pathArgument s)) = statedPath splats s args := by
  have hfind : args.find? (isPositional splats) = none := by
    rw [List.find?_eq_none]
    intro a ha
    simp [not_isPositional (hnone a ha)]
  rw [pathOf_of_forall s hnone, statedPath, hfind, Option.bind_none, Option.or_none]

/-- The path that is read is the one that is stated, unless the arguments have `Overrides` or `Hides`. -/
theorem pathOf_eq_statedPath_iff (splats : Bool) (s : Source) (args : List Tree) :
    pathOf true none (args.map (pathArgument s)) = statedPath splats s args ↔
      ¬Overrides s args ∧ ¬Hides splats s args := by
  by_cases htaken : ∃ a ∈ args, isTaken a = true
  · obtain ⟨before, a, after, rfl, hbefore, ha⟩ := exists_split htaken
    exact pathOf_split_eq_statedPath_iff hbefore ha
  · refine iff_of_true (pathOf_eq_statedPath fun a ha => by simpa using fun h => htaken ⟨a, ha, h⟩) ⟨?_, ?_⟩
    · rintro ⟨before, a, after, rfl, -, ha, -⟩
      exact htaken ⟨a, by simp, ha⟩
    · rintro ⟨-, before, a, after, rfl, -, ha, -⟩
      exact htaken ⟨a, by simp, isTaken_of_isPositional ha⟩

/-- The path of a decorator is the one that is stated, unless its arguments have `Overrides` or `Hides`. -/
theorem path_eq_statedPath_iff (splats : Bool) (s : Source) {d : Tree} {r : RouteDecorator}
    (h : ofTree? s d = some r) :
    r.path = statedPath splats s (argumentsOf d) ↔
      ¬Overrides s (argumentsOf d) ∧ ¬Hides splats s (argumentsOf d) := by
  rw [ofTree?_eq] at h
  obtain ⟨callee, -, rfl⟩ := Option.map_eq_some_iff.mp h
  exact pathOf_eq_statedPath_iff splats s (argumentsOf d)

end RouteDecorator

/-! ## Two trees -/

namespace Sample

/-- A literal of two characters. -/
def literal (start : Nat) : Tree :=
  construct "string" start (start + 4) [
    construct "string_start" start (start + 1) [],
    construct "string_content" (start + 1) (start + 3) [],
    construct "string_end" (start + 3) (start + 4) []]

/-- A literal of two characters that is given by the keyword `path`. -/
def pathKeyword (start : Nat) : Tree :=
  construct "keyword_argument" start (start + 9) [
    inField "name" <| construct "identifier" start (start + 4) [],
    token "=" (start + 4),
    inField "value" <| literal (start + 5)]

/-- A decorator that calls `app.get`, with arguments up to `stop`. -/
def getDecorator (stop : Nat) (arguments : List Tree) : Tree :=
  construct "decorator" 0 stop [
    token "@" 0,
    construct "call" 1 stop [
      inField "function" <| construct "attribute" 1 8 [
        inField "object" <| construct "identifier" 1 4 [],
        token "." 4,
        inField "attribute" <| construct "identifier" 5 8 []],
      inField "arguments" <| construct "argument_list" 8 stop arguments]]

/-- The path given by position, a splat, and the path given by a keyword. -/
def settled : String := "@app.get(\"/b\", *x, path=\"/a\")\ndef f():\n    ...\n"

/-- The decorator in `settled`. -/
def settledDecorator : Tree :=
  getDecorator 29 [
    token "(" 8,
    literal 9,
    token "," 13,
    construct "list_splat" 15 17 [token "*" 15, construct "identifier" 16 17 []],
    token "," 17,
    pathKeyword 19,
    token ")" 28]

end Sample

/-- A keyword after the positional argument counts. -/
theorem RouteDecorator.path_eq_statedPath_settled :
    ofTree? (.ofString Sample.settled) Sample.settledDecorator = some ⟨"get", some "/a"⟩ ∧
      some "/a" = statedPath true (.ofString Sample.settled) (argumentsOf Sample.settledDecorator) ∧
      ¬Overrides (.ofString Sample.settled) (argumentsOf Sample.settledDecorator) ∧
      ¬Hides true (.ofString Sample.settled) (argumentsOf Sample.settledDecorator) := by
  have hread : ofTree? (.ofString Sample.settled) Sample.settledDecorator = some ⟨"get", some "/a"⟩ := by
    decide +kernel
  have hstated : some "/a" = statedPath true (.ofString Sample.settled) (argumentsOf Sample.settledDecorator) := by
    decide +kernel
  exact ⟨hread, hstated, (path_eq_statedPath_iff true _ hread).mp hstated⟩

namespace Sample

/-- The path given by a keyword, and then by position. -/
def overridden : String := "@app.get(path=\"/a\", \"/b\")\ndef f():\n    ...\n"

/-- The tree of `overridden`. -/
def overriddenTree : Tree :=
  construct "module" 0 43 [
    construct "decorated_definition" 0 42 [
      getDecorator 25 [
        token "(" 8,
        pathKeyword 9,
        token "," 18,
        literal 20,
        token ")" 24],
      inField "definition" <| construct "function_definition" 26 42 [
        token "def" 26,
        inField "name" <| construct "identifier" 30 31 [],
        inField "parameters" <| construct "parameters" 31 33 [token "(" 31, token ")" 32],
        token ":" 33,
        inField "body" <| construct "block" 39 42 [dots 39]]]]

end Sample

/-- A literal that is given by position after the keyword counts instead of it. -/
theorem RouteDecorator.path_ne_statedPath_overridden :
    Sample.overriddenTree.hasFault = false ∧
      (Module.ofTree (.ofString Sample.overridden) Sample.overriddenTree).functions.map (·.decorators) =
        [[⟨"get", some "/b"⟩]] ∧
      ∃ d ∈ Sample.overriddenTree.nodes, ∀ splats,
        (ofTree? (.ofString Sample.overridden) d).map (·.path) = some (some "/b") ∧
          statedPath splats (.ofString Sample.overridden) (argumentsOf d) = some "/a" := by
  decide +kernel

end PayloadAtlas.Python
