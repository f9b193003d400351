import Mathlib.Logic.Basic
import Mathlib.Tactic.SplitIfs
import PayloadAtlas.Disk.Change
import PayloadAtlas.Proofs.Text.Utf8

/-!
# Steps along a path

A path is walked piece by piece, and a step (`Disk.step`) looks at what is at two locations: the directory
where it starts and the name that it goes to. All that is known about walks comes from it (`walkOver_cons`):
a walk that finds something does so over more links too (`walkOver_found_mono`), walks can be put together
(`walkOver_append`), and a place that is free is a name in a directory that is there (`walkOver_free`).
-/

namespace PayloadAtlas

namespace Disk

/-! ## What is at a location -/

/-- What is at the location `l`, whenever it was changed. -/
def nodeAt (d : Disk) (l : Location) : Option Node := (d.at? l).map Entry.node

theorem nodeAt_nil (d : Disk) : d.nodeAt [] = some .directory := rfl

/-- Whether a regular file is at `l`, one that can be opened or not. -/
def isFile (d : Disk) (l : Location) : Bool :=
  match d.nodeAt l with
  | some (.file _) => true
  | _ => false

theorem isFile_iff {d : Disk} {l : Location} : d.isFile l = true ↔ ∃ c, d.nodeAt l = some (.file c) := by
  rw [isFile]
  rcases d.nodeAt l with _ | _ | _ | _ <;> simp

/-- Putting `e` at `l` changes what is at `l` only; nothing can be put at the root. -/
theorem at?_put (d : Disk) (l m : Location) (e : Entry) :
    (d.put l e).at? m = if m = l ∧ l ≠ [] then some e else d.at? m := by
  have hbeq : (List.instBEq : BEq Location) = instBEqOfDecidableEq := lawful_beq_subsingleton _ _
  by_cases hm : m = []
  · have hnot : ¬(m = l ∧ l ≠ []) := fun h => h.2 (h.1 ▸ hm)
    rw [if_neg hnot, at?, at?, if_pos hm, if_pos hm]
  · rw [at?, at?, if_neg hm, if_neg hm, hbeq]
    by_cases hl : m = l
    · subst hl
      rw [if_pos ⟨rfl, hm⟩]
      exact Association.lookup_set_self m e d.entries
    · rw [if_neg fun h => hl h.1]
      exact Association.lookup_set_of_ne hl e d.entries

theorem nodeAt_put (d : Disk) (l m : Location) (e : Entry) :
    (d.put l e).nodeAt m = if m = l ∧ l ≠ [] then some e.node else d.nodeAt m := by
  rw [nodeAt, at?_put]
  split <;> rfl

/-- A change of the names in a directory, by `touch`, shows in its time alone. -/
theorem nodeAt_touch (d : Disk) (l m : Location) : (d.touch l).nodeAt m = d.nodeAt m := by
  rw [touch]
  split
  · next t h =>
    rw [nodeAt_put]
    split
    · next hm => rw [hm.1, nodeAt, h, Option.map_some]
    · rfl
  · rfl

/-- Placing a node at `l` changes what is at `l` only. -/
theorem nodeAt_place (d : Disk) (l m : Location) (node : Node) :
    (d.place l node).nodeAt m = if m = l ∧ l ≠ [] then some node else d.nodeAt m := by
  rw [place]
  split
  · rw [nodeAt_touch, nodeAt_put]
  · rw [nodeAt_put]

theorem working_place (d : Disk) (l : Location) (node : Node) : (d.place l node).working = d.working := by
  rw [place]
  split
  · rw [touch]
    split <;> rfl
  · rfl

/-! ## Steps along a path -/

/-- Whether a piece of a path can be the name of something: it is not blank, no `.` or `..`, and not longer than
`longestName`. -/
structure IsName (piece : Bytes) : Prop where
  ne_nil : piece ≠ []
  ne_dot : piece ≠ [dot]
  ne_dots : piece ≠ [dot, dot]
  length_le : piece.length ≤ longestName

instance (piece : Bytes) : Decidable (IsName piece) :=
  decidable_of_iff (piece ≠ [] ∧ piece ≠ [dot] ∧ piece ≠ [dot, dot] ∧ piece.length ≤ longestName)
    ⟨fun h => ⟨h.1, h.2.1, h.2.2.1, h.2.2.2⟩, fun h => ⟨h.ne_nil, h.ne_dot, h.ne_dots, h.length_le⟩⟩

/-- What is a name as bytes is a component as a text. -/
theorem IsName.text {t : String} (h : IsName (Text.bytesOf t)) (hslash : slash ∉ Text.bytesOf t) :
    '/' ∉ t.toList ∧ Path.counts t = true ∧ Path.isName t = true := by
  have hchars : '/' ∉ t.toList := fun hmem => hslash (Text.slash_mem_bytesOf.mpr hmem)
  have hempty : t ≠ "" := by
    rintro rfl
    exact h.ne_nil rfl
  have hdot : t ≠ "." := by
    rintro rfl
    exact h.ne_dot rfl
  have hdots : t ≠ ".." := by
    rintro rfl
    exact h.ne_dots rfl
  have hself : t ≠ "/" := by
    rintro rfl
    exact hchars (by decide)
  refine ⟨hchars, ?_, ?_⟩
  · rw [Path.counts, Bool.and_eq_true, bne_iff_ne, bne_iff_ne]
    exact ⟨hempty, hdot⟩
  · rw [Path.isName, Bool.and_eq_true, Bool.and_eq_true, bne_iff_ne, bne_iff_ne, bne_iff_ne]
    exact ⟨⟨hself, hdot⟩, hdots⟩

/-- What one piece of a path leads to. -/
inductive Step where
  /-- The path ends here, whatever follows. -/
  | ends (r : Except FileError Place)
  /-- What follows is looked for at a location. -/
  | goes (l : Location)
  /-- The target of a link is looked for from a location on, and after it what follows. -/
  | links (l : Location) (target : List Bytes)

/-- The step over `piece`, with the `rest` that follows it. -/
def step (d : Disk) (follow : Bool) (here : Location) (piece : Bytes) (rest : List Bytes) : Step :=
  match d.nodeAt here with
  | some .directory =>
    if piece = [] ∨ piece = [dot] then .goes here
    else if piece = [dot, dot] then .goes here.dropLast
    else if longestName < piece.length then .ends (.error .nameTooLong)
    else
      match d.nodeAt (here ++ [piece]) with
      | none =>
        if rest.all (· = []) then .ends (.ok (.free (here ++ [piece]) !rest.isEmpty))
        else .ends (.error .notFound)
      | some (.link target) =>
        if rest = [] ∧ follow = false then .ends (.ok (.found (here ++ [piece])))
        else if target = [] then .ends (.error .notFound)
        else .links (start here target) (cut target)
      | some _ => .goes (here ++ [piece])
  | some _ => .ends (.error .notDirectory)
  | none => .ends (.error .notFound)

theorem walk_nil (d : Disk) (follow : Bool) (again : Location → List Bytes → Except FileError Place)
    (here : Location) : d.walk follow again here [] = .ok (.found here) := by
  rw [walk]

/-- A walk goes on from where the `step` over its first piece leads. -/
theorem walk_cons (d : Disk) (follow : Bool) (again : Location → List Bytes → Except FileError Place)
    (here : Location) (piece : Bytes) (rest : List Bytes) :
    d.walk follow again here (piece :: rest) =
      match d.step follow here piece rest with
      | .ends r => r
      | .goes l => d.walk follow again l rest
      | .links l target => again l (target ++ rest) := by
  rw [walk, step, nodeAt, nodeAt]
  cases d.at? here with
  | none => rfl
  | some e =>
    obtain ⟨_ | _ | _, _⟩ := e
    · rfl
    · dsimp only
      cases d.at? (here ++ [piece]) with
      | none => dsimp only [Option.map_some, Option.map_none]; split_ifs <;> rfl
      | some e =>
        obtain ⟨_ | _ | _, _⟩ := e <;> dsimp only [Option.map_some] <;> split_ifs <;> rfl
    · rfl

/-- What a step can be, with all that the disk has at the two locations that it looks at. -/
inductive Steps (d : Disk) (follow : Bool) (here : Location) (piece : Bytes) (rest : List Bytes) :
    Step → Prop where
  | nowhere (hhere : d.nodeAt here = none) : Steps d follow here piece rest (.ends (.error .notFound))
  | inFile {c : Content} (hhere : d.nodeAt here = some (.file c)) :
    Steps d follow here piece rest (.ends (.error .notDirectory))
  | inLink {t : Bytes} (hhere : d.nodeAt here = some (.link t)) :
    Steps d follow here piece rest (.ends (.error .notDirectory))
  | stays (hhere : d.nodeAt here = some .directory) (hpiece : piece = [] ∨ piece = [dot]) :
    Steps d follow here piece rest (.goes here)
  | up (hhere : d.nodeAt here = some .directory) (hpiece : piece = [dot, dot]) :
    Steps d follow here piece rest (.goes here.dropLast)
  | tooLong (hhere : d.nodeAt here = some .directory) (hne : piece ≠ []) (hdot : piece ≠ [dot])
    (hdots : piece ≠ [dot, dot]) (hlong : longestName < piece.length) :
    Steps d follow here piece rest (.ends (.error .nameTooLong))
  | free (hhere : d.nodeAt here = some .directory) (hname : IsName piece)
    (hnext : d.nodeAt (here ++ [piece]) = none) (hrest : ∀ p ∈ rest, p = []) :
    Steps d follow here piece rest (.ends (.ok (.free (here ++ [piece]) !rest.isEmpty)))
  | missing (hhere : d.nodeAt here = some .directory) (hname : IsName piece)
    (hnext : d.nodeAt (here ++ [piece]) = none) (hrest : ¬∀ p ∈ rest, p = []) :
    Steps d follow here piece rest (.ends (.error .notFound))
  | file {c : Content} (hhere : d.nodeAt here = some .directory) (hname : IsName piece)
    (hnext : d.nodeAt (here ++ [piece]) = some (.file c)) :
    Steps d follow here piece rest (.goes (here ++ [piece]))
  | directory (hhere : d.nodeAt here = some .directory) (hname : IsName piece)
    (hnext : d.nodeAt (here ++ [piece]) = some .directory) :
    Steps d follow here piece rest (.goes (here ++ [piece]))
  | lastLink {t : Bytes} (hhere : d.nodeAt here = some .directory) (hname : IsName piece)
    (hnext : d.nodeAt (here ++ [piece]) = some (.link t)) (hlast : rest = [] ∧ follow = false) :
    Steps d follow here piece rest (.ends (.ok (.found (here ++ [piece]))))
  | blankLink (hhere : d.nodeAt here = some .directory) (hname : IsName piece)
    (hnext : d.nodeAt (here ++ [piece]) = some (.link [])) (hlast : ¬(rest = [] ∧ follow = false)) :
    Steps d follow here piece rest (.ends (.error .notFound))
  | link {t : Bytes} (hhere : d.nodeAt here = some .directory) (hname : IsName piece)
    (hnext : d.nodeAt (here ++ [piece]) = some (.link t)) (hlast : ¬(rest = [] ∧ follow = false))
    (htarget : t ≠ []) : Steps d follow here piece rest (.links (start here t) (cut t))

/-- The step that is taken is one of `Steps`. -/
theorem steps (d : Disk) (follow : Bool) (here : Location) (piece : Bytes) (rest : List Bytes) :
    Steps d follow here piece rest (d.step follow here piece rest) := by
  rw [step]
  cases hhere : d.nodeAt here with
  | none => exact .nowhere hhere
  | some n =>
    cases n with
    | file c => exact .inFile hhere
    | link t => exact .inLink hhere
    | directory =>
      dsimp only
      by_cases hdot : piece = [] ∨ piece = [dot]
      · rw [if_pos hdot]
        exact .stays hhere hdot
      by_cases hdots : piece = [dot, dot]
      · rw [if_neg hdot, if_pos hdots]
        exact .up hhere hdots
      by_cases hlong : longestName < piece.length
      · rw [if_neg hdot, if_neg hdots, if_pos hlong]
        exact .tooLong hhere (fun h => hdot (.inl h)) (fun h => hdot (.inr h)) hdots hlong
      rw [if_neg hdot, if_neg hdots, if_neg hlong]
      -- all else that a piece may be is a name
      have hname : IsName piece :=
        ⟨fun h => hdot (.inl h), fun h => hdot (.inr h), hdots, Nat.le_of_not_lt hlong⟩
      cases hnext : d.nodeAt (here ++ [piece]) with
      | none =>
        dsimp only
        split
        · next hrest => exact .free hhere hname hnext (by simpa using hrest)
        · next hrest => exact .missing hhere hname hnext (by simpa using hrest)
      | some n =>
        cases n with
        | file c => exact .file hhere hname hnext
        | directory => exact .directory hhere hname hnext
        | link t =>
          dsimp only
          split
          · next hlast => exact .lastLink hhere hname hnext hlast
          · next hlast =>
            split
            · next htarget =>
              subst htarget
              exact .blankLink hhere hname hnext hlast
            · next htarget => exact .link hhere hname hnext hlast htarget

/-- There is no other step: each case of `Steps` determines it. -/
theorem Steps.step_eq {d : Disk} {follow : Bool} {here : Location} {piece : Bytes} {rest : List Bytes}
    {s : Step} (h : Steps d follow here piece rest s) : d.step follow here piece rest = s := by
  have hname (h : IsName piece) : ¬(piece = [] ∨ piece = [dot]) := fun hor => hor.elim h.ne_nil h.ne_dot
  have hlength (h : IsName piece) : ¬longestName < piece.length := Nat.not_lt.mpr h.length_le
  rw [step]
  cases h with
  | nowhere hhere => rw [hhere]
  | inFile hhere => rw [hhere]
  | inLink hhere => rw [hhere]
  | stays hhere hpiece => rw [hhere]; exact if_pos hpiece
  | up hhere hpiece => simp [hhere, hpiece]
  | tooLong hhere hne hdot hdots hlong => simp [hhere, hne, hdot, hdots, hlong]
  | free hhere h hnext hrest =>
    simpa [hhere, hname h, h.ne_dots, hlength h, hnext] using hrest
  | missing hhere h hnext hrest =>
    simpa [hhere, hname h, h.ne_dots, hlength h, hnext] using hrest
  | file hhere h hnext => simp [hhere, hname h, h.ne_dots, hlength h, hnext]
  | directory hhere h hnext => simp [hhere, hname h, h.ne_dots, hlength h, hnext]
  | lastLink hhere h hnext hlast => simp [hhere, hname h, h.ne_dots, hlength h, hnext, hlast]
  | blankLink hhere h hnext hlast => simp [hhere, hname h, h.ne_dots, hlength h, hnext, hlast]
  | link hhere h hnext hlast htarget =>
    simp [hhere, hname h, h.ne_dots, hlength h, hnext, hlast, htarget]

/-! ## Pieces -/

theorem cut_ne_nil (path : Bytes) : cut path ≠ [] := by
  cases path with
  | nil => simp [cut]
  | cons b rest =>
    rw [cut]
    split
    · simp
    · split <;> simp

theorem cut_cons_of_ne {b : UInt8} (hb : b ≠ slash) {rest piece : Bytes} {pieces : List Bytes}
    (h : cut rest = piece :: pieces) : cut (b :: rest) = (b :: piece) :: pieces := by
  rw [cut, h]
  exact if_neg hb

/-- A path that begins with `slash` has a blank first piece. -/
theorem cut_slash (rest : Bytes) : cut (slash :: rest) = [] :: cut rest := by
  rw [cut]
  split
  · next h => exact absurd h (cut_ne_nil rest)
  · next h => rw [if_pos rfl, h]

/-- No piece of `cut` holds a slash. -/
theorem slash_notMem_of_mem_cut {path piece : Bytes} (h : piece ∈ cut path) : slash ∉ piece := by
  -- a slash starts a new piece, every other byte goes into the first one
  induction path generalizing piece with
  | nil =>
    rw [List.mem_singleton.mp h]
    simp
  | cons b rest ih =>
    obtain ⟨first, pieces, hrest⟩ := List.exists_cons_of_ne_nil (cut_ne_nil rest)
    by_cases hb : b = slash
    · subst hb
      rw [cut_slash, List.mem_cons] at h
      rcases h with rfl | h
      · simp
      · exact ih h
    · rw [cut_cons_of_ne hb hrest, List.mem_cons] at h
      rcases h with rfl | h
      · have hfirst : slash ∉ first := ih (by rw [hrest]; exact List.mem_cons_self)
        simpa [Ne.symm hb] using hfirst
      · exact ih (by rw [hrest]; exact List.mem_cons_of_mem _ h)

/-- The pieces of two paths with a slash between them are those of the one and those of the other. -/
theorem cut_append_slash (a b : Bytes) : cut (a ++ slash :: b) = cut a ++ cut b := by
  induction a with
  | nil => exact cut_slash b
  | cons c rest ih =>
    obtain ⟨first, pieces, hrest⟩ := List.exists_cons_of_ne_nil (cut_ne_nil rest)
    by_cases hc : c = slash
    · subst hc
      rw [List.cons_append, cut_slash, cut_slash, ih]
      rfl
    · have hboth : cut (rest ++ slash :: b) = first :: (pieces ++ cut b) := by
        rw [ih, hrest]
        rfl
      rw [List.cons_append, cut_cons_of_ne hc hboth, cut_cons_of_ne hc hrest]
      rfl

theorem cut_of_notMem {name : Bytes} (h : slash ∉ name) : cut name = [name] := by
  induction name with
  | nil => rfl
  | cons b rest ih =>
    rw [List.mem_cons, not_or] at h
    exact cut_cons_of_ne (Ne.symm h.1) (ih h.2)

/-! ## Walks -/

/-- Goes on at the target of a link, over at most `n` links. -/
def overLink (d : Disk) (follow : Bool) : Nat → Location → List Bytes → Except FileError Place
  | 0, _, _ => .error .tooManyLinks
  | n + 1, l, ps => d.walkOver follow n l ps

theorem walkOver_nil (d : Disk) (follow : Bool) (n : Nat) (here : Location) :
    d.walkOver follow n here [] = .ok (.found here) := by
  cases n <;> exact walk_nil d follow _ here

/-- A walk over at most `n` links by the `step` over its first piece. -/
theorem walkOver_cons (d : Disk) (follow : Bool) (n : Nat) (here : Location) (piece : Bytes)
    (rest : List Bytes) :
    d.walkOver follow n here (piece :: rest) =
      match d.step follow here piece rest with
      | .ends r => r
      | .goes l => d.walkOver follow n l rest
      | .links l target => d.overLink follow n l (target ++ rest) := by
  cases n <;> exact walk_cons d follow _ here piece rest

/-- Walks by `walkOver` are shown something piece by piece, and over one link less at the target of a link. -/
theorem walkOver_induction {motive : Nat → Location → List Bytes → Prop}
    (nil : ∀ n here, motive n here [])
    (cons : ∀ n here piece rest, (∀ l, motive n l rest) →
      (∀ m, n = m + 1 → ∀ l ps, motive m l ps) → motive n here (piece :: rest)) (n : Nat)
    (here : Location) (ps : List Bytes) : motive n here ps := by
  induction n generalizing here ps with
  | zero =>
    induction ps generalizing here with
    | nil => exact nil 0 here
    | cons piece rest ih => exact cons 0 here piece rest ih fun _ h => nomatch h
  | succ n ihn =>
    induction ps generalizing here with
    | nil => exact nil (n + 1) here
    | cons piece rest ih =>
      refine cons (n + 1) here piece rest ih fun m hm => ?_
      cases hm
      exact ihn

variable {d : Disk} {follow : Bool}

/-- Blank pieces, which come of slashes at the end, lead from a directory to itself. -/
theorem walkOver_blank {here : Location} (hhere : d.nodeAt here = some .directory) (n : Nat)
    {ps : List Bytes} (hps : ∀ p ∈ ps, p = []) : d.walkOver follow n here ps = .ok (.found here) := by
  induction ps with
  | nil => exact walkOver_nil d follow n here
  | cons piece rest ih =>
    have hstep : Steps d follow here piece rest (.goes here) :=
      .stays hhere (.inl (hps piece List.mem_cons_self))
    rw [walkOver_cons, hstep.step_eq]
    exact ih fun p hp => hps p (List.mem_cons_of_mem _ hp)

/-- A place that is free is a name in a directory that is there. -/
structure IsFree (d : Disk) (l : Location) : Prop where
  parent : d.nodeAt l.dropLast = some .directory
  nothing : d.nodeAt l = none
  name : ∃ piece, IsName piece ∧ slash ∉ piece ∧ l = l.dropLast ++ [piece]

/-- What `walkOver` calls `free` is a free place. -/
theorem walkOver_free {n : Nat} {here l : Location} {ps : List Bytes} {b : Bool}
    (hps : ∀ p ∈ ps, slash ∉ p) (h : d.walkOver follow n here ps = .ok (.free l b)) : d.IsFree l := by
  -- only a step can end at a free place, and the name is the piece that it takes
  induction n, here, ps using walkOver_induction with
  | nil n here => rw [walkOver_nil] at h; cases h
  | cons n here piece rest ih ihlink =>
    obtain ⟨hpiece, hrest⟩ := List.forall_mem_cons.mp hps
    rw [walkOver_cons] at h
    have hsteps := d.steps follow here piece rest
    generalize d.step follow here piece rest = s at h hsteps
    cases hsteps with
    | stays | up | file | directory => exact ih _ hrest h
    | link =>
      cases n with
      | zero => cases h
      | succ m =>
        -- the pieces of the target have no slash either
        refine ihlink m rfl _ _ ?_ h
        exact List.forall_mem_append.mpr ⟨fun p hp => slash_notMem_of_mem_cut hp, hrest⟩
    | free hhere hname hnext =>
      cases h
      exact ⟨by simpa using hhere, hnext, piece, hname, hpiece, by simp⟩
    | nowhere | inFile | inLink | tooLong | missing | lastLink | blankLink => cases h

/-- Neither `rest` nor whether links are followed matters to a step that does not end the path. -/
theorem step_of_not_ends {here : Location} {piece : Bytes} {rest : List Bytes} {s : Step}
    (hstep : d.step follow here piece rest = s) (h : ∀ r, s ≠ .ends r) (rest' : List Bytes) :
    d.step true here piece rest' = s := by
  have hsteps := d.steps follow here piece rest
  rw [hstep] at hsteps
  cases hsteps with
  | stays hhere hpiece => exact (Steps.stays hhere hpiece).step_eq
  | up hhere hpiece => exact (Steps.up hhere hpiece).step_eq
  | file hhere hname hnext => exact (Steps.file hhere hname hnext).step_eq
  | directory hhere hname hnext => exact (Steps.directory hhere hname hnext).step_eq
  | link hhere hname hnext hlast htarget =>
    exact (Steps.link hhere hname hnext (by simp) htarget).step_eq
  | _ => exact absurd rfl (h _)

theorem step_ne_found {here l : Location} {piece : Bytes} {rest : List Bytes} :
    d.step true here piece rest ≠ .ends (.ok (.found l)) := by
  intro h
  have hsteps := d.steps true here piece rest
  rw [h] at hsteps
  cases hsteps with
  | lastLink hhere hname hnext hlast => exact absurd hlast.2 (by simp)

/-- Whether the last link is followed does not matter to a place that is free. -/
theorem walkOver_free_follow {n : Nat} {here l : Location} {ps : List Bytes} {b : Bool}
    (h : d.walkOver false n here ps = .ok (.free l b)) : d.walkOver true n here ps = .ok (.free l b) := by
  induction n, here, ps using walkOver_induction with
  | nil n here => rw [walkOver_nil] at h; cases h
  | cons n here piece rest ih ihlink =>
    rw [walkOver_cons] at h ⊢
    cases hstep : d.step false here piece rest with
    | goes l' =>
      simp only [hstep] at h
      rw [step_of_not_ends hstep (by simp)]
      exact ih _ h
    | links l' target =>
      simp only [hstep] at h
      rw [step_of_not_ends hstep (by simp)]
      cases n with
      | zero => cases h
      | succ m => exact ihlink m rfl _ _ h
    | ends r =>
      simp only [hstep] at h
      -- what is not there is no link
      have hsteps := d.steps false here piece rest
      rw [hstep, h] at hsteps
      cases hsteps with
      | free hhere hname hnext hrest => rw [(Steps.free hhere hname hnext hrest).step_eq]

/-- A walk over more links differs from one over fewer only if the latter met too many. -/
theorem walkOver_mono (d : Disk) (follow : Bool) {m n : Nat} (hmn : m ≤ n) (here : Location)
    (ps : List Bytes) :
    d.walkOver follow m here ps = .error .tooManyLinks ∨
      d.walkOver follow n here ps = d.walkOver follow m here ps := by
  induction m, here, ps using walkOver_induction generalizing n with
  | nil m here => exact .inr (by rw [walkOver_nil, walkOver_nil])
  | cons m here piece rest ih ihlink =>
    rw [walkOver_cons, walkOver_cons]
    cases d.step follow here piece rest with
    | ends r => exact .inr rfl
    | goes l => exact ih l hmn
    | links l target =>
      cases m with
      | zero => exact .inl rfl
      | succ m =>
        obtain ⟨n, rfl⟩ : ∃ k, n = k + 1 := ⟨n - 1, by omega⟩
        exact ihlink m rfl l _ (by omega)

/-- What is found over `m` links is found over more. -/
theorem walkOver_found_mono {m n : Nat} (hmn : m ≤ n) {here l : Location} {ps : List Bytes}
    (h : d.walkOver follow m here ps = .ok (.found l)) : d.walkOver follow n here ps = .ok (.found l) := by
  rcases walkOver_mono d follow hmn here ps with hmany | hsame
  · rw [h] at hmany
    cases hmany
  · rw [hsame, h]

/-- Walks can be put together, with the links of both. -/
theorem walkOver_append {m n : Nat} {here l l' : Location} {ps qs : List Bytes}
    (h : d.walkOver true m here ps = .ok (.found l)) (h' : d.walkOver true n l qs = .ok (.found l')) :
    d.walkOver true (m + n) here (ps ++ qs) = .ok (.found l') := by
  induction m, here, ps using walkOver_induction with
  | nil m here =>
    rw [walkOver_nil] at h
    cases h
    exact walkOver_found_mono (Nat.le_add_left n m) h'
  | cons m here piece rest ih ihlink =>
    rw [walkOver_cons] at h
    rw [List.cons_append, walkOver_cons]
    cases hstep : d.step true here piece rest with
    | ends r =>
      simp only [hstep] at h
      exact absurd (h ▸ hstep) step_ne_found
    | goes l =>
      simp only [hstep] at h
      rw [step_of_not_ends hstep (by simp)]
      exact ih l h
    | links l target =>
      simp only [hstep] at h
      rw [step_of_not_ends hstep (by simp)]
      cases m with
      | zero => cases h
      | succ m =>
        show d.overLink true (m + 1 + n) l (target ++ (rest ++ qs)) = _
        -- a link is taken from those that the first walk may follow
        rw [Nat.succ_add, ← List.append_assoc]
        exact ihlink m rfl _ _ h

/-- A walk over `ps ++ qs` that finds something finds something after `ps`. -/
theorem walkOver_append_inv {n : Nat} {here l : Location} {ps qs : List Bytes}
    (h : d.walkOver true n here (ps ++ qs) = .ok (.found l)) :
    ∃ m mid, d.walkOver true n here ps = .ok (.found mid) ∧ d.walkOver true m mid qs = .ok (.found l) := by
  induction n, here, ps using walkOver_induction with
  | nil n here => exact ⟨n, here, walkOver_nil d true n here, h⟩
  | cons n here piece rest ih ihlink =>
    rw [List.cons_append, walkOver_cons] at h
    rw [walkOver_cons]
    cases hstep : d.step true here piece (rest ++ qs) with
    | ends r =>
      simp only [hstep] at h
      exact absurd (h ▸ hstep) step_ne_found
    | goes l' =>
      simp only [hstep] at h
      rw [step_of_not_ends hstep (by simp)]
      exact ih l' h
    | links l' target =>
      simp only [hstep] at h
      rw [step_of_not_ends hstep (by simp)]
      cases n with
      | zero => cases h
      | succ m =>
        rw [← List.append_assoc] at h
        exact ihlink m rfl _ _ h

/-! ## Disks without strays -/

/-- Every location of `entries` is there once, by a name, in a directory. -/
structure Sound (d : Disk) : Prop where
  keys : (d.entries.map Prod.fst).Nodup
  parent : ∀ {l : Location} {name : Bytes}, d.nodeAt (l ++ [name]) ≠ none → d.nodeAt l = some .directory
  name : ∀ {l : Location} {name : Bytes}, d.nodeAt (l ++ [name]) ≠ none → IsName name ∧ slash ∉ name

/-- Whether a disk is `Sound` is seen from its entries. -/
theorem sound_of_entries (h : (d.entries.map Prod.fst).Nodup ∧
      ∀ e ∈ d.entries, d.nodeAt e.1.dropLast = some .directory ∧
        ∀ name ∈ e.1.getLast?, IsName name ∧ slash ∉ name) : d.Sound := by
  obtain ⟨hkeys, hentries⟩ := h
  have hthere {l : Location} {name : Bytes} (h : d.nodeAt (l ++ [name]) ≠ none) :
      ∃ e ∈ d.entries, e.1 = l ++ [name] := by
    have hne : l ++ [name] ≠ [] := by simp
    rw [nodeAt, at?, if_neg hne, Ne, Option.map_eq_none_iff, List.lookup_eq_none_iff] at h
    simp only [Classical.not_forall] at h
    obtain ⟨e, he, hsame⟩ := h
    have hsame : l ++ [name] = e.1 := by simpa using hsame
    exact ⟨e, he, hsame.symm⟩
  refine ⟨hkeys, fun {l name} h => ?_, fun {l name} h => ?_⟩
  · obtain ⟨e, he, hlocation⟩ := hthere h
    have hparent := (hentries e he).1
    rwa [hlocation, List.dropLast_concat] at hparent
  · obtain ⟨e, he, hlocation⟩ := hthere h
    refine (hentries e he).2 name ?_
    rw [hlocation, List.getLast?_concat]
    rfl

theorem Sound.parent_dropLast (hd : d.Sound) {l : Location} (hl : d.nodeAt l = some .directory) :
    d.nodeAt l.dropLast = some .directory := by
  rcases List.eq_nil_or_concat l with rfl | ⟨init, last, rfl⟩
  · exact hl
  · rw [List.concat_eq_append] at hl ⊢
    have hthere : d.nodeAt (init ++ [last]) ≠ none := by simp [hl]
    rw [List.dropLast_concat]
    exact hd.parent hthere

/-- Whatever something lies in is a directory. -/
theorem Sound.directory_above (hd : d.Sound) {l : Location} {names : List Bytes} (hnames : names ≠ [])
    (h : d.nodeAt (l ++ names) ≠ none) : d.nodeAt l = some .directory := by
  induction names generalizing l with
  | nil => exact absurd rfl hnames
  | cons name names ih =>
    by_cases hempty : names = []
    · rw [hempty] at h
      exact hd.parent h
    · rw [← List.singleton_append, ← List.append_assoc] at h
      have hnext : d.nodeAt (l ++ [name]) ≠ none := by simp [ih hempty h]
      exact hd.parent hnext

/-- Where a path leads there is a file or a directory, or a link if the last one is not followed; so what holds of
these, `p`, holds there. A path without pieces leads nowhere else. -/
theorem Sound.walkOver_leads (hd : d.Sound) {p : Option Node → Prop} (hfile : ∀ c, p (some (.file c)))
    (hdirectory : p (some .directory)) (hlink : follow = false → ∀ t, p (some (.link t)))
    {n : Nat} {here l : Location} {ps : List Bytes} (hstart : ps = [] → p (d.nodeAt here))
    (h : d.walkOver follow n here ps = .ok (.found l)) : p (d.nodeAt l) := by
  induction n, here, ps using walkOver_induction with
  | nil n here =>
    rw [walkOver_nil] at h
    cases h
    exact hstart rfl
  | cons n here piece rest ih ihlink =>
    rw [walkOver_cons] at h
    have hsteps := d.steps follow here piece rest
    generalize d.step follow here piece rest = s at h hsteps
    cases hsteps with
    | stays hhere => exact ih _ (fun _ => hhere ▸ hdirectory) h
    | up hhere => exact ih _ (fun _ => hd.parent_dropLast hhere ▸ hdirectory) h
    | file hhere hname hnext => exact ih _ (fun _ => hnext ▸ hfile _) h
    | directory hhere hname hnext => exact ih _ (fun _ => hnext ▸ hdirectory) h
    | lastLink hhere hname hnext hlast =>
      cases h
      exact hnext ▸ hlink hlast.2 _
    | link =>
      cases n with
      | zero => cases h
      | succ m =>
        -- a target has a piece
        refine ihlink m rfl _ _ ?_ h
        intro hnil
        exact absurd (List.append_eq_nil_iff.mp hnil).1 (cut_ne_nil _)
    | nowhere | inFile | inLink | tooLong | free | missing | blankLink => cases h

/-- Where a path leads something is, if it has a piece at all. -/
theorem Sound.walkOver_found (hd : d.Sound) {n : Nat} {here l : Location} {ps : List Bytes}
    (hstart : ps = [] → d.nodeAt here ≠ none) (h : d.walkOver follow n here ps = .ok (.found l)) :
    d.nodeAt l ≠ none :=
  hd.walkOver_leads (p := (· ≠ none)) (fun _ => nofun) nofun (fun _ _ => nofun) hstart h

/-- Where links are followed to the end, no `link` is found. -/
theorem Sound.walkOver_ne_link (hd : d.Sound) {n : Nat} {here l : Location} {ps : List Bytes} {t : Bytes}
    (hstart : ps = [] → d.nodeAt here ≠ some (.link t)) (h : d.walkOver true n here ps = .ok (.found l)) :
    d.nodeAt l ≠ some (.link t) :=
  hd.walkOver_leads (p := (· ≠ some (.link t))) (fun _ => nofun) nofun (by simp) hstart h

/-- Where `locate` finds something, something is. -/
theorem Sound.locate_found (hd : d.Sound) {path : Bytes} {l : Location}
    (h : d.locate follow path = .ok (.found l)) : d.nodeAt l ≠ none := by
  rw [locate] at h
  split_ifs at h
  exact hd.walkOver_found (fun hnil => absurd hnil (cut_ne_nil path)) h

end Disk

end PayloadAtlas
