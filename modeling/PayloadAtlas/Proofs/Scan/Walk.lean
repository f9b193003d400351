import PayloadAtlas.Proofs.Disk.Directory
import PayloadAtlas.Scan.Walk

/-!
# Walks, name by name

What a walk finds below a directory is what it finds under the names in it, one after the other
(`Walk.below_succ`). Directories nest no deeper than `Walk.deepest` says: every step uses up room, since it
goes to a longer location or over a link to a directory that the walk is not in, and as long as there is room
the number of steps that are allowed does not matter (`Walk.below_eq_of_room`).
-/

namespace PayloadAtlas

/-! ## Lists that are found one after the other -/

/-- What `f` finds for each item, put together, up to the first error. -/
def gather {ε α β : Type} (f : α → Except ε (List β)) : List α → Except ε (List β)
  | [] => .ok []
  | x :: xs => do return (← f x) ++ (← gather f xs)

section Gather

variable {ε α β : Type} {f g : α → Except ε (List β)} {x : α} {xs : List α} {ys : List β}

/-- All items are looked at if there is no error. -/
theorem gather_cons_eq_ok :
    gather f (x :: xs) = .ok ys ↔ ∃ us vs, f x = .ok us ∧ gather f xs = .ok vs ∧ us ++ vs = ys := by
  rw [gather]
  cases hx : f x with
  | error e => simp [bind, Except.bind]
  | ok us =>
    cases hxs : gather f xs with
    | error e => simp [bind, Except.bind]
    | ok vs => simp [bind, Except.bind, pure, Except.pure]

/-- Lists that are found one after the other by `mapM` are put together. -/
theorem mapM_eq_gather (f : α → Except ε (List β)) (xs : List α) :
    (xs.mapM f).map List.flatten = gather f xs := by
  induction xs with
  | nil => rfl
  | cons x xs ih =>
    rw [List.mapM_cons, gather, ← ih]
    cases f x with
    | error e => rfl
    | ok us => cases xs.mapM f <;> rfl

/-- What is found depends on what `f` finds for the items. -/
theorem gather_congr (h : ∀ x ∈ xs, f x = g x) : gather f xs = gather g xs := by
  induction xs with
  | nil => rfl
  | cons x xs ih =>
    obtain ⟨hx, hxs⟩ := List.forall_mem_cons.mp h
    rw [gather, gather, hx, ih hxs]

theorem gather_map {γ : Type} (k : γ → α) (zs : List γ) : gather f (zs.map k) = gather (fun z => f (k z)) zs := by
  induction zs with
  | nil => rfl
  | cons z zs ih => rw [List.map_cons, gather, gather, ih]

theorem gather_singleton (f : α → Except ε (List β)) (x : α) : gather f [x] = f x := by
  rw [gather, gather]
  cases f x with
  | error e => rfl
  | ok us => exact congrArg Except.ok (List.append_nil us)

/-- What is found for two lists is put together by `gather`, unless there is an error. -/
theorem gather_append (as bs : List α) : gather f (as ++ bs) = (do return (← gather f as) ++ (← gather f bs)) := by
  induction as with
  | nil =>
    rw [List.nil_append, gather]
    cases gather f bs <;> rfl
  | cons a as ih =>
    rw [List.cons_append, gather, gather, ih]
    -- an error of the first list comes before any of the second
    cases f a with
    | error e => rfl
    | ok us =>
      cases gather f as with
      | error e => rfl
      | ok vs =>
        cases gather f bs with
        | error e => rfl
        | ok zs => simp [bind, Except.bind, pure, Except.pure]

theorem gather_flatMap {γ : Type} (k : γ → List α) (zs : List γ) :
    gather f (zs.flatMap k) = gather (fun z => gather f (k z)) zs := by
  induction zs with
  | nil => rfl
  | cons z zs ih => rw [List.flatMap_cons, gather_append, gather, ih]

theorem gather_of_forall {g : α → List β} (h : ∀ x ∈ xs, f x = .ok (g x)) : gather f xs = .ok (xs.flatMap g) := by
  induction xs with
  | nil => rfl
  | cons x xs ih =>
    obtain ⟨hx, hxs⟩ := List.forall_mem_cons.mp h
    exact gather_cons_eq_ok.mpr ⟨g x, xs.flatMap g, hx, ih hxs, rfl⟩

/-- More items do not matter if nothing is found for them. -/
theorem gather_of_filter {p : α → Bool} (hold : ∀ x ∈ xs, p x = true → ∀ us, f x = .ok us → g x = .ok us)
    (hnew : ∀ x ∈ xs, p x = false → g x = .ok []) (h : gather f (xs.filter p) = .ok ys) :
    gather g xs = .ok ys := by
  induction xs generalizing ys with
  | nil => exact h
  | cons x xs ih =>
    obtain ⟨holdx, hold⟩ := List.forall_mem_cons.mp hold
    obtain ⟨hnewx, hnew⟩ := List.forall_mem_cons.mp hnew
    -- an item that was there finds what it found, and a new one nothing
    cases hp : p x with
    | true =>
      rw [List.filter_cons_of_pos hp, gather_cons_eq_ok] at h
      obtain ⟨us, vs, hus, hvs, heq⟩ := h
      exact gather_cons_eq_ok.mpr ⟨us, vs, holdx hp us hus, ih hold hnew hvs, heq⟩
    | false =>
      rw [List.filter_cons_of_neg (by simp [hp])] at h
      exact gather_cons_eq_ok.mpr ⟨[], ys, hnewx hp, ih hold hnew h, rfl⟩

/-- Items for which nothing is found may be left out. -/
theorem gather_filter_of_nil {p : α → Bool} (h : ∀ x ∈ xs, p x = false → f x = .ok []) :
    gather f (xs.filter p) = gather f xs := by
  induction xs with
  | nil => rfl
  | cons x xs ih =>
    obtain ⟨hx, hxs⟩ := List.forall_mem_cons.mp h
    cases hp : p x with
    | true => rw [List.filter_cons_of_pos hp, gather, gather, ih hxs]
    | false =>
      rw [List.filter_cons_of_neg (by simp [hp]), gather, hx hp, ih hxs]
      cases gather f xs <;> rfl

/-- What is left out of what is found may be left out of where it is looked for. -/
theorem gather_filter {p : α → Bool} {q : β → Bool} (h : gather f xs = .ok ys)
    (hkept : ∀ x ∈ xs, p x = true → ∀ us ⊆ ys, f x = .ok us → g x = .ok (us.filter q))
    (hout : ∀ x ∈ xs, p x = false → ∀ us ⊆ ys, f x = .ok us → us.filter q = []) :
    gather g (xs.filter p) = .ok (ys.filter q) := by
  induction xs generalizing ys with
  | nil =>
    cases h
    rfl
  | cons x xs ih =>
    obtain ⟨us, vs, hus, hvs, rfl⟩ := gather_cons_eq_ok.mp h
    have hleft := List.subset_append_left us vs
    have hright := List.subset_append_right us vs
    have hrest := ih hvs
      (fun x hx hp us hsub => hkept x (List.mem_cons_of_mem _ hx) hp us (List.Subset.trans hsub hright))
      (fun x hx hp us hsub => hout x (List.mem_cons_of_mem _ hx) hp us (List.Subset.trans hsub hright))
    rw [List.filter_append]
    cases hp : p x with
    | true =>
      rw [List.filter_cons_of_pos hp, gather_cons_eq_ok]
      exact ⟨_, _, hkept x List.mem_cons_self hp us hleft hus, hrest, rfl⟩
    | false =>
      rw [List.filter_cons_of_neg (by simp [hp]), hout x List.mem_cons_self hp us hleft hus]
      exact hrest

/-- What is found is found for one of the items. -/
theorem exists_of_mem_gather {y : β} (h : gather f xs = .ok ys) (hy : y ∈ ys) :
    ∃ x ∈ xs, ∃ us, f x = .ok us ∧ y ∈ us := by
  induction xs generalizing ys with
  | nil =>
    cases h
    cases hy
  | cons x xs ih =>
    obtain ⟨us, vs, hus, hvs, rfl⟩ := gather_cons_eq_ok.mp h
    rcases List.mem_append.mp hy with hy | hy
    · exact ⟨x, List.mem_cons_self, us, hus, hy⟩
    · obtain ⟨x', hx', hfound⟩ := ih hvs hy
      exact ⟨x', List.mem_cons_of_mem x hx', hfound⟩

/-- If there is an error of one of the items, what is found ends with the first. -/
theorem exists_gather_eq_error {e : ε} (hx : x ∈ xs) (he : f x = .error e) :
    ∃ y ∈ xs, ∃ e', f y = .error e' ∧ gather f xs = .error e' := by
  induction xs with
  | nil => cases hx
  | cons y ys ih =>
    rw [gather]
    cases hy : f y with
    | error e' => exact ⟨y, List.mem_cons_self, e', hy, rfl⟩
    | ok us =>
      have htail : x ∈ ys := by
        rcases List.mem_cons.mp hx with rfl | htail
        · rw [he] at hy
          cases hy
        · exact htail
      obtain ⟨z, hz, e', hze, hgather⟩ := ih htail
      refine ⟨z, List.mem_cons_of_mem y hz, e', hze, ?_⟩
      rw [hgather]
      rfl

end Gather

namespace Walk

open Disk

variable {w : Walk} {d d' : Disk} {s : Standing} {name : Bytes}

/-! ## Steps of a walk -/

local instance lawfulBEq_location : LawfulBEq Location := inferInstance

/-- What is met under a `name` where a walk stands. -/
def met? (w : Walk) (d : Disk) (s : Standing) (name : Bytes) : Option Met :=
  match d.nodeAt (s.location ++ [name]) with
  | some (.file _) => some .file
  | some .directory => some (.directory (s.location ++ [name]))
  | some (.link _) =>
    if !w.followLinks then some .other
    else
      match d.walkOver true mostLinks s.location [name] with
      | .ok (.found l) =>
        match d.nodeAt l with
        | some .directory => if l ∈ s.inside then none else some (.directory l)
        | some (.file _) => some .file
        | _ => some .other
      | _ => none
  | none => none

/-- How something is met under a `name` where a walk stands. A link is followed to a file or to a directory that the
walk is not in. -/
inductive MetAs (w : Walk) (d : Disk) (s : Standing) (name : Bytes) : Met → Prop
  | file {c : Content} (hnext : d.nodeAt (s.location ++ [name]) = some (.file c)) : MetAs w d s name .file
  | directory (hnext : d.nodeAt (s.location ++ [name]) = some .directory) :
      MetAs w d s name (.directory (s.location ++ [name]))
  | link {t : Bytes} (hnext : d.nodeAt (s.location ++ [name]) = some (.link t)) (hfollow : w.followLinks = false) :
      MetAs w d s name .other
  | linkedFile {t : Bytes} {l : Location} {c : Content}
      (hnext : d.nodeAt (s.location ++ [name]) = some (.link t)) (hfollow : w.followLinks = true)
      (hwalk : d.walkOver true mostLinks s.location [name] = .ok (.found l)) (hl : d.nodeAt l = some (.file c)) :
      MetAs w d s name .file
  | linkedDirectory {t : Bytes} {l : Location}
      (hnext : d.nodeAt (s.location ++ [name]) = some (.link t)) (hfollow : w.followLinks = true)
      (hwalk : d.walkOver true mostLinks s.location [name] = .ok (.found l)) (hl : d.nodeAt l = some .directory)
      (hinside : l ∉ s.inside) : MetAs w d s name (.directory l)
  | linkedOther {t : Bytes} {l : Location}
      (hnext : d.nodeAt (s.location ++ [name]) = some (.link t)) (hfollow : w.followLinks = true)
      (hwalk : d.walkOver true mostLinks s.location [name] = .ok (.found l))
      (hl : d.nodeAt l = none ∨ ∃ t', d.nodeAt l = some (.link t')) : MetAs w d s name .other

/-- What is met is as `MetAs` says. -/
theorem met?_eq_some_iff {met : Met} : w.met? d s name = some met ↔ w.MetAs d s name met := by
  constructor
  · intro h
    rw [met?] at h
    split at h
    · next c hnext =>
      cases h
      exact .file hnext
    · next hnext =>
      cases h
      exact .directory hnext
    · next t hnext =>
      split at h
      · next hfollow =>
        cases h
        exact .link hnext (by simpa using hfollow)
      · next hfollow =>
        have hfollow : w.followLinks = true := by simpa using hfollow
        split at h
        · next l hwalk =>
          split at h
          · next hl =>
            split_ifs at h with hinside
            cases h
            exact .linkedDirectory hnext hfollow hwalk hl hinside
          · next c hl =>
            cases h
            exact .linkedFile hnext hfollow hwalk hl
          · next hnot hnot' =>
            cases h
            -- neither a file nor a directory is there
            refine .linkedOther hnext hfollow hwalk ?_
            rcases hl : d.nodeAt l with _ | _ | _ | t'
            · exact .inl rfl
            · exact absurd hl (hnot' _)
            · exact absurd hl hnot
            · exact .inr ⟨t', rfl⟩
        · cases h
    · cases h
  · intro h
    cases h with
    | file hnext => simp [met?, hnext]
    | directory hnext => simp [met?, hnext]
    | link hnext hfollow => simp [met?, hnext, hfollow]
    | linkedFile hnext hfollow hwalk hl => simp [met?, hnext, hfollow, hwalk, hl]
    | linkedDirectory hnext hfollow hwalk hl hinside => simp [met?, hnext, hfollow, hwalk, hl, hinside]
    | linkedOther hnext hfollow hwalk hl =>
      rcases hl with hl | ⟨t', hl⟩
      · simp [met?, hnext, hfollow, hwalk, hl]
      · simp [met?, hnext, hfollow, hwalk, hl]

/-- What is found under a `name`, by what is found `below` directories. -/
def found (w : Walk) (d : Disk) (below : Standing → Except ScanError (List String)) (s : Standing)
    (name : Bytes) : Except ScanError (List String) :=
  match w.met? d s name with
  | none => .error badLink
  | some .other => .ok []
  | some .file => if w.leavesOut s name false then .ok [] else w.collect (s.names ++ [name])
  | some (.directory l) =>
    if w.leavesOut s name true || w.excludes name then .ok [] else below (w.enter d s name l)

/-- What a walk finds under a `name`: nothing where it does not go on, a file that it takes, or what is `below`. -/
inductive FindsUnder (w : Walk) (d : Disk) (below : Standing → Except ScanError (List String)) (s : Standing)
    (name : Bytes) : List String → Prop
  | other (hmet : w.met? d s name = some .other) : FindsUnder w d below s name []
  | leftFile (hmet : w.met? d s name = some .file) (hleft : w.leavesOut s name false = true) :
      FindsUnder w d below s name []
  | file {ps : List String} (hmet : w.met? d s name = some .file) (hkept : ¬w.leavesOut s name false = true)
      (hcollect : w.collect (s.names ++ [name]) = .ok ps) : FindsUnder w d below s name ps
  | leftDirectory {l : Location} (hmet : w.met? d s name = some (.directory l))
      (hleft : (w.leavesOut s name true || w.excludes name) = true) : FindsUnder w d below s name []
  | directory {l : Location} {ps : List String} (hmet : w.met? d s name = some (.directory l))
      (hkept : ¬(w.leavesOut s name true || w.excludes name) = true)
      (hbelow : below (w.enter d s name l) = .ok ps) : FindsUnder w d below s name ps

/-- What is found under a name is as `FindsUnder` says. -/
theorem found_eq_ok_iff {below : Standing → Except ScanError (List String)} {ps : List String} :
    w.found d below s name = .ok ps ↔ w.FindsUnder d below s name ps := by
  constructor
  · intro h
    rw [found] at h
    split at h
    · cases h
    · next hmet =>
      cases h
      exact .other hmet
    · next hmet =>
      split_ifs at h with hleft
      · cases h
        exact .leftFile hmet hleft
      · exact .file hmet hleft h
    · next l hmet =>
      split_ifs at h with hleft
      · cases h
        exact .leftDirectory hmet hleft
      · exact .directory hmet hleft h
  · intro h
    cases h with
    | other hmet => rw [found, hmet]
    | leftFile hmet hleft => simp only [found, hmet, if_pos hleft]
    | file hmet hkept hcollect => simp only [found, hmet, if_neg hkept, hcollect]
    | leftDirectory hmet hleft => simp only [found, hmet, if_pos hleft]
    | directory hmet hkept hbelow => simp only [found, hmet, if_neg hkept, hbelow]

/-- What is found under a name depends on what is met there, and on what is found below a directory. -/
theorem found_congr {below below' : Standing → Except ScanError (List String)}
    (hmet : w.met? d' s name = w.met? d s name)
    (hbelow : ∀ l, w.met? d s name = some (.directory l) → ¬(w.leavesOut s name true || w.excludes name) = true →
      below' (w.enter d' s name l) = below (w.enter d s name l)) :
    w.found d' below' s name = w.found d below s name := by
  rw [found, found, hmet]
  split
  · rfl
  · rfl
  · rfl
  · next l hdirectory =>
    split
    · rfl
    · next hkept => exact hbelow l hdirectory hkept

/-- An entry in the list of a directory is met by `meet?` as what is there. -/
theorem meet?_eq_met? {e : Entry} (he : d.at? (s.location ++ [name]) = some e) :
    w.meet? d s.inside s.location name e = w.met? d s name := by
  rw [meet?, met?, nodeAt, he]
  obtain ⟨_ | _ | _, _⟩ := e
  · rfl
  · rfl
  · dsimp only [Option.map_some]
    -- a link is looked at where it leads
    split
    · rfl
    · cases d.walkOver true mostLinks s.location [name] with
      | error _ => rfl
      | ok place =>
        cases place with
        | free _ _ => rfl
        | found l =>
          simp only [nodeAt]
          cases d.at? l with
          | none => rfl
          | some e => obtain ⟨_ | _ | _, _⟩ := e <;> rfl

theorem bind_flatten_eq_gather {ε α β : Type} (f : α → Except ε (List β)) (xs : List α) :
    (xs.mapM f >>= fun found => pure found.flatten) = gather f xs := by
  rw [← mapM_eq_gather]
  cases xs.mapM f <;> rfl

/-- What is below a directory is what is `found` under the names in it. -/
theorem below_succ (hd : d.Sound) (w : Walk) (n : Nat) (s : Standing) :
    w.below d (n + 1) s = gather (w.found d (w.below d n) s) (d.names s.location) := by
  rw [names, gather_map, below, bind_flatten_eq_gather]
  apply gather_congr
  rintro ⟨name, e⟩ hc
  have hmet : w.meet? d s.inside s.location name e = w.met? d s name := meet?_eq_met? ((mem_children hd).mp hc)
  rw [found]
  exact hmet ▸ rfl

/-! ## What a step leads to -/

/-- A name leads by `walkOver` to the file or the directory that is there. -/
theorem walkOver_name (hlocation : d.nodeAt s.location = some .directory) (hname : IsName name)
    (hnext : d.nodeAt (s.location ++ [name]) = some .directory ∨
      ∃ c, d.nodeAt (s.location ++ [name]) = some (.file c)) (n : Nat) :
    d.walkOver true n s.location [name] = .ok (.found (s.location ++ [name])) := by
  have hstep : Steps d true s.location name [] (.goes (s.location ++ [name])) := by
    rcases hnext with hdirectory | ⟨c, hfile⟩
    · exact .directory hlocation hname hdirectory
    · exact .file hlocation hname hfile
  rw [walkOver_cons, hstep.step_eq]
  exact walkOver_nil d true n _

/-- Nothing is met but under a name. -/
theorem name_of_met? (hd : d.Sound) (h : w.met? d s name ≠ none) : IsName name ∧ slash ∉ name := by
  apply hd.name (l := s.location)
  intro hnone
  rw [met?, hnone] at h
  exact h rfl

theorem met?_directory (hd : d.Sound) (hlocation : d.nodeAt s.location = some .directory) {l : Location}
    (h : w.met? d s name = some (.directory l)) :
    d.nodeAt l = some .directory ∧ d.walkOver true mostLinks s.location [name] = .ok (.found l) ∧
      (l = s.location ++ [name] ∨ l ∉ s.inside) := by
  obtain ⟨hname, _⟩ := name_of_met? hd (by rw [h]; simp)
  cases met?_eq_some_iff.mp h with
  | directory hnext => exact ⟨hnext, walkOver_name hlocation hname (.inl hnext) _, .inl rfl⟩
  | linkedDirectory _ _ hwalk hl hinside => exact ⟨hl, hwalk, .inr hinside⟩

theorem met?_file (hd : d.Sound) (hlocation : d.nodeAt s.location = some .directory)
    (h : w.met? d s name = some .file) :
    ∃ l c, d.nodeAt l = some (.file c) ∧
      d.walkOver true mostLinks s.location [name] = .ok (.found l) := by
  obtain ⟨hname, _⟩ := name_of_met? hd (by rw [h]; simp)
  cases met?_eq_some_iff.mp h with
  | file hnext => exact ⟨_, _, hnext, walkOver_name hlocation hname (.inr ⟨_, hnext⟩) _⟩
  | linkedFile _ _ hwalk hl => exact ⟨_, _, hl, hwalk⟩

/-! ## Room -/

/-- How much deeper a walk can go: over a link to each directory that it is not in, and then down. -/
def room (locations : List Location) (longest : Nat) (s : Standing) : Nat :=
  (locations.filter (· ∉ s.inside)).length * (longest + 1) + (longest - s.location.length)

variable {locations : List Location} {longest : Nat}

/-- Each step into a directory uses up `room`. -/
theorem room_enter_lt (hlocations : ∀ l, d.nodeAt l = some .directory → l ∈ locations)
    (hlongest : ∀ l ∈ locations, l.length ≤ longest) (hd : d.Sound)
    (hlocation : d.nodeAt s.location = some .directory) {l : Location}
    (h : w.met? d s name = some (.directory l)) :
    room locations longest (w.enter d s name l) < room locations longest s := by
  obtain ⟨hl, _, hway⟩ := met?_directory hd hlocation h
  have hmem := hlocations l hl
  have hlength := hlongest l hmem
  have hfilter : locations.filter (· ∉ l :: s.inside) =
      (locations.filter (· ∉ s.inside)).filter (· ≠ l) := by
    rw [List.filter_filter]
    congr 1
    funext m
    simp [not_or]
  show (locations.filter (· ∉ l :: s.inside)).length * (longest + 1) + (longest - l.length) <
    (locations.filter (· ∉ s.inside)).length * (longest + 1) + (longest - s.location.length)
  rw [hfilter]
  rcases hway with rfl | hinside
  · -- down: the location is longer
    have hle := List.length_filter_le (· ≠ s.location ++ [name]) (locations.filter (· ∉ s.inside))
    have hmul := Nat.mul_le_mul_right (longest + 1) hle
    rw [List.length_append, List.length_singleton] at hlength ⊢
    omega
  · -- over a link: there is one directory less that the walk is not in
    have hlt : ((locations.filter (· ∉ s.inside)).filter (· ≠ l)).length <
        (locations.filter (· ∉ s.inside)).length := by
      apply List.length_filter_lt_length_iff_exists.mpr
      exact ⟨l, List.mem_filter.mpr ⟨hmem, by simpa using hinside⟩, by simp⟩
    have hmul := Nat.mul_le_mul_right (longest + 1) hlt
    rw [Nat.succ_mul] at hmul
    omega

/-- As long as there is `room` the number of steps that are allowed does not matter. -/
theorem below_eq_of_room (hlocations : ∀ l, d.nodeAt l = some .directory → l ∈ locations)
    (hlongest : ∀ l ∈ locations, l.length ≤ longest) (hd : d.Sound) {m n : Nat}
    (hlocation : d.nodeAt s.location = some .directory) (hm : room locations longest s < m)
    (hn : room locations longest s < n) : w.below d m s = w.below d n s := by
  induction m generalizing n s with
  | zero => exact absurd hm (Nat.not_lt_zero _)
  | succ m ih =>
    obtain ⟨n, rfl⟩ : ∃ k, n = k + 1 := ⟨n - 1, by omega⟩
    rw [below_succ hd, below_succ hd]
    apply gather_congr
    intro name _
    refine found_congr rfl fun l hmet _ => ?_
    have hless := room_enter_lt hlocations hlongest hd hlocation hmet
    exact ih (met?_directory hd hlocation hmet).1 (by omega) (by omega)

/-- The locations of a disk, and the root. -/
def locationsOf (d : Disk) : List Location := [] :: d.entries.map Prod.fst

theorem mem_locationsOf {l : Location} (h : d.nodeAt l ≠ none) : l ∈ locationsOf d := by
  by_cases hl : l = []
  · simp [locationsOf, hl]
  · rw [nodeAt, at?, if_neg hl] at h
    cases hlookup : d.entries.lookup l with
    | none => simp [hlookup] at h
    | some e =>
      obtain ⟨before, after, heq, _⟩ := List.lookup_eq_some_iff.mp hlookup
      simp [locationsOf, heq]

/-- No location of a disk is longer than the longest. -/
theorem length_le_of_mem_locationsOf {l : Location} (h : l ∈ locationsOf d) :
    l.length ≤ (d.entries.map fun e => e.1.length).foldr max 0 := by
  have hmax : ∀ (xs : List (Location × Entry)), ∀ l ∈ xs.map Prod.fst,
      l.length ≤ (xs.map fun e => e.1.length).foldr max 0 := by
    intro xs
    induction xs with
    | nil => simp
    | cons x xs ih =>
      intro l hl
      rw [List.map_cons, List.foldr_cons]
      rcases List.mem_cons.mp hl with rfl | hl
      · exact Nat.le_max_left _ _
      · exact Nat.le_trans (ih l hl) (Nat.le_max_right _ _)
  rcases List.mem_cons.mp h with rfl | h
  · exact Nat.zero_le _
  · exact hmax d.entries l h

/-- There is always `room` for as many steps as a walk may take. -/
theorem room_lt_deepest (d : Disk) (s : Standing) :
    room (locationsOf d) ((d.entries.map fun e => e.1.length).foldr max 0) s < deepest d := by
  rw [room, deepest]
  generalize (d.entries.map fun e => e.1.length).foldr max 0 = longest
  have hle : ((locationsOf d).filter (· ∉ s.inside)).length ≤ d.entries.length + 1 := by
    refine Nat.le_trans (List.length_filter_le _ _) ?_
    simp [locationsOf]
  have hmul := Nat.mul_le_mul_right (longest + 1) hle
  have hsplit : (d.entries.length + 2) * (longest + 1) =
      (d.entries.length + 1) * (longest + 1) + (longest + 1) := Nat.succ_mul _ _
  omega

/-- A disk that grew allows enough steps for what was there before. -/
theorem below_deepest_of_retains {written : List Location} (h : Retains written d d') (hd : d.Sound)
    (hlocation : d.nodeAt s.location = some .directory) :
    w.below d (deepest d) s = w.below d (deepest d') s := by
  have hown : w.below d (deepest d) s = w.below d (deepest d + deepest d') s :=
    below_eq_of_room (fun l hl => mem_locationsOf (by simp [hl]))
      (fun l hl => length_le_of_mem_locationsOf hl) hd hlocation (room_lt_deepest d s)
      (Nat.lt_of_lt_of_le (room_lt_deepest d s) (Nat.le_add_right _ _))
  have hother : w.below d (deepest d') s = w.below d (deepest d + deepest d') s :=
    below_eq_of_room (fun l hl => mem_locationsOf (by simp [h.directory hl]))
      (fun l hl => length_le_of_mem_locationsOf hl) hd hlocation (room_lt_deepest d' s)
      (Nat.lt_of_lt_of_le (room_lt_deepest d' s) (Nat.le_add_left _ _))
  rw [hown, hother]

theorem below_deepest_of_grown {written : List Location} (h : Grown written d d') (hd : d.Sound)
    (hlocation : d.nodeAt s.location = some .directory) :
    w.below d (deepest d) s = w.below d (deepest d') s := below_deepest_of_retains h.retains hd hlocation

end Walk

end PayloadAtlas
