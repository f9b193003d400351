import PayloadAtlas.Proofs.Disk.Removal
import PayloadAtlas.Proofs.Path
import PayloadAtlas.Proofs.Scan.Visits

/-!
# Walks on disks from which files were taken

Some of the files that a walk finds may be taken from the disk, each where its path lies. The walk then finds the
others, in the same order (`Walk.files_without`). Two things could keep it from that: files with rules that are
found by way of what was taken, and, if links are followed, links that led there or files that lie there under
other names.
-/

namespace PayloadAtlas.Walk

open Disk Ignore

variable {w : Walk} {d : Disk} {gone : Location → Prop} {s : Standing} {n : Nat} {name : Bytes}
  {ps left : List String} {p : String} {root : Location}

/-- Where links are followed, those that are met and are left lead to the files that they led to. -/
def KeepsLinks (w : Walk) (d : Disk) (gone : Location → Prop) (met : List (List Bytes × Location)) : Prop :=
  w.followLinks = true → ∀ x ∈ met, ∀ name l c, ¬gone (x.2 ++ [name]) → d.nodeAt l = some (.file c) →
    d.walkOver true mostLinks x.2 [name] = .ok (.found l) →
      (d.without gone).walkOver true mostLinks x.2 [name] = .ok (.found l)

theorem KeepsLinks.mono {met met' : List (List Bytes × Location)} (h : w.KeepsLinks d gone met)
    (hsub : met' ⊆ met) : w.KeepsLinks d gone met' :=
  fun hfollow x hx => h hfollow x (hsub hx)

/-! ## Name by name -/

/-- What is met at a name that is left is met without the files that are `gone`. -/
theorem met?_without (hd : d.Sound) (h : d.AreFiles gone) (hgone : ¬gone (s.location ++ [name]))
    (hlinks : w.KeepsLinks d gone [(s.names, s.location)]) {met : Met} (hmet : w.met? d s name = some met) :
    w.met? (d.without gone) s name = some met := by
  have hkept : (d.without gone).nodeAt (s.location ++ [name]) = d.nodeAt (s.location ++ [name]) :=
    nodeAt_without_of_not hgone
  rw [met?_eq_some_iff] at hmet ⊢
  -- only a link that leads to a file could lead nowhere any more
  cases hmet with
  | file hnext => exact .file (hkept.trans hnext)
  | directory hnext => exact .directory (hkept.trans hnext)
  | link hnext hfollow => exact .link (hkept.trans hnext) hfollow
  | @linkedFile t l c hnext hfollow hwalk hl =>
    have hwalk' := hlinks hfollow _ List.mem_cons_self name l c hgone hl hwalk
    obtain ⟨n, hn⟩ := Option.ne_none_iff_exists'.mp ((sound_without hd h).walkOver_found (by simp) hwalk')
    have hsame := nodeAt_of_without hn
    rw [hl] at hsame
    cases hsame
    exact .linkedFile (hkept.trans hnext) hfollow hwalk' hn
  | linkedDirectory hnext hfollow hwalk hl hinside =>
    exact .linkedDirectory (hkept.trans hnext) hfollow (walkOver_without h hl hwalk) (h.nodeAt_directory hl) hinside
  | linkedOther hnext hfollow hwalk hl =>
    rcases hl with hnone | ⟨t', hl⟩
    · exact absurd hnone (hd.walkOver_found (by simp) hwalk)
    · exact absurd hl (hd.walkOver_ne_link (by simp) hwalk)

/-- The path of what a walk meets under a name `Lies` right there. -/
theorem Stands.lies (hs : w.Stands d s) (hslash : slash ∉ name) (hcollect : w.collect (s.names ++ [name]) = .ok ps)
    (hp : p ∈ ps) : d.Lies (Text.bytesOf p) (s.location ++ [name]) := by
  rw [(eq_of_mem_collect hcollect hp).2, pathOf_concat]
  exact ⟨w.pathOf s.names, s.location, name, rfl, hslash, hs.leads, rfl⟩

/-- Under a name at which something is `gone` only files were found, and these are gone. -/
theorem found_gone (hd : d.Sound) (h : d.AreFiles gone) (hs : w.Stands d s) (hgone : gone (s.location ++ [name]))
    {below : Standing → Except ScanError (List String)} (hfound : w.found d below s name = .ok ps) (hp : p ∈ ps) :
    d.Lies (Text.bytesOf p) (s.location ++ [name]) := by
  cases found_eq_ok_iff.mp hfound with
  | other | leftFile | leftDirectory => cases hp
  | file hmet hkept hcollect => exact hs.lies (name_of_met? hd (by rw [hmet]; simp)).2 hcollect hp
  | directory hmet hkept hbelow =>
    -- the name stands for a file
    obtain ⟨hl, hwalk, _⟩ := met?_directory hd hs.directory hmet
    obtain ⟨dir, name', f, heq, -, -, hfile, c, hc⟩ := h _ hgone
    obtain ⟨rfl, hname⟩ := List.append_inj' heq rfl
    cases hname
    rw [hwalk] at hfile
    cases hfile
    rw [hl] at hc
    cases hc

/-- Under a `name` that is left is found what was found, if that is so below. -/
theorem found_left (hd : d.Sound) (h : d.AreFiles gone) (hs : w.Stands d s) (hgone : ¬gone (s.location ++ [name]))
    (hlinks : w.KeepsLinks d gone [(s.names, s.location)]) {keep : String → Bool}
    (hkeep : ∀ p ∈ ps, d.Lies (Text.bytesOf p) (s.location ++ [name]) → keep p = true)
    {below below' : Standing → Except ScanError (List String)}
    (hbelow : ∀ l, w.met? d s name = some (.directory l) →
      ¬(w.leavesOut s name true || w.excludes name) = true → below (w.enter d s name l) = .ok ps →
        below' (w.enter (d.without gone) s name l) = .ok (ps.filter keep))
    (hfound : w.found d below s name = .ok ps) :
    w.found (d.without gone) below' s name = .ok (ps.filter keep) := by
  have hmet' {met : Met} (hmet : w.met? d s name = some met) : w.met? (d.without gone) s name = some met :=
    met?_without hd h hgone hlinks hmet
  rw [found_eq_ok_iff] at hfound ⊢
  cases hfound with
  | other hmet => exact .other (hmet' hmet)
  | leftFile hmet hleft => exact .leftFile (hmet' hmet) hleft
  | file hmet hkept hcollect =>
    have hslash := (name_of_met? hd (by rw [hmet]; simp)).2
    have hall : ps.filter keep = ps :=
      List.filter_eq_self.mpr fun p hp => hkeep p hp (hs.lies hslash hcollect hp)
    rw [hall]
    exact .file (hmet' hmet) hkept hcollect
  | leftDirectory hmet hleft => exact .leftDirectory (hmet' hmet) hleft
  | directory hmet hkept hus => exact .directory (hmet' hmet) hkept (hbelow _ hmet hkept hus)

/-- A walk finds what it found, but for what lay where something is `gone`. -/
theorem below_without (hd : d.Sound) (h : d.AreFiles gone) (hs : w.Stands d s)
    (hrules : w.heedsIgnoreFiles = true → ∀ x ∈ w.visits d n s, SameRules d (d.without gone) x.2)
    (hlinks : w.KeepsLinks d gone (w.visits d n s)) {keep : String → Bool}
    (hkeep : ∀ p ∈ ps, ∀ l, d.Lies (Text.bytesOf p) l → (keep p = true ↔ ¬gone l))
    (hbelow : w.below d n s = .ok ps) : w.below (d.without gone) n s = .ok (ps.filter keep) := by
  -- level by level, since the standing below a directory is the same on both disks
  induction n generalizing s ps with
  | zero =>
    cases hbelow
    rfl
  | succ n ih =>
    have hd' := sound_without hd h
    rw [below_succ hd] at hbelow
    rw [below_succ hd', names_of_retains (retains_without d gone) hd' hd]
    apply gather_filter hbelow
    · -- names that are left
      intro name hname hleft us hsub hus
      have hgone : ¬gone (s.location ++ [name]) := by
        intro hgone
        rw [nodeAt_without_of hgone (by simp)] at hleft
        cases hleft
      refine found_left hd h hs hgone (hlinks.mono ?_) (fun p hp hlies => ?_) ?_ hus
      · simpa using standing_mem_visits w d (n + 1) s
      · exact (hkeep p (hsub hp) _ hlies).mpr hgone
      · intro l hmet hleave hus
        have hvisits : w.visits d n (w.enter d s name l) ⊆ w.visits d (n + 1) s :=
          fun x hx => visits_enter_subset hname hmet hleave hx
        have henter : w.enter (d.without gone) s name l = w.enter d s name l :=
          enter_of_sameRules fun hheeds => hrules hheeds _ (hvisits (standing_mem_visits w d n _))
        rw [henter]
        exact ih (hs.enter hd hmet) (fun hheeds x hx => hrules hheeds x (hvisits hx)) (hlinks.mono hvisits)
          (fun p hp => hkeep p (hsub hp)) hus
    · -- names at which something was taken
      intro name hname hleft us hsub hus
      have hgone : gone (s.location ++ [name]) := by
        by_contra hnot
        have hthere := (mem_names hd).mp hname
        rw [nodeAt_without_of_not hnot] at hleft
        exact hthere (by simpa using hleft)
      apply List.filter_eq_nil_iff.mpr
      intro p hp hkept
      exact (hkeep p (hsub hp) _ (found_gone hd h hs hgone hus hp)).mp hkept hgone

/-! ## Whole walks -/

/-- A walk that finds some paths finds those again that are not left out, when what lies at the others is taken:
the files with rules are found as before, and so is what links lead to, and none of the paths that are not left
out lies where something was taken. -/
structure Keeps (w : Walk) (d : Disk) (ps left : List String) : Prop where
  rules : w.heedsIgnoreFiles = true → ∀ l ∈ w.ruled d, ∀ names ∈ Layer.files,
    d.KeepsFile (d.LieAt left) (rulePath l names)
  links : w.KeepsLinks d (d.LieAt left) (w.visited d)
  others : w.followLinks = true → ∀ p ∈ ps, p ∉ left → ∀ l, d.Lies (Text.bytesOf p) l → ¬d.LieAt left l

/-- What a walk finds in `files` are files, so that only files are taken. -/
theorem areFiles_of_files (hd : d.Sound) (hfiles : w.files d = .ok ps) (hleft : left ⊆ ps) :
    d.AreFiles (d.LieAt left) := by
  rintro e ⟨p, hp, hlies⟩
  obtain ⟨s, name, l, hs, hmet, hwalk, _, hcollect⟩ := entry_of_mem_files hd hfiles (hleft hp)
  obtain ⟨hname, hslash⟩ := name_of_met? hd (by rw [hmet]; simp)
  obtain ⟨l', c, hc, hwalk'⟩ := met?_file hd hs.directory hmet
  refine ⟨s.location, name, l', hlies.unique (hs.lies hslash hcollect List.mem_cons_self), ?_⟩
  exact ⟨hs.directory, hname, hwalk', c, hc⟩

/-- Where no links are followed a path that is found lies at the names that it is made of. -/
theorem names_of_lies (hfollow : w.followLinks = false) (hd : d.Sound) {root : Location}
    (hroot : d.locate true (Text.bytesOf w.root) = .ok (.found root)) (hdirectory : d.nodeAt root = some .directory)
    (hfiles : w.files d = .ok ps) (hp : p ∈ ps) {l : Location} (hlies : d.Lies (Text.bytesOf p) l) :
    ∃ names, l = root ++ names ∧ w.collect names = .ok [p] := by
  obtain ⟨s, name, m, hs, hmet, hwalk, hvisit, hcollect⟩ := entry_of_mem_files hd hfiles hp
  obtain ⟨hname, hslash⟩ := name_of_met? hd (by rw [hmet]; simp)
  obtain rfl := hlies.unique (hs.lies hslash hcollect List.mem_cons_self)
  rw [visited_eq hroot] at hvisit
  obtain ⟨hm, _⟩ := direct_of_mem_visits hfollow hdirectory (List.append_nil root).symm hd hvisit
  rw [met?_direct hfollow] at hmet
  -- what is met is a file itself, as no link is followed to one
  cases hnode : d.nodeAt (s.location ++ [name]) with
  | none => simp [hnode] at hmet
  | some node =>
    cases node with
    | file c =>
      rw [walkOver_name hs.directory hname (.inr ⟨c, hnode⟩)] at hwalk
      cases hwalk
      exact ⟨_, hm, hcollect⟩
    | directory => simp [hnode] at hmet
    | link t => simp [hnode] at hmet

theorem eq_of_lies (hfollow : w.followLinks = false) (hd : d.Sound) (hfiles : w.files d = .ok ps) {q : String}
    (hp : p ∈ ps) (hq : q ∈ ps) {l : Location} (hlies : d.Lies (Text.bytesOf p) l)
    (hlies' : d.Lies (Text.bytesOf q) l) : p = q := by
  obtain ⟨root, hroot, hdirectory⟩ := root_of_files hfiles
  obtain ⟨names, rfl, hcollect⟩ := names_of_lies hfollow hd hroot hdirectory hfiles hp hlies
  obtain ⟨names', heq, hcollect'⟩ := names_of_lies hfollow hd hroot hdirectory hfiles hq hlies'
  rw [← List.append_cancel_left heq, hcollect] at hcollect'
  cases hcollect'
  rfl

/-- The files of rules are where they were, with what they said. -/
theorem Keeps.sameRules (h : w.Keeps d ps left) (hheeds : w.heedsIgnoreFiles = true) {l : Location}
    (hl : l ∈ w.ruled d) : SameRules d (d.without (d.LieAt left)) l := by
  intro names hnames
  have hcontent : ∀ e : Disk, contentAt e l names =
      ((e.readBytes (rulePath l names)).toOption.map fun c => c.data.toList).getD [] := by
    intro e
    rw [contentAt_eq]
    cases e.readBytes (rulePath l names) <;> rfl
  rw [hcontent, hcontent, readBytes_without (h.rules hheeds l hl names hnames)]

/-- What a walk finds in `files` is in the order of the components. -/
theorem pairwise_files (h : w.files d = .ok ps) :
    ps.Pairwise fun p q => (Path.components p).map Path.key ≤ (Path.components q).map Path.key := by
  obtain ⟨root, hroot, hdirectory⟩ := root_of_files h
  rw [files_eq_ok_iff hroot hdirectory] at h
  cases h with
  | input => exact .nil
  | below => exact Path.pairwise_sorted _

/-- A path that is not `left` out stays found, and no other. -/
theorem Keeps.notMem_iff (h : w.Keeps d ps left) (hd : d.Sound) (hfiles : w.files d = .ok ps) (hleft : left ⊆ ps)
    {p : String} (hp : p ∈ ps) {l : Location} (hlies : d.Lies (Text.bytesOf p) l) :
    p ∉ left ↔ ¬d.LieAt left l := by
  constructor
  · intro hnot
    cases hfollow : w.followLinks with
    | true => exact h.others hfollow p hp hnot l hlies
    | false =>
      rintro ⟨q, hq, hlies'⟩
      exact hnot (eq_of_lies hfollow hd hfiles hp (hleft hq) hlies hlies' ▸ hq)
  · intro hnot hp'
    exact hnot ⟨p, hp', hlies⟩

/-- A walk finds what it found, but for the paths `left` at which files were taken. -/
theorem files_without (hd : d.Sound) (hfiles : w.files d = .ok ps) (hleft : left ⊆ ps) (h : w.Keeps d ps left) :
    w.files (d.without (d.LieAt left)) = .ok (ps.filter (· ∉ left)) := by
  have hgone := areFiles_of_files hd hfiles hleft
  have hkeep : ∀ p ∈ ps, ∀ l, d.Lies (Text.bytesOf p) l → (decide (p ∉ left) = true ↔ ¬d.LieAt left l) :=
    fun p hp l hlies => decide_eq_true_iff.trans (h.notMem_iff hd hfiles hleft hp hlies)
  obtain ⟨root, hroot, hdirectory⟩ := root_of_files hfiles
  have hroot' := locate_without hgone hdirectory hroot
  have hruled (hheeds : w.heedsIgnoreFiles = true) : ∀ l ∈ w.ruled d, SameRules d (d.without (d.LieAt left)) l :=
    fun l hl => h.sameRules hheeds hl
  have hsame (hheeds : w.heedsIgnoreFiles = true) :
      ∀ l ∈ above root ++ [root], SameRules d (d.without (d.LieAt left)) l := sameRules_begin hroot (hruled hheeds)
  have habove (hheeds : w.heedsIgnoreFiles = true) : ∀ l ∈ above root, SameRules d (d.without (d.LieAt left)) l :=
    fun l hl => hsame hheeds l (List.mem_append_left _ hl)
  rw [files_eq_ok_iff hroot hdirectory] at hfiles
  rw [files_eq_ok_iff hroot' (hgone.nodeAt_directory hdirectory)]
  -- a root that stands for the standard input is walked on neither disk
  cases hfiles with
  | input hinput => exact .input hinput
  | @below qs hinput hflawed hbelow =>
    rw [← Path.sorted_filter]
    refine .below hinput (by rwa [flawed_of_sameRules habove]) ?_
    have hsorted : ∀ p ∈ qs, p ∈ Path.sorted qs := fun p hp => by simpa [Path.sorted] using hp
    have hvisits (hheeds : w.heedsIgnoreFiles = true) :
        ∀ x ∈ w.visits d (deepest d) (w.begin d root), SameRules d (d.without (d.LieAt left)) x.2 :=
      fun x hx => hruled hheeds x.2 ((mem_ruled hroot).mpr (.inr ⟨x, hx, rfl⟩))
    -- what was taken was no room for more directories
    rw [begin_of_sameRules hsame, below_deepest_of_retains (retains_without d _) (sound_without hd hgone)
      (hgone.nodeAt_directory hdirectory)]
    exact below_without hd hgone (stands_begin hroot hdirectory) hvisits (visited_eq hroot ▸ h.links)
      (fun p hp => hkeep p (hsorted p hp)) hbelow

end PayloadAtlas.Walk
