import Mathlib.Tactic.SplitIfs
import PayloadAtlas.Proofs.Disk.Path

/-!
# Disks that grow

Making directories and writing files takes nothing away: directories and links stay as they are, files stay
files, and what is new is a directory or one of the files that were written (`Disk.Grown`). Every change of
that kind makes a disk grow (`makeDirectories_grown`, `writeBytes_ok`), and growth goes on from one disk to the
next (`Grown.trans`).

A path that met nothing missing leads where it led before (`locate_of_grown`), and a path that led to a free
place leads to what has been put there (`locate_of_free`). So after a file was written its path leads to it.
-/

namespace PayloadAtlas

/-- What something is, but for the bytes of a file that gives them; that a file is `refused` belongs to its outline.
-/
def Node.outline : Node → Node
  | .file (.bytes _) => .file (.bytes ⟨#[]⟩)
  | n => n

/-- Whether something can be where a path leads that says, with `directory`, that it is a directory, or does not say
so. -/
def Node.Suits (directory : Bool) : Node → Prop
  | .directory => True
  | .file _ => directory = false
  | .link _ => False

namespace Disk

/-! ## Growth -/

/-- Nothing was taken away from `d`, and what is new in `d'` is a directory or a file among those `written`. -/
structure Grown (written : List Location) (d d' : Disk) : Prop where
  working : d'.working = d.working
  kept : ∀ {l n}, d.nodeAt l = some n →
    ∃ n', d'.nodeAt l = some n' ∧ n'.outline = n.outline ∧ (l ∉ written → n' = n)
  fresh : ∀ {l n}, d'.nodeAt l = some n → d.nodeAt l = none →
    n = .directory ∨ l ∈ written ∧ ∃ b, n = .file (.bytes b)
  sound : d.Sound → d'.Sound

/-- Nothing was taken away from `d`, and what was there says the same in `d'`, but for files among those `written`. -/
structure Retains (written : List Location) (d d' : Disk) : Prop where
  working : d'.working = d.working
  kept : ∀ {l n}, d.nodeAt l = some n →
    ∃ n', d'.nodeAt l = some n' ∧ n'.outline = n.outline ∧ (l ∉ written → n' = n)

theorem Grown.retains {written : List Location} {d d' : Disk} (h : Grown written d d') : Retains written d d' :=
  ⟨h.working, h.kept⟩

namespace Retains

variable {written : List Location} {d d' : Disk}

theorem directory (h : Retains written d d') {l : Location} (hl : d.nodeAt l = some .directory) :
    d'.nodeAt l = some .directory := by
  obtain ⟨n', hn', houtline, _⟩ := h.kept hl
  rcases n' with (c | c) | _ | t
  · cases houtline
  · cases houtline
  · exact hn'
  · cases houtline

/-- A link leads where it led. -/
theorem link (h : Retains written d d') {l : Location} {t : Bytes} (hl : d.nodeAt l = some (.link t)) :
    d'.nodeAt l = some (.link t) := by
  obtain ⟨n', hn', houtline, _⟩ := h.kept hl
  rcases n' with (c | c) | _ | t'
  · cases houtline
  · cases houtline
  · cases houtline
  · cases houtline
    exact hn'

/-- A file that gives its bytes goes on to do so, and gives the same ones unless it was `written`. -/
theorem bytes (h : Retains written d d') {l : Location} {b : ByteArray}
    (hl : d.nodeAt l = some (.file (.bytes b))) :
    ∃ b', d'.nodeAt l = some (.file (.bytes b')) ∧ (l ∉ written → b' = b) := by
  obtain ⟨n', hn', houtline, hsame⟩ := h.kept hl
  rcases n' with (b' | m) | _ | t
  · exact ⟨b', hn', fun hnot => by cases hsame hnot; rfl⟩
  · cases houtline
  · cases houtline
  · cases houtline

/-- A file stays a file, with the same content unless it was `written`. -/
theorem file (h : Retains written d d') {l : Location} {c : Content}
    (hl : d.nodeAt l = some (.file c)) :
    ∃ c', d'.nodeAt l = some (.file c') ∧ (l ∉ written → c' = c) := by
  cases c with
  | bytes b =>
    obtain ⟨b', hb', hsame⟩ := h.bytes hl
    exact ⟨.bytes b', hb', fun hnot => by rw [hsame hnot]⟩
  | refused m =>
    obtain ⟨n', hn', houtline, hsame⟩ := h.kept hl
    rcases n' with (b' | m') | _ | t
    · cases houtline
    · exact ⟨.refused m', hn', fun hnot => by cases hsame hnot; rfl⟩
    · cases houtline
    · cases houtline

end Retains

namespace Grown

variable {written written' : List Location} {d d' d'' : Disk}

theorem refl (written : List Location) (d : Disk) : Grown written d d where
  working := rfl
  kept := fun {_ n} h => ⟨n, h, rfl, fun _ => rfl⟩
  fresh h h' := by rw [h'] at h; cases h
  sound h := h

/-- More files may count as `written`. -/
theorem mono (h : Grown written d d') (hsub : ∀ l ∈ written, l ∈ written') : Grown written' d d' where
  working := h.working
  kept hl := by
    obtain ⟨n', hn', houtline, hsame⟩ := h.kept hl
    exact ⟨n', hn', houtline, fun hnot => hsame fun hmem => hnot (hsub _ hmem)⟩
  fresh hl hnone := (h.fresh hl hnone).imp_right fun ⟨hmem, hfile⟩ => ⟨hsub _ hmem, hfile⟩
  sound := h.sound

theorem directory (h : Grown written d d') {l : Location} (hl : d.nodeAt l = some .directory) :
    d'.nodeAt l = some .directory := h.retains.directory hl

/-- Growth goes on: `d''` has grown out of `d` if it has out of `d'`, and `d'` out of `d`. -/
theorem trans (h : Grown written d d') (h' : Grown written d' d'') : Grown written d d'' where
  working := h'.working.trans h.working
  kept hl := by
    obtain ⟨n', hn', houtline, hsame⟩ := h.kept hl
    obtain ⟨n'', hn'', houtline', hsame'⟩ := h'.kept hn'
    exact ⟨n'', hn'', houtline'.trans houtline, fun hnot => (hsame' hnot).trans (hsame hnot)⟩
  fresh := fun {l n} hl hnone => by
    -- what is new at the end is new in the second step, or was new in the first
    cases hmid : d'.nodeAt l with
    | none => exact h'.fresh hl hmid
    | some m =>
      rcases h.fresh hmid hnone with rfl | ⟨hmem, c, rfl⟩
      · have hkept := h'.directory hmid
        rw [hl] at hkept
        exact .inl (Option.some.inj hkept)
      · obtain ⟨b', hb', _⟩ := h'.retains.bytes hmid
        rw [hl] at hb'
        exact .inr ⟨hmem, b', Option.some.inj hb'⟩
  sound hd := h'.sound (h.sound hd)

end Grown

theorem nodup_put {d : Disk} (h : (d.entries.map Prod.fst).Nodup) (l : Location) (e : Entry) :
    ((d.put l e).entries.map Prod.fst).Nodup :=
  Association.nodup_set h e

theorem nodup_place {d : Disk} (h : (d.entries.map Prod.fst).Nodup) (l : Location) (node : Node) :
    ((d.place l node).entries.map Prod.fst).Nodup := by
  have hput := nodup_put h l ⟨node, d.clock⟩
  rw [place]
  split
  · rw [touch]
    split
    · exact nodup_put hput _ _
    · exact hput
  · exact hput

/-- A node is put at the name `piece` of a directory, but not over a directory, and the disk stays sound. -/
theorem Sound.place {d : Disk} (h : d.Sound) {l : Location} {piece : Bytes} (hname : IsName piece)
    (hslash : slash ∉ piece) (hl : l = l.dropLast ++ [piece])
    (hparent : d.nodeAt l.dropLast = some .directory) (hl' : d.nodeAt l ≠ some .directory) (node : Node) :
    (d.place l node).Sound where
  keys := nodup_place h.keys l node
  parent := fun {m name} hm => by
    rw [nodeAt_place] at hm
    have hdirectory : d.nodeAt m = some .directory := by
      split at hm
      · next heq =>
        rw [← heq.1, List.dropLast_concat] at hparent
        exact hparent
      · exact h.parent hm
    -- nothing is put over the directory that `m` is
    have hne : ¬(m = l ∧ l ≠ []) := by
      rintro ⟨rfl, _⟩
      exact hl' hdirectory
    rw [nodeAt_place, if_neg hne, hdirectory]
  name := fun {m name} hm => by
    rw [nodeAt_place] at hm
    split at hm
    · next heq =>
      have hlast : name = piece := by
        have hsame := heq.1.trans hl
        exact List.singleton_inj.mp (List.append_inj_right' hsame rfl)
      exact hlast ▸ ⟨hname, hslash⟩
    · exact h.name hm

/-- A disk stays `Sound` when a node is put at a free place. -/
theorem Sound.place_free {d : Disk} (h : d.Sound) {l : Location} (hl : d.IsFree l) (node : Node) :
    (d.place l node).Sound := by
  obtain ⟨piece, hname, hslash, heq⟩ := hl.name
  exact h.place hname hslash heq hl.parent (by simp [hl.nothing]) node

/-- A disk stays `Sound` when a node is put over a file. -/
theorem Sound.place_file {d : Disk} (h : d.Sound) {l : Location} {c : Content}
    (hl : d.nodeAt l = some (.file c)) (node : Node) : (d.place l node).Sound := by
  have hne : l ≠ [] := by
    rintro rfl
    rw [nodeAt_nil] at hl
    cases hl
  have heq : l = l.dropLast ++ [l.getLast hne] := (List.dropLast_concat_getLast hne).symm
  have hthere : d.nodeAt (l.dropLast ++ [l.getLast hne]) ≠ none := by
    rw [← heq, hl]
    simp
  obtain ⟨hname, hslash⟩ := h.name hthere
  exact h.place hname hslash heq (h.parent hthere) (by simp [hl]) node

/-- Making a directory where nothing was is growth. -/
theorem place_directory_grown {d : Disk} {l : Location} (h : d.IsFree l) (written : List Location) :
    Grown written d (d.place l .directory) where
  working := working_place d l .directory
  kept := fun {m n} hm => by
    have hne : ¬(m = l ∧ l ≠ []) := by
      rintro ⟨rfl, _⟩
      rw [h.nothing] at hm
      cases hm
    exact ⟨n, by rw [nodeAt_place, if_neg hne, hm], rfl, fun _ => rfl⟩
  fresh := fun {m n} hm hnone => by
    rw [nodeAt_place] at hm
    split at hm
    · exact .inl (Option.some.inj hm).symm
    · rw [hnone] at hm
      cases hm
  sound hd := hd.place_free h .directory

/-- Writing a file where nothing was, or over another file that gives its bytes, is growth at `l`. -/
theorem place_file_grown {d : Disk} {l : Location} (h : d.IsFree l ∨ ∃ b, d.nodeAt l = some (.file (.bytes b)))
    (content : ByteArray) : Grown [l] d (d.place l (.file (.bytes content))) where
  working := working_place d l (.file (.bytes content))
  kept := fun {m n} hm => by
    rw [nodeAt_place]
    split
    · next hml =>
      obtain ⟨rfl, _⟩ := hml
      rcases h with hfree | ⟨c, hc⟩
      · rw [hfree.nothing] at hm
        cases hm
      · rw [hc] at hm
        cases hm
        exact ⟨_, rfl, rfl, fun hnot => absurd List.mem_cons_self hnot⟩
    · exact ⟨n, hm, rfl, fun _ => rfl⟩
  fresh := fun {m n} hm hnone => by
    rw [nodeAt_place] at hm
    split at hm
    · next hml => exact .inr ⟨by rw [hml.1]; exact List.mem_cons_self, content, (Option.some.inj hm).symm⟩
    · rw [hnone] at hm
      cases hm
  sound hd := h.elim (fun hfree => hd.place_free hfree _) fun ⟨_, hc⟩ => hd.place_file hc _

/-- Writing over a file that is there takes nothing away either when it is undone. -/
theorem place_file_shrunk {d : Disk} {l : Location} {b : ByteArray} (h : d.nodeAt l = some (.file (.bytes b)))
    (hd : d.Sound) (content : ByteArray) : Grown [l] (d.place l (.file (.bytes content))) d where
  working := (working_place d l (.file (.bytes content))).symm
  kept := fun {m n} hm => by
    rw [nodeAt_place] at hm
    split at hm
    · next hml =>
      cases hm
      rw [hml.1, h]
      exact ⟨_, rfl, rfl, fun hnot => absurd List.mem_cons_self hnot⟩
    · exact ⟨n, hm, rfl, fun _ => rfl⟩
  fresh := fun {m n} hm hnone => by
    rw [nodeAt_place] at hnone
    split at hnone
    · cases hnone
    · rw [hm] at hnone
      cases hnone
  sound _ := hd

/-! ## Paths -/

/-- Nothing was missing on the way: the path did not end at a `free` place or as `notFound`. -/
def Settles (r : Except FileError Place) : Prop :=
  (∀ l directory, r ≠ .ok (.free l directory)) ∧ r ≠ .error .notFound

theorem settles_found (l : Location) : Settles (.ok (.found l)) := ⟨by simp, by simp⟩

variable {written : List Location} {d d' : Disk} {follow : Bool}

/-- A step of a path that meets nothing missing is the same on a disk that retains all. -/
theorem step_of_retains (h : Retains written d d') {here : Location} {piece : Bytes} {rest : List Bytes}
    (hr : ∀ r, d.step follow here piece rest = .ends r → Settles r) :
    d'.step follow here piece rest = d.step follow here piece rest := by
  have hsteps := d.steps follow here piece rest
  generalize d.step follow here piece rest = s at hr hsteps
  -- a step looks at the directory it is in and at the entry of one name, and both are retained
  cases hsteps with
  | nowhere => exact absurd rfl (hr _ rfl).2
  | inFile hhere =>
    obtain ⟨c', hc', _⟩ := h.file hhere
    exact (Steps.inFile hc').step_eq
  | inLink hhere => exact (Steps.inLink (h.link hhere)).step_eq
  | stays hhere hpiece => exact (Steps.stays (h.directory hhere) hpiece).step_eq
  | up hhere hpiece => exact (Steps.up (h.directory hhere) hpiece).step_eq
  | tooLong hhere hne hdot hdots hlong =>
    exact (Steps.tooLong (h.directory hhere) hne hdot hdots hlong).step_eq
  | free => exact absurd rfl ((hr _ rfl).1 _ _)
  | missing => exact absurd rfl (hr _ rfl).2
  | file hhere hname hnext =>
    obtain ⟨c', hc', _⟩ := h.file hnext
    exact (Steps.file (h.directory hhere) hname hc').step_eq
  | directory hhere hname hnext =>
    exact (Steps.directory (h.directory hhere) hname (h.directory hnext)).step_eq
  | lastLink hhere hname hnext hlast =>
    exact (Steps.lastLink (h.directory hhere) hname (h.link hnext) hlast).step_eq
  | blankLink => exact absurd rfl (hr _ rfl).2
  | link hhere hname hnext hlast htarget =>
    exact (Steps.link (h.directory hhere) hname (h.link hnext) hlast htarget).step_eq

/-- A walk that met nothing missing goes as it went before. -/
theorem walkOver_of_retains (h : Retains written d d') {n : Nat} {here : Location} {ps : List Bytes}
    (hr : Settles (d.walkOver follow n here ps)) :
    d'.walkOver follow n here ps = d.walkOver follow n here ps := by
  induction n, here, ps using walkOver_induction with
  | nil n here => rw [walkOver_nil, walkOver_nil]
  | cons n here piece rest ih ihlink =>
    rw [walkOver_cons] at hr
    rw [walkOver_cons, walkOver_cons, step_of_retains h (fun r hends => by rwa [hends] at hr)]
    cases hstep : d.step follow here piece rest with
    | ends r => rfl
    | goes l =>
      rw [hstep] at hr
      exact ih l hr
    | links l target =>
      rw [hstep] at hr
      cases n with
      | zero => rfl
      | succ m => exact ihlink m rfl l _ hr

/-- A path that met nothing missing leads where it led before. -/
theorem locate_of_retains (h : Retains written d d') {path : Bytes}
    (hr : Settles (d.locate follow path)) : d'.locate follow path = d.locate follow path := by
  rw [locate] at hr ⊢
  rw [locate, h.working]
  split_ifs at hr ⊢ with hempty hzero hlong
  · rfl
  · rfl
  · rfl
  · exact walkOver_of_retains h hr

/-- The case of `locate_of_retains` for a disk that has grown. -/
theorem locate_of_grown (h : Grown written d d') {path : Bytes} (hr : Settles (d.locate follow path)) :
    d'.locate follow path = d.locate follow path := locate_of_retains h.retains hr

/-- A walk that ended at the free place `l` leads to the node that is put there, if that suits it. -/
theorem walkOver_of_free (h : Grown written d d') {n : Nat} {here l : Location} {ps : List Bytes}
    {b : Bool} {node : Node} (hl : d'.nodeAt l = some node) (hnode : node.Suits b)
    (hr : d.walkOver follow n here ps = .ok (.free l b)) :
    d'.walkOver true n here ps = .ok (.found l) := by
  induction n, here, ps using walkOver_induction with
  | nil n here => rw [walkOver_nil] at hr; cases hr
  | cons n here piece rest ih ihlink =>
    rw [walkOver_cons] at hr ⊢
    cases hstep : d.step follow here piece rest with
    | goes l' =>
      simp only [hstep] at hr
      have hstep' := (step_of_retains h.retains (by simp [hstep])).trans hstep
      rw [step_of_not_ends hstep' (by simp)]
      exact ih l' hr
    | links l' target =>
      simp only [hstep] at hr
      have hstep' := (step_of_retains h.retains (by simp [hstep])).trans hstep
      rw [step_of_not_ends hstep' (by simp)]
      cases n with
      | zero => cases hr
      | succ m => exact ihlink m rfl _ _ hr
    | ends r =>
      simp only [hstep] at hr
      -- the path ends at the free place, where the node stands now
      have hsteps := d.steps follow here piece rest
      rw [hstep, hr] at hsteps
      cases hsteps with
      | free hhere hname hnext hrest =>
        have hhere' := h.directory hhere
        cases node with
        | directory =>
          rw [(Steps.directory hhere' hname hl).step_eq]
          exact walkOver_blank hl n hrest
        | file c =>
          have hnil : rest = [] := by simpa [Node.Suits] using hnode
          rw [(Steps.file hhere' hname hl).step_eq, hnil]
          exact walkOver_nil d' true n _
        | link t => exact hnode.elim

theorem locate_of_free (h : Grown written d d') {path : Bytes} {l : Location} {b : Bool} {node : Node}
    (hl : d'.nodeAt l = some node) (hnode : node.Suits b) (hr : d.locate follow path = .ok (.free l b)) :
    d'.locate true path = .ok (.found l) := by
  rw [locate] at hr ⊢
  rw [h.working]
  split_ifs at hr ⊢
  exact walkOver_of_free h hl hnode hr

/-- A place that `locate` calls free is one. -/
theorem locate_free {path : Bytes} {l : Location} {b : Bool} (h : d.locate follow path = .ok (.free l b)) :
    d.IsFree l := by
  rw [locate] at h
  split_ifs at h
  exact walkOver_free (fun p hp => slash_notMem_of_mem_cut hp) h

/-! ## Directories -/

/-- A path `leadsToDirectory` just if following its links finds one. -/
theorem leadsToDirectory_iff {path : Bytes} :
    d.leadsToDirectory path = true ↔
      ∃ l, d.locate true path = .ok (.found l) ∧ d.nodeAt l = some .directory := by
  rw [leadsToDirectory, find]
  cases hlocate : d.locate true path with
  | error e => simp [Except.bind, bind]
  | ok place =>
    cases place with
    | free l b => simp [Except.bind, bind]
    | found l =>
      cases hl : d.at? l with
      | none => simp [Except.bind, bind, hl, nodeAt]
      | some e => obtain ⟨_ | _ | _, _⟩ := e <;> simp [Except.bind, bind, hl, nodeAt]

theorem leadsToDirectory_of_grown (h : Grown written d d') {path : Bytes}
    (hpath : d.leadsToDirectory path = true) : d'.leadsToDirectory path = true := by
  obtain ⟨l, hl, hdirectory⟩ := leadsToDirectory_iff.mp hpath
  have hlocate := locate_of_grown h (hl ▸ settles_found l)
  exact leadsToDirectory_iff.mpr ⟨l, hlocate.trans hl, h.directory hdirectory⟩

/-- Making a directory makes the disk grow by that directory at most, whether or not it fails. -/
theorem makeDirectory_grown (d : Disk) (path : Bytes) : Grown [] d (d.makeDirectory path).2 := by
  rw [makeDirectory]
  split
  · exact .refl [] d
  · next l b h => exact place_directory_grown (locate_free h) []
  · exact .refl [] d

/-- A directory that was made is there. -/
theorem makeDirectory_ok {path : Bytes} (h : (d.makeDirectory path).1 = .ok ()) :
    (d.makeDirectory path).2.leadsToDirectory path = true := by
  rw [makeDirectory] at h ⊢
  split at h
  · cases h
  · next l b hlocate =>
    have hfree := locate_free hlocate
    have hl : (d.place l .directory).nodeAt l = some .directory := by
      have hne : l ≠ [] := fun hnil => by
        have hroot := hfree.nothing
        rw [hnil, nodeAt_nil] at hroot
        cases hroot
      rw [nodeAt_place, if_pos ⟨rfl, hne⟩]
    have hgrown := place_directory_grown hfree []
    exact leadsToDirectory_iff.mpr ⟨l, locate_of_free hgrown hl trivial hlocate, hl⟩
  · cases h

theorem ensureDirectory_grown (d : Disk) (path : Bytes) : Grown [] d (d.ensureDirectory path).2 := by
  have hmake := makeDirectory_grown d path
  rw [ensureDirectory]
  split
  · next d' h => rwa [h] at hmake
  · next e d' h =>
    rw [h] at hmake
    split <;> exact hmake

/-- After `ensureDirectory` has succeeded the path leads to a directory, new or old. -/
theorem ensureDirectory_ok {path : Bytes} (h : (d.ensureDirectory path).1 = .ok ()) :
    (d.ensureDirectory path).2.leadsToDirectory path = true := by
  rw [ensureDirectory] at h ⊢
  split at h
  · next d' hmake =>
    have hok : (d.makeDirectory path).1 = .ok () := by rw [hmake]
    have hleads := makeDirectory_ok hok
    rwa [hmake] at hleads
  · split_ifs at h ⊢ with hleads
    exact hleads

/-- A directory that is there is not made, and the disk stays the same. -/
theorem ensureDirectory_of_leads {path : Bytes} (h : d.leadsToDirectory path = true) :
    d.ensureDirectory path = (.ok (), d) := by
  obtain ⟨l, hl, _⟩ := leadsToDirectory_iff.mp h
  rw [ensureDirectory, makeDirectory]
  cases hlocate : d.locate false path with
  | error e => simp [h]
  | ok place =>
    cases place with
    | found l' => simp [h]
    | free l' b =>
      have hfree : d.locate true path = .ok (.free l' b) := by
        rw [locate] at hlocate ⊢
        split_ifs at hlocate ⊢
        exact walkOver_free_follow hlocate
      rw [hl] at hfree
      cases hfree

/-- Making a chain of directories by `makeChain` makes the disk grow by directories only, however far it comes. -/
theorem makeChain_grown (paths : List Bytes) (d : Disk) : Grown [] d (d.makeChain paths).2 := by
  -- the outer directories are made first, and the disk grows at each of them
  induction paths generalizing d with
  | nil => exact .refl [] d
  | cons path outer ih =>
    rw [makeChain]
    split
    · exact .refl [] d
    · have hensure := ensureDirectory_grown d path
      split
      · next d' h =>
        rw [h] at hensure
        have houter := hensure.trans (ih d')
        rw [Change.andThen.eq_def]
        split
        · next d'' h' =>
          rw [h'] at houter
          exact houter.trans (ensureDirectory_grown d'' path)
        · next e d'' h' => rwa [h'] at houter
      · exact hensure

/-- The first directory of a chain is there once the chain has been made. -/
theorem makeChain_ok {path : Bytes} {outer : List Bytes} (hpath : path ≠ [])
    (h : (d.makeChain (path :: outer)).1 = .ok ()) :
    (d.makeChain (path :: outer)).2.leadsToDirectory path = true := by
  rw [makeChain, if_neg hpath] at h ⊢
  split at h
  · next d' hmissing =>
    rw [Change.andThen.eq_def] at h ⊢
    split at h
    · exact ensureDirectory_ok h
    · cases h
  · next c => exact ensureDirectory_ok h

theorem makeChain_of_leads {path : Bytes} (outer : List Bytes) (h : d.leadsToDirectory path = true) :
    d.makeChain (path :: outer) = (.ok (), d) := by
  rw [makeChain, ensureDirectory_of_leads h]
  split <;> rfl

/-- The first of the ancestors of `path` is `path` itself. -/
theorem ancestors_cons (path : String) : ∃ outer, Path.ancestors path = path :: outer := by
  rw [Path.ancestors, Path.firstAncestors]
  split
  · exact ⟨[], rfl⟩
  · exact ⟨_, rfl⟩

/-- What `makeDirectories` leaves has grown by directories only, whether or not it has failed. -/
theorem makeDirectories_grown (d : Disk) (path : String) : Grown [] d (d.makeDirectories path).2 :=
  makeChain_grown _ d

/-- Once `makeDirectories` has succeeded, `path` leads to a directory. -/
theorem makeDirectories_ok {path : String} (hpath : Text.bytesOf path ≠ [])
    (h : (d.makeDirectories path).1 = .ok ()) :
    (d.makeDirectories path).2.leadsToDirectory (Text.bytesOf path) = true := by
  obtain ⟨outer, houter⟩ := ancestors_cons path
  rw [makeDirectories, houter, List.map_cons] at h ⊢
  exact makeChain_ok hpath h

/-- Where `path` leads to a directory nothing is made. -/
theorem makeDirectories_of_leads {path : String} (h : d.leadsToDirectory (Text.bytesOf path) = true) :
    d.makeDirectories path = (.ok (), d) := by
  obtain ⟨outer, houter⟩ := ancestors_cons path
  rw [makeDirectories, houter, List.map_cons]
  exact makeChain_of_leads _ h

/-! ## Files -/

theorem nodeAt_place_self {l : Location} (hl : l ≠ []) (node : Node) :
    (d.place l node).nodeAt l = some node := by
  rw [nodeAt_place, if_pos ⟨rfl, hl⟩]

theorem IsFree.ne_nil {l : Location} (h : d.IsFree l) : l ≠ [] := by
  rintro rfl
  exact absurd h.nothing (by simp [nodeAt_nil])

theorem ne_nil_of_file {l : Location} {c : Content} (h : d.nodeAt l = some (.file c)) : l ≠ [] := by
  rintro rfl
  rw [nodeAt_nil] at h
  cases h

/-- The path leads to the file at `l`, which gives `content` as its bytes. -/
def HoldsFile (d : Disk) (path : Bytes) (l : Location) (content : ByteArray) : Prop :=
  d.locate true path = .ok (.found l) ∧ d.nodeAt l = some (.file (.bytes content))

/-- A file goes on to hold its content unless it is among those `written`. -/
theorem HoldsFile.of_grown {path : Bytes} {l : Location} {content : ByteArray}
    (hfile : d.HoldsFile path l content) (h : Grown written d d') (hl : l ∉ written) :
    d'.HoldsFile path l content := by
  obtain ⟨hlocate, hnode⟩ := hfile
  obtain ⟨b', hb', hsame⟩ := h.retains.bytes hnode
  exact ⟨(locate_of_grown h (hlocate ▸ settles_found l)).trans hlocate, hsame hl ▸ hb'⟩

/-- What a file holds is what `readBytes` gives. -/
theorem HoldsFile.readBytes {path : Bytes} {l : Location} {content : ByteArray}
    (h : d.HoldsFile path l content) : d.readBytes path = .ok content := by
  obtain ⟨hlocate, hnode⟩ := h
  rw [Disk.readBytes, find, hlocate]
  cases hl : d.at? l with
  | none => simp [nodeAt, hl] at hnode
  | some e =>
    obtain ⟨node, modified⟩ := e
    simp only [nodeAt, hl, Option.map_some, Option.some.injEq] at hnode
    subst hnode
    simp [bind, Except.bind, hl]

/-- A file that was written holds `content`, and nothing else has changed. -/
theorem writeBytes_ok {path : Bytes} {content : ByteArray}
    (h : (d.writeBytes path content).1 = .ok ()) :
    ∃ l, (d.writeBytes path content).2.HoldsFile path l content ∧
      Grown [l] d (d.writeBytes path content).2 := by
  rw [writeBytes] at h ⊢
  cases hlocate : d.locate true path with
  | error e => simp [hlocate] at h
  | ok place =>
    cases place with
    | free l b =>
      cases b with
      | true => simp [hlocate] at h
      | false =>
        -- the file is new
        have hfree := locate_free hlocate
        have hgrown : Grown [l] d (d.place l (.file (.bytes content))) :=
          place_file_grown (.inl hfree) _
        have hl : (d.place l (.file (.bytes content))).nodeAt l = some (.file (.bytes content)) :=
          nodeAt_place_self hfree.ne_nil _
        exact ⟨l, ⟨locate_of_free hgrown hl rfl hlocate, hl⟩, hgrown⟩
    | found l =>
      cases hat : d.at? l with
      | none => simp [hlocate, hat] at h
      | some e =>
        obtain ⟨(c | _) | _ | _, _⟩ := e
        · -- the file is written over
          have hnode : d.nodeAt l = some (.file (.bytes c)) := by rw [nodeAt, hat]; rfl
          have hgrown : Grown [l] d (d.place l (.file (.bytes content))) :=
            place_file_grown (.inr ⟨_, hnode⟩) _
          have hl : (d.place l (.file (.bytes content))).nodeAt l = some (.file (.bytes content)) :=
            nodeAt_place_self (ne_nil_of_file hnode) _
          simp only [hat]
          exact ⟨l, ⟨(locate_of_grown hgrown (hlocate ▸ settles_found l)).trans hlocate, hl⟩, hgrown⟩
        · simp [hlocate, hat] at h
        · simp [hlocate, hat] at h
        · simp [hlocate, hat] at h

/-- A file that can be read can be written by `writeBytes`. -/
theorem writeBytes_of_holdsFile {path : Bytes} {l : Location} {old : ByteArray}
    (h : d.HoldsFile path l old) (content : ByteArray) :
    d.writeBytes path content = (.ok (), d.place l (.file (.bytes content))) := by
  obtain ⟨hlocate, hnode⟩ := h
  rw [writeBytes, hlocate]
  cases hat : d.at? l with
  | none => simp [nodeAt, hat] at hnode
  | some e =>
    obtain ⟨node, modified⟩ := e
    simp only [nodeAt, hat, Option.map_some, Option.some.injEq] at hnode
    subst hnode
    simp [hat]

end Disk

end PayloadAtlas
