import PayloadAtlas.Proofs.Disk.Growth

/-!
# Paths that are read

What a path reads stays as it was, if the path met nothing missing and leads to no file that was written
(`Disk.readBytes_of_grown`). That holds too of a path that leads to something but has more links or letters
than it may (`Disk.Leads`): it is not found then, neither before nor after. A path that leads to a directory
goes on with the names in it (`Disk.Leads.into`).
-/

namespace PayloadAtlas

namespace Disk

variable {written written' : List Location} {d d' : Disk} {l l' : Location} {path name : Bytes}

/-! ## Reading -/

/-- Reading `path` by what `locate` finds. -/
theorem readBytes_eq (d : Disk) (path : Bytes) :
    d.readBytes path =
      match d.locate true path with
      | .error e => .error e
      | .ok (.free ..) => .error .notFound
      | .ok (.found l) =>
        match d.nodeAt l with
        | some (.file (.bytes content)) => .ok content
        | some (.file (.refused message)) => .error (.refused message)
        | some _ => .error .isDirectory
        | none => .error .notFound := by
  rw [readBytes, find]
  cases d.locate true path with
  | error e => rfl
  | ok place =>
    cases place with
    | free m b => rfl
    | found m =>
      simp only [bind, Except.bind, nodeAt]
      cases d.at? m with
      | none => rfl
      | some e => obtain ⟨(_ | _) | _ | _, _⟩ := e <;> rfl

/-- Bytes are read just where a path leads to a file that holds them. -/
theorem readBytes_eq_ok_iff {c : ByteArray} : d.readBytes path = .ok c ↔ ∃ l, d.HoldsFile path l c := by
  constructor
  · intro h
    rw [readBytes_eq] at h
    split at h
    · cases h
    · cases h
    · next l hlocate =>
      split at h
      · next c' hc =>
        cases h
        exact ⟨l, hlocate, hc⟩
      · cases h
      · cases h
      · cases h
  · rintro ⟨l, hl⟩
    exact hl.readBytes

/-- The path reads what it read before if it met nothing missing and leads to no file among those `written`. -/
theorem readBytes_of_retains (h : Retains written d d') (hd : d.Sound) {path : Bytes}
    (hsettles : Settles (d.locate true path)) (hwritten : ∀ l, d.locate true path = .ok (.found l) → l ∉ written) :
    d'.readBytes path = d.readBytes path := by
  rw [readBytes_eq, readBytes_eq, locate_of_retains h hsettles]
  cases hlocate : d.locate true path with
  | error e => rfl
  | ok place =>
    cases place with
    | free l b => exact absurd hlocate (hsettles.1 l b)
    | found l =>
      dsimp only
      cases hn : d.nodeAt l with
      | none => exact absurd hn (hd.locate_found hlocate)
      | some n =>
        obtain ⟨n', hn', _, hsame⟩ := h.kept hn
        rw [hn', hsame (hwritten l hlocate)]

/-- The case of `readBytes_of_retains` for a disk that has grown. -/
theorem readBytes_of_grown (h : Grown written d d') (hd : d.Sound) {path : Bytes}
    (hsettles : Settles (d.locate true path))
    (hwritten : ∀ l, d.locate true path = .ok (.found l) → l ∉ written) :
    d'.readBytes path = d.readBytes path := readBytes_of_retains h.retains hd hsettles hwritten

/-- A path that met something missing reads nothing. -/
theorem readBytes_of_not_settles (h : ¬Settles (d.locate true path)) : d.readBytes path = .error .notFound := by
  rw [readBytes_eq]
  cases hlocate : d.locate true path with
  | ok place =>
    cases place with
    | free l b => rfl
    | found l => exact absurd (hlocate ▸ settles_found l) h
  | error e =>
    by_cases he : e = .notFound
    · rw [he]
    · exact absurd (hlocate ▸ ⟨by simp, by simpa using he⟩) h

/-- A path reads the same on two disks that have grown out of each other, unless the file that it leads to was
`written`. -/
theorem readBytes_alike (h : Grown written d d') (h' : Grown written' d' d) (hd : d.Sound)
    (hwritten : ∀ l, d.locate true path = .ok (.found l) → l ∉ written) :
    d'.readBytes path = d.readBytes path := by
  by_cases hsettles : Settles (d.locate true path)
  · exact readBytes_of_grown h hd hsettles hwritten
  · have hsettles' : ¬Settles (d'.locate true path) :=
      fun hs => hsettles (locate_of_grown h' hs ▸ hs)
    rw [readBytes_of_not_settles hsettles, readBytes_of_not_settles hsettles']

/-! ## Paths that lead somewhere -/

/-- The path that goes on with `name`. -/
def into (path name : Bytes) : Bytes :=
  if path.getLast? = some slash then path ++ name else path ++ slash :: name

/-- The path leads to the location `l`, over however many links. -/
def Leads (d : Disk) (path : Bytes) (l : Location) : Prop :=
  path ≠ [] ∧ ∃ n, d.walkOver true n (start d.working path) (cut path) = .ok (.found l)

theorem leads_of_locate (h : d.locate true path = .ok (.found l)) : d.Leads path l := by
  rw [locate] at h
  split_ifs at h with hempty
  exact ⟨hempty, _, h⟩

/-- A path leads to one location at most. -/
theorem Leads.unique (h : d.Leads path l) (h' : d.Leads path l') : l = l' := by
  obtain ⟨_, m, hm⟩ := h
  obtain ⟨_, n, hn⟩ := h'
  have hl := walkOver_found_mono (Nat.le_max_left m n) hm
  have hl' := walkOver_found_mono (Nat.le_max_right m n) hn
  rw [hl] at hl'
  cases hl'
  rfl

theorem Leads.of_retains (h : d.Leads path l) (hretains : Retains written d d') : d'.Leads path l := by
  obtain ⟨hempty, n, hn⟩ := h
  refine ⟨hempty, n, ?_⟩
  rw [hretains.working, walkOver_of_retains hretains (hn ▸ settles_found l), hn]

theorem Leads.of_grown (h : d.Leads path l) (hgrown : Grown written d d') : d'.Leads path l :=
  h.of_retains hgrown.retains

/-- A path that leads somewhere is found there, or has too many links or letters. -/
theorem Leads.locate (h : d.Leads path l) :
    d.locate true path = .ok (.found l) ∨ ∃ e, e ≠ .notFound ∧ d.locate true path = .error e := by
  obtain ⟨hempty, n, hn⟩ := h
  rw [Disk.locate, if_neg hempty]
  split_ifs with hzero hlong
  · exact .inr ⟨_, by simp, rfl⟩
  · exact .inr ⟨_, by simp, rfl⟩
  · rcases Nat.le_total n mostLinks with hle | hle
    · exact .inl (walkOver_found_mono hle hn)
    · rcases walkOver_mono d true hle (start d.working path) (cut path) with hmany | hsame
      · exact .inr ⟨_, by simp, hmany⟩
      · exact .inl (hsame ▸ hn)

/-- Where a path leads, it is read as before if the location `l` is not among those `written`. -/
theorem Leads.readBytes_of_retains (h : d.Leads path l) (hretains : Retains written d d') (hd : d.Sound)
    (hl : l ∉ written) : d'.readBytes path = d.readBytes path := by
  rcases h.locate with hfound | ⟨e, hne, herror⟩
  · apply Disk.readBytes_of_retains hretains hd (hfound ▸ settles_found l)
    intro m hm
    rw [hfound] at hm
    cases hm
    exact hl
  · apply Disk.readBytes_of_retains hretains hd (by rw [herror]; exact ⟨by simp, by simpa using hne⟩)
    intro m hm
    rw [herror] at hm
    cases hm

theorem Leads.readBytes (h : d.Leads path l) (hgrown : Grown written d d') (hd : d.Sound)
    (hl : l ∉ written) : d'.readBytes path = d.readBytes path := h.readBytes_of_retains hgrown.retains hd hl

theorem start_into (here : Location) (hpath : path ≠ []) (name : Bytes) :
    start here (into path name) = start here path := by
  obtain ⟨b, rest, rfl⟩ := List.exists_cons_of_ne_nil hpath
  rw [start, start, into]
  split <;> rfl

/-- A slash at the end of a path, which leaves a blank piece, leads nowhere else. -/
theorem walkOver_blank_found {n : Nat} {here : Location} (h : d.walkOver true n here [[]] = .ok (.found l)) :
    here = l := by
  have hsteps := d.steps true here [] []
  rw [walkOver_cons] at h
  generalize d.step true here [] [] = s at h hsteps
  cases hsteps with
  | stays =>
    have hend : d.walkOver true n here [] = .ok (.found l) := h
    rw [walkOver_nil] at hend
    cases hend
    rfl
  | up hhere hpiece => cases hpiece
  | file hhere hname | directory hhere hname | link hhere hname | lastLink hhere hname
  | free hhere hname => exact absurd rfl hname.ne_nil
  | nowhere | inFile | inLink | tooLong | missing | blankLink => cases h

/-- A path that leads to a directory goes on with `name` in it. -/
theorem Leads.into (h : d.Leads path l) (hname : slash ∉ name) {n : Nat}
    (hnext : d.walkOver true n l [name] = .ok (.found l')) : d.Leads (into path name) l' := by
  obtain ⟨hempty, m, hm⟩ := h
  refine ⟨by rw [Disk.into]; split_ifs <;> simp [hempty], m + n, ?_⟩
  rw [start_into _ hempty, Disk.into]
  split_ifs with hopen
  · obtain ⟨init, rfl⟩ := List.getLast?_eq_some_iff.mp hopen
    rw [cut_append_slash] at hm
    obtain ⟨k, mid, hmid, hblank⟩ := walkOver_append_inv hm
    have hmid' : mid = l := walkOver_blank_found hblank
    rw [List.append_assoc, List.singleton_append, cut_append_slash, cut_of_notMem hname]
    exact walkOver_append (hmid' ▸ hmid) hnext
  · rw [cut_append_slash, cut_of_notMem hname]
    exact walkOver_append hm hnext

end Disk

end PayloadAtlas
