import Mathlib.Data.List.Perm.Basic
import PayloadAtlas.Proofs.Disk.Growth

/-!
# What is in a directory

On a sound disk the names in a directory are those at which something is (`Disk.mem_names`), each of them once
and in order. So they are known by their members, and a disk that grows keeps them in their order, with new
ones between them (`Disk.names_of_grown`).
-/

namespace PayloadAtlas

namespace Disk

variable {written written' : List Location} {d d' : Disk} {l : Location} {name : Bytes}

/-! ## Names -/

/-- The pair `(m, e)` as what is in the directory `l`, if it is right below it. -/
def entryIn (l : Location) : Location × Entry → Option (Bytes × Entry)
  | (m, e) =>
    match m.getLast? with
    | some name => if m.dropLast = l then some (name, e) else none
    | none => none

/-- A pair is in the directory `l` as the name `q.1` just if its location is `l ++ [q.1]`. -/
theorem entryIn_eq_some_iff {p : Location × Entry} {q : Bytes × Entry} :
    entryIn l p = some q ↔ p = (l ++ [q.1], q.2) := by
  obtain ⟨m, e⟩ := p
  obtain ⟨name, e'⟩ := q
  rcases List.eq_nil_or_concat m with rfl | ⟨init, last, rfl⟩
  · simp [entryIn]
  · rw [List.concat_eq_append, entryIn]
    simp only [List.getLast?_concat, List.dropLast_concat, Prod.mk.injEq]
    split
    · next h =>
      subst h
      simp
    · next h =>
      constructor
      · intro hnone
        cases hnone
      · rintro ⟨heq, _⟩
        exact absurd (List.append_inj_left' heq rfl) h

theorem children_eq (d : Disk) (l : Location) :
    d.children l = (d.entries.filterMap (entryIn l)).mergeSort fun a b => !decide (b.1 < a.1) := rfl

/-- On a sound disk the children of `l` are the entries one name further. -/
theorem mem_children (h : d.Sound) {e : Entry} : (name, e) ∈ d.children l ↔ d.at? (l ++ [name]) = some e := by
  have hat : d.at? (l ++ [name]) = some e ↔ (l ++ [name], e) ∈ d.entries := by
    rw [at?, if_neg (by simp)]
    exact Association.lookup_eq_some_iff_mem h.keys
  rw [hat, children_eq, List.mem_mergeSort, List.mem_filterMap]
  simp only [entryIn_eq_some_iff]
  constructor
  · rintro ⟨p, hp, rfl⟩
    exact hp
  · intro hmem
    exact ⟨_, hmem, rfl⟩

/-- The names in the directory `l`, in order. -/
def names (d : Disk) (l : Location) : List Bytes := (d.children l).map Prod.fst

theorem names_of_pairwise (h : (d.entries.filterMap (entryIn l)).Pairwise fun a b => (!decide (b.1 < a.1)) = true) :
    d.names l = (d.entries.filterMap (entryIn l)).map Prod.fst := by
  rw [names, children_eq, List.mergeSort_of_pairwise h]

/-- On a sound disk a name is in the directory `l` just if something is at `l ++ [name]`. -/
theorem mem_names (h : d.Sound) : name ∈ d.names l ↔ d.nodeAt (l ++ [name]) ≠ none := by
  rw [names, List.mem_map, nodeAt]
  constructor
  · rintro ⟨⟨n, e⟩, hmem, rfl⟩
    rw [(mem_children h).mp hmem]
    simp
  · intro hne
    cases hat : d.at? (l ++ [name]) with
    | none => simp [hat] at hne
    | some e => exact ⟨(name, e), (mem_children h).mpr hat, rfl⟩

theorem pairwise_names (d : Disk) (l : Location) : (d.names l).Pairwise (· ≤ ·) := by
  have hsorted : (d.children l).Pairwise (fun a b => (!decide (b.1 < a.1)) = true) := by
    apply List.pairwise_mergeSort
    · intro a b c hab hbc
      simp only [Bool.not_eq_true', decide_eq_false_iff_not, List.not_lt] at hab hbc ⊢
      exact List.le_trans hab hbc
    · intro a b
      simp only [Bool.or_eq_true, Bool.not_eq_true', decide_eq_false_iff_not, List.not_lt]
      exact List.le_total a.1 b.1
  rw [names, List.pairwise_map]
  exact hsorted.imp fun hab => by simpa [List.not_lt] using hab

theorem nodup_names (h : d.Sound) (l : Location) : (d.names l).Nodup := by
  have hkeys : d.entries.Pairwise (fun a b => a.1 ≠ b.1) := List.pairwise_map.mp h.keys
  have hfound : (d.entries.filterMap (entryIn l)).Pairwise (fun a b => a.1 ≠ b.1) := by
    refine List.Pairwise.filterMap _ ?_ hkeys
    intro p q hne a ha b hb heq
    rw [entryIn_eq_some_iff] at ha hb
    rw [ha, hb, heq] at hne
    exact hne rfl
  rw [names, List.Nodup, List.pairwise_map, children_eq]
  exact (List.Perm.pairwise_iff (fun hab => Ne.symm hab) (List.mergeSort_perm _ _)).mpr hfound

theorem names_eq {xs ys : List Bytes} (hxs : xs.Pairwise (· ≤ ·)) (hys : ys.Pairwise (· ≤ ·))
    (hxs' : xs.Nodup) (hys' : ys.Nodup) (h : ∀ x, x ∈ xs ↔ x ∈ ys) : xs = ys :=
  List.Perm.eq_of_pairwise (fun _ _ _ _ hab hba => List.le_antisymm hab hba) hxs hys
    ((List.perm_ext_iff_of_nodup hxs' hys').mpr h)

/-- The names that were there before are those, among the names of `d'`, at which `d` has something. -/
theorem names_of_retains (h : Retains written d d') (hd : d.Sound) (hd' : d'.Sound) (l : Location) :
    d.names l = (d'.names l).filter fun name => (d.nodeAt (l ++ [name])).isSome := by
  apply names_eq (pairwise_names d l) ((pairwise_names d' l).filter _) (nodup_names hd l)
    ((nodup_names hd' l).filter _)
  intro name
  rw [List.mem_filter, mem_names hd, mem_names hd', Option.isSome_iff_ne_none]
  constructor
  · intro hthere
    obtain ⟨n, hn⟩ := Option.ne_none_iff_exists'.mp hthere
    obtain ⟨n', hn', _⟩ := h.kept hn
    exact ⟨by simp [hn'], hthere⟩
  · exact fun hboth => hboth.2

/-- The case of `names_of_retains` for a disk that has grown. -/
theorem names_of_grown (h : Grown written d d') (hd : d.Sound) (l : Location) :
    d.names l = (d'.names l).filter fun name => (d.nodeAt (l ++ [name])).isSome :=
  names_of_retains h.retains hd (h.sound hd) l

/-- If each of two disks has grown out of the other, their directories hold the same names. -/
theorem names_alike (h : Grown written d d') (h' : Grown written' d' d) (hd : d.Sound) (l : Location) :
    d'.names l = d.names l := by
  have hd' := h.sound hd
  apply names_eq (pairwise_names d' l) (pairwise_names d l) (nodup_names hd' l) (nodup_names hd l)
  intro name
  rw [mem_names hd, mem_names hd', Option.ne_none_iff_exists', Option.ne_none_iff_exists']
  constructor
  · rintro ⟨n, hn⟩
    obtain ⟨n', hn', _⟩ := h'.kept hn
    exact ⟨n', hn'⟩
  · rintro ⟨n, hn⟩
    obtain ⟨n', hn', _⟩ := h.kept hn
    exact ⟨n', hn'⟩

end Disk

end PayloadAtlas
