import Mathlib.Data.List.Perm.Subperm
import PayloadAtlas.Proofs.Json.Read

/-!
# When values are equal

Values are compared by `Value.same`, which looks at an object by its keys. It is an equivalence on the values whose
objects have different keys (`same_refl`, `same_symm`, `same_trans`). These proofs go down from a value to its parts,
that is to the items of an array and to the values of an object's keys (`parts_induction`).
-/

namespace PayloadAtlas

namespace Double

variable {x y z : Double}

theorem same_refl (x : Double) : x.same x = true := by
  rw [same]
  split
  · next h => exact decide_eq_true h
  · exact decide_eq_true rfl

theorem same_symm (h : x.same y = true) : y.same x = true := by
  unfold same at h ⊢
  split at h
  · next hx =>
    rw [if_pos (of_decide_eq_true h)]
    exact decide_eq_true hx
  · next hx =>
    obtain rfl := of_decide_eq_true h
    rw [if_neg hx]
    exact decide_eq_true rfl

/-- Values that equal the same value, by `same`, are equal. -/
theorem same_trans (h : x.same y = true) (h' : y.same z = true) : x.same z = true := by
  unfold same at h
  split at h
  · next hx =>
    rw [same, if_pos (of_decide_eq_true h)] at h'
    rw [same, if_pos hx]
    exact h'
  · obtain rfl := of_decide_eq_true h
    exact h'

end Double

namespace Json

namespace Number

variable {x y z : Number}

theorem same_refl (x : Number) : x.same x = true := by
  cases x with
  | integer n => exact beq_self_eq_true n
  | double x => exact x.same_refl

theorem same_symm (h : x.same y = true) : y.same x = true := by
  cases x with
  | integer n =>
    cases y with
    | integer m => exact BEq.symm h
    | double y => cases h
  | double x =>
    cases y with
    | integer m => cases h
    | double y => exact Double.same_symm h

theorem same_trans (h : x.same y = true) (h' : y.same z = true) : x.same z = true := by
  cases x with
  | integer n =>
    cases y with
    | integer m =>
      obtain rfl : n = m := eq_of_beq h
      exact h'
    | double y => cases h
  | double x =>
    cases y with
    | integer m => cases h
    | double y =>
      cases z with
      | integer n => cases h'
      | double z => exact Double.same_trans h h'

end Number

namespace Value

/-- The items of an array, and the values of an object's keys. -/
def parts : Value → List Value
  | .array xs => xs
  | .object ms => ms.map Prod.snd
  | _ => []

/-- What holds of a value if it holds of its `parts`, holds of all values. -/
theorem parts_induction {P : Value → Prop} (h : ∀ v, (∀ w ∈ v.parts, P w) → P v) (v : Value) : P v := by
  refine h v fun w hw => ?_
  have hsize : sizeOf w < sizeOf v := by
    cases v with
    | array xs =>
      have hitem := List.sizeOf_lt_of_mem (show w ∈ xs from hw)
      simp only [array.sizeOf_spec]
      omega
    | object ms =>
      obtain ⟨⟨k, w⟩, hm, rfl⟩ := List.mem_map.mp hw
      have hmember := List.sizeOf_lt_of_mem hm
      simp only [object.sizeOf_spec, Prod.mk.sizeOf_spec] at hmember ⊢
      omega
    | null | bool | number | string => cases hw
  exact parts_induction h w
termination_by sizeOf v

variable {u v w : Value} {xs ys zs : List Value} {ms ns os : List (String × Value)}

/-- The keys differ in a list of values just if they do in each of them. -/
theorem itemsKeysDiffer_iff : itemsKeysDiffer xs ↔ ∀ x ∈ xs, x.keysDiffer := by
  induction xs with
  | nil => simp [itemsKeysDiffer]
  | cons x xs ih => simp [itemsKeysDiffer, ih]

theorem membersKeysDiffer_iff : membersKeysDiffer ms ↔ ∀ m ∈ ms, m.2.keysDiffer := by
  induction ms with
  | nil => simp [membersKeysDiffer]
  | cons m ms ih => simp [membersKeysDiffer, ih]

/-- The keys differ in what an object has for a column, if they do in the object. -/
theorem keysDiffer_get? {column : String} (h : u.keysDiffer) (hv : u.get? column = some v) : v.keysDiffer := by
  cases u with
  | object ms =>
    obtain ⟨hkeys, hvalues⟩ := h
    exact membersKeysDiffer_iff.mp hvalues _ ((Association.lookup_eq_some_iff_mem hkeys).mp hv)
  | null | bool | number | string | array => cases hv

theorem sameItems_refl (h : ∀ x ∈ xs, same x x = true) : sameItems xs xs = true := by
  induction xs with
  | nil => rfl
  | cons x xs ih =>
    rw [List.forall_mem_cons] at h
    rw [sameItems, h.1, ih h.2, Bool.and_self]

/-- Items that are equal, place by place, are equal the other way round. -/
theorem sameItems_symm (hsymm : ∀ x ∈ xs, ∀ y ∈ ys, same x y = true → same y x = true)
    (h : sameItems xs ys = true) : sameItems ys xs = true := by
  induction xs generalizing ys with
  | nil =>
    cases ys with
    | nil => rfl
    | cons y ys => cases h
  | cons x xs ih =>
    cases ys with
    | nil => cases h
    | cons y ys =>
      rw [sameItems, Bool.and_eq_true] at h ⊢
      refine ⟨hsymm x List.mem_cons_self y List.mem_cons_self h.1, ih (fun z hz w hw => ?_) h.2⟩
      exact hsymm z (List.mem_cons_of_mem x hz) w (List.mem_cons_of_mem y hw)

/-- Items that are equal, place by place, to equal items are equal to one another. -/
theorem sameItems_trans (htrans : ∀ x ∈ xs, ∀ y z, same x y = true → same y z = true → same x z = true)
    (h : sameItems xs ys = true) (h' : sameItems ys zs = true) : sameItems xs zs = true := by
  induction xs generalizing ys zs with
  | nil =>
    cases ys with
    | nil => exact h'
    | cons y ys => cases h
  | cons x xs ih =>
    cases ys with
    | nil => cases h
    | cons y ys =>
      cases zs with
      | nil => cases h'
      | cons z zs =>
        rw [List.forall_mem_cons] at htrans
        rw [sameItems, Bool.and_eq_true] at h h' ⊢
        exact ⟨htrans.1 y z h.1 h'.1, ih htrans.2 h.2 h'.2⟩

theorem mem_of_lookup {k : String} (h : ms.lookup k = some v) : (k, v) ∈ ms := by
  obtain ⟨before, after, rfl, -⟩ := List.lookup_eq_some_iff.mp h
  exact List.mem_append_right before List.mem_cons_self

/-- The members `ms` equal those of `ns` if each key is there with an equal value; `ns` may have more. -/
theorem sameMembers_iff :
    sameMembers ms ns = true ↔ ∀ m ∈ ms, ∃ w, ns.lookup m.1 = some w ∧ same m.2 w = true := by
  induction ms with
  | nil => simp [sameMembers]
  | cons m ms ih =>
    obtain ⟨k, v⟩ := m
    rw [sameMembers, Bool.and_eq_true, ih, List.forall_mem_cons]
    refine and_congr_left fun _ => ?_
    cases ns.lookup k <;> simp

theorem same_refl (h : v.keysDiffer) : v.same v = true := by
  induction v using parts_induction with
  | h v ih =>
    cases v with
    | null => rfl
    | bool b => exact beq_self_eq_true b
    | number n => exact n.same_refl
    | string s => exact beq_self_eq_true s
    | array xs =>
      rw [same]
      exact sameItems_refl fun x hx => ih x hx (itemsKeysDiffer_iff.mp h x hx)
    | object ms =>
      obtain ⟨hkeys, hvalues⟩ := h
      rw [same, beq_self_eq_true, Bool.true_and, sameMembers_iff]
      intro m hm
      refine ⟨m.2, (Association.lookup_eq_some_iff_mem hkeys).mpr hm, ?_⟩
      exact ih m.2 (List.mem_map_of_mem hm) (membersKeysDiffer_iff.mp hvalues m hm)

/-- Equal members, of as many keys, are equal the other way round. -/
theorem sameMembers_symm (hms : (ms.map Prod.fst).Nodup) (hns : (ns.map Prod.fst).Nodup)
    (hlength : ms.length = ns.length) (h : sameMembers ms ns = true)
    (hsymm : ∀ m ∈ ms, ∀ n ∈ ns, same m.2 n.2 = true → same n.2 m.2 = true) : sameMembers ns ms = true := by
  rw [sameMembers_iff] at h ⊢
  -- as many different keys, all of which are among the others, are the others
  have hsubset : ms.map Prod.fst ⊆ ns.map Prod.fst := by
    intro k hk
    obtain ⟨m, hm, rfl⟩ := List.mem_map.mp hk
    obtain ⟨w, hw, -⟩ := h m hm
    exact List.mem_map.mpr ⟨_, (Association.lookup_eq_some_iff_mem hns).mp hw, rfl⟩
  have hperm : (ms.map Prod.fst).Perm (ns.map Prod.fst) :=
    (List.subperm_of_subset hms hsubset).perm_of_length_le (by simp [hlength])
  intro n hn
  obtain ⟨m, hm, hkey⟩ := List.mem_map.mp (hperm.mem_iff.mpr (List.mem_map_of_mem hn))
  obtain ⟨w, hw, hsame⟩ := h m hm
  have hn' : ns.lookup m.1 = some n.2 := (Association.lookup_eq_some_iff_mem hns).mpr (hkey ▸ hn)
  obtain rfl := Option.some.inj (hw.symm.trans hn')
  exact ⟨m.2, (Association.lookup_eq_some_iff_mem hms).mpr (hkey ▸ hm), hsymm m hm n hn hsame⟩

theorem sameMembers_trans (htrans : ∀ m ∈ ms, ∀ y z, same m.2 y = true → same y z = true → same m.2 z = true)
    (h : sameMembers ms ns = true) (h' : sameMembers ns os = true) : sameMembers ms os = true := by
  rw [sameMembers_iff] at h h' ⊢
  intro m hm
  obtain ⟨y, hy, hsame⟩ := h m hm
  obtain ⟨z, hz, hsame'⟩ := h' (m.1, y) (mem_of_lookup hy)
  exact ⟨z, hz, htrans m hm y z hsame hsame'⟩

theorem same_symm (hv : v.keysDiffer) (hw : w.keysDiffer) (h : v.same w = true) : w.same v = true := by
  induction v using parts_induction generalizing w with
  | h v ih =>
    cases v with
    | null => cases w <;> first | rfl | cases h
    | bool b =>
      cases w with
      | bool c => exact BEq.symm h
      | _ => cases h
    | number n =>
      cases w with
      | number k => exact Number.same_symm h
      | _ => cases h
    | string s =>
      cases w with
      | string t => exact BEq.symm h
      | _ => cases h
    | array xs =>
      cases w with
      | array ys =>
        rw [same] at h ⊢
        exact sameItems_symm (fun x hx y hy =>
          ih x hx (itemsKeysDiffer_iff.mp hv x hx) (itemsKeysDiffer_iff.mp hw y hy)) h
      | _ => cases h
    | object ms =>
      cases w with
      | object ns =>
        rw [same, Bool.and_eq_true, beq_iff_eq] at h ⊢
        refine ⟨h.1.symm, sameMembers_symm hv.1 hw.1 h.1 h.2 fun m hm n hn hsame => ?_⟩
        exact ih m.2 (List.mem_map_of_mem hm) (membersKeysDiffer_iff.mp hv.2 m hm)
          (membersKeysDiffer_iff.mp hw.2 n hn) hsame
      | _ => cases h

theorem same_trans (h : u.same v = true) (h' : v.same w = true) : u.same w = true := by
  -- equal values are of one kind, so that the cases of the others follow those of the first
  induction u using parts_induction generalizing v w with
  | h u ih =>
    cases u with
    | null => cases v <;> first | exact h' | cases h
    | bool b =>
      cases v with
      | bool c =>
        obtain rfl : b = c := eq_of_beq h
        exact h'
      | _ => cases h
    | number n =>
      cases v with
      | number k =>
        cases w with
        | number l => exact Number.same_trans h h'
        | _ => cases h'
      | _ => cases h
    | string s =>
      cases v with
      | string t =>
        obtain rfl : s = t := eq_of_beq h
        exact h'
      | _ => cases h
    | array xs =>
      cases v with
      | array ys =>
        cases w with
        | array zs =>
          rw [same] at h h' ⊢
          exact sameItems_trans (fun x hx y z => ih x hx) h h'
        | _ => cases h'
      | _ => cases h
    | object ms =>
      cases v with
      | object ns =>
        cases w with
        | object os =>
          rw [same, Bool.and_eq_true, beq_iff_eq] at h h' ⊢
          refine ⟨h.1.trans h'.1, sameMembers_trans (fun m hm y z => ?_) h.2 h'.2⟩
          exact ih m.2 (List.mem_map_of_mem hm)
        | _ => cases h'
      | _ => cases h

end Value

end Json

end PayloadAtlas
