/-!
# Association lists

A list of keys with their values, in the order in which the keys were first set. Looking a key up after it
was set gives the value it was set to (`lookup_set_self`), and no other key changes (`lookup_set_of_ne`).
Only the last of two values counts (`set_set`), and setting a key to the value it has does nothing
(`set_eq_self`). Keys that differ go on to differ (`nodup_set`), and then a key has just the values that stand
beside it (`lookup_eq_some_iff_mem`).
-/

namespace PayloadAtlas.Association

variable {κ α : Type} [DecidableEq κ]

/-- Sets `key` to `x`: an old value is replaced where it is, a new one comes last. -/
def set (key : κ) (x : α) : List (κ × α) → List (κ × α)
  | [] => [(key, x)]
  | (k, y) :: rest => if k = key then (k, x) :: rest else (k, y) :: set key x rest

theorem lookup_set_self (key : κ) (x : α) (xs : List (κ × α)) :
    (set key x xs).lookup key = some x := by
  induction xs with
  | nil => simp [set]
  | cons p rest ih =>
    obtain ⟨k, y⟩ := p
    by_cases h : k = key
    · simp [set, h]
    · have h' : (key == k) = false := by simpa using Ne.symm h
      simpa [set, h, List.lookup_cons, h'] using ih

theorem lookup_set_of_ne {key k : κ} (h : k ≠ key) (x : α) (xs : List (κ × α)) :
    (set key x xs).lookup k = xs.lookup k := by
  induction xs with
  | nil =>
    have h' : (k == key) = false := by simpa using h
    simp [set, List.lookup_cons, h']
  | cons p rest ih =>
    obtain ⟨j, y⟩ := p
    -- only the entry of `key` is rewritten, and `k` is not that one
    by_cases hj : j = key
    · have h' : (k == j) = false := by simpa [hj] using h
      simp [set, hj, List.lookup_cons, hj ▸ h']
    · by_cases hk : k = j
      · subst hk
        simp [set, hj]
      · have h' : (k == j) = false := by simpa using hk
        simpa [set, hj, List.lookup_cons, h'] using ih

/-- Of two values that `key` is set to only the last one counts. -/
theorem set_set (key : κ) (x y : α) (xs : List (κ × α)) :
    set key y (set key x xs) = set key y xs := by
  induction xs with
  | nil => simp [set]
  | cons p rest ih =>
    obtain ⟨k, z⟩ := p
    by_cases h : k = key
    · simp [set, h]
    · simp [set, h, ih]

/-- Setting `key` to the value `x` that it has changes nothing. -/
theorem set_eq_self {key : κ} {x : α} {xs : List (κ × α)} (h : xs.lookup key = some x) :
    set key x xs = xs := by
  induction xs with
  | nil => simp at h
  | cons p rest ih =>
    obtain ⟨k, y⟩ := p
    by_cases hk : k = key
    · subst hk
      rw [List.lookup_cons_self, Option.some.injEq] at h
      simp [set, h]
    · have h' : (key == k) = false := by simpa using Ne.symm hk
      simp only [List.lookup_cons, h'] at h
      simp [set, hk, ih h]

/-- The keys stay where they are, and a new `key` comes last. -/
theorem keys_set (key : κ) (x : α) (xs : List (κ × α)) :
    (set key x xs).map Prod.fst =
      if key ∈ xs.map Prod.fst then xs.map Prod.fst else xs.map Prod.fst ++ [key] := by
  induction xs with
  | nil => rfl
  | cons p rest ih =>
    obtain ⟨k, y⟩ := p
    rw [set]
    split
    · next hk => simp [hk]
    · next hk =>
      rw [List.map_cons, ih, List.map_cons]
      by_cases hkey : key ∈ rest.map Prod.fst
      · rw [if_pos hkey, if_pos (List.mem_cons_of_mem _ hkey)]
      · rw [if_neg hkey, if_neg (by simpa [Ne.symm hk] using hkey)]
        rfl

theorem nodup_set {key : κ} {xs : List (κ × α)} (h : (xs.map Prod.fst).Nodup) (x : α) :
    ((set key x xs).map Prod.fst).Nodup := by
  rw [keys_set]
  split
  · exact h
  · next hkey =>
    refine List.nodup_append.mpr ⟨h, by simp, ?_⟩
    rintro a ha b hb rfl
    exact hkey (List.mem_singleton.mp hb ▸ ha)

/-- What is set satisfies `P` if all others do. -/
theorem forall_mem_set {P : κ × α → Prop} {key : κ} {x : α} {xs : List (κ × α)}
    (hxs : ∀ p ∈ xs, P p) (hx : P (key, x)) : ∀ p ∈ set key x xs, P p := by
  induction xs with
  | nil => simpa [set] using hx
  | cons p rest ih =>
    obtain ⟨k, y⟩ := p
    rw [List.forall_mem_cons] at hxs
    rw [set]
    split
    · next hk => exact List.forall_mem_cons.mpr ⟨hk ▸ hx, hxs.2⟩
    · exact List.forall_mem_cons.mpr ⟨hxs.1, ih hxs.2⟩

/-- Where no key occurs twice, looking `key` up finds just what stands beside it. -/
theorem lookup_eq_some_iff_mem {κ α : Type} [BEq κ] [LawfulBEq κ] {xs : List (κ × α)} {key : κ} {x : α}
    (h : (xs.map Prod.fst).Nodup) : xs.lookup key = some x ↔ (key, x) ∈ xs := by
  induction xs with
  | nil => simp
  | cons p rest ih =>
    obtain ⟨j, y⟩ := p
    rw [List.map_cons, List.nodup_cons] at h
    obtain ⟨hj, hrest⟩ := h
    by_cases hk : key = j
    · subst hk
      have hnot : (key, x) ∉ rest := fun hmem => hj (List.mem_map.mpr ⟨_, hmem, rfl⟩)
      rw [List.lookup_cons_self, List.mem_cons]
      constructor
      · intro heq
        exact .inl (by rw [Option.some.inj heq])
      · rintro (heq | hmem)
        · cases heq
          rfl
        · exact absurd hmem hnot
    · have hne : (key == j) = false := by simpa using hk
      rw [List.lookup_cons, hne, List.mem_cons]
      dsimp only
      rw [ih hrest]
      constructor
      · exact fun hmem => .inr hmem
      · rintro (heq | hmem)
        · cases heq
          exact absurd rfl hk
        · exact hmem

end PayloadAtlas.Association
