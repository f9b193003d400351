import PayloadAtlas.Proofs.Path

/-!
# The names of modules

The name of the module in a file is its path without the extension, with dots for the slashes. Two files may have
one name: `app.py` and `app.pyi` have, and so have `a/b.py` and `a.b.py`. Among files with one extension, and with no
dot but the one before it (`IsPlain`), the name tells the path (`eq_of_moduleName_eq`).
-/

namespace PayloadAtlas.Path

/-! ## Cutting at a character -/

/-- Parts that are put together with a character `sep` that they do not have come back by cutting. -/
theorem cut_intercalate {sep : Char} {ps : List (List Char)} (hne : ps ≠ []) (h : ∀ p ∈ ps, sep ∉ p) :
    cut sep ([sep].intercalate ps) = ps := by
  induction ps with
  | nil => exact absurd rfl hne
  | cons p ps ih =>
    obtain ⟨hp, hps⟩ := List.forall_mem_cons.mp h
    cases ps with
    | nil => rw [List.intercalate_singleton, cut_of_notMem hp]
    | cons q qs =>
      rw [List.intercalate_cons_cons, List.append_assoc, List.singleton_append, cut_append, cut_of_notMem hp,
        ih (List.cons_ne_nil q qs) hps]
      rfl

theorem map_ofList_cut_intercalate {sep : Char} {ps : List String} (hne : ps ≠ []) (h : ∀ p ∈ ps, sep ∉ p.toList) :
    (cut sep ((String.singleton sep).intercalate ps).toList).map String.ofList = ps := by
  rw [String.toList_intercalate, String.toList_singleton, cut_intercalate (by simpa using hne) (by simpa using h),
    List.map_map]
  exact (List.map_congr_left fun p _ => String.ofList_toList).trans (List.map_id' ps)

/-- Texts without the character `sep` can be told from what they are put together to with it. -/
theorem eq_of_intercalate_eq (sep : Char) {ps qs : List String} (hps : ps ≠ []) (hqs : qs ≠ [])
    (hp : ∀ p ∈ ps, sep ∉ p.toList) (hq : ∀ q ∈ qs, sep ∉ q.toList)
    (h : (String.singleton sep).intercalate ps = (String.singleton sep).intercalate qs) : ps = qs := by
  rw [← map_ofList_cut_intercalate hps hp, h, map_ofList_cut_intercalate hqs hq]

/-! ## Pieces and components -/

theorem pieces_ofPieces {ps : List String} (hne : ps ≠ []) (h : ∀ p ∈ ps, '/' ∉ p.toList) :
    pieces (ofPieces ps) = ps :=
  map_ofList_cut_intercalate hne h

/-- What is added to the last piece is added to the path. -/
theorem ofPieces_concat (ps : List String) (a b : String) : ofPieces (ps ++ [a ++ b]) = ofPieces (ps ++ [a]) ++ b := by
  rw [ofPieces, ofPieces, ← String.toList_inj, String.toList_append, String.toList_intercalate,
    String.toList_intercalate]
  induction ps with
  | nil => simp
  | cons p ps ih =>
    cases ps with
    | nil => simp [List.intercalate_cons_cons]
    | cons q qs =>
      simp only [List.cons_append, List.map_cons, List.intercalate_cons_cons] at ih ⊢
      rw [ih]
      simp

/-- A piece that is a component, and no other. -/
structure IsPart (p : String) : Prop where
  slash : '/' ∉ p.toList
  counts : counts p = true

theorem IsPart.ne_empty {p : String} (h : IsPart p) : p ≠ "" := by
  rintro rfl
  exact absurd h.counts (by decide)

/-- The pieces of a path are its components if each `IsPart`. -/
theorem components_ofPieces {ps : List String} (hne : ps ≠ []) (h : ∀ p ∈ ps, IsPart p) :
    components (ofPieces ps) = ps := by
  have hpieces := pieces_ofPieces hne fun p hp => (h p hp).slash
  obtain ⟨p, ps, rfl⟩ := List.exists_cons_of_ne_nil hne
  obtain ⟨hp, hps⟩ := List.forall_mem_cons.mp h
  have hempty : ofPieces (p :: ps) ≠ "" := by
    intro hempty
    rw [hempty] at hpieces
    exact hp.ne_empty (List.cons.inj hpieces).1.symm
  rw [components, if_neg hempty, hpieces]
  show (if p = "" then "/" else p) :: ps.filter Path.counts = p :: ps
  rw [if_neg hp.ne_empty, List.filter_eq_self.mpr fun q hq => (hps q hq).counts]

/-- Nothing is cut off by `trimEnd` if all items are kept. -/
theorem trimEnd_of_forall {α : Type} {keep : α → Bool} {xs : List α} (h : ∀ x ∈ xs, keep x = true) :
    trimEnd keep xs = xs := by
  rw [trimEnd]
  cases hrev : xs.reverse with
  | nil => simpa using hrev.symm
  | cons x rest =>
    have hx : keep x = true := h x (List.mem_reverse.mp (hrev ▸ List.mem_cons_self))
    rw [List.dropWhile_cons_of_neg (by simp [hx]), ← hrev, List.reverse_reverse]

/-! ## Extensions -/

/-- What comes after the last dot is the extension, and the stem is not empty. -/
theorem splitName_append {stem ext : String} (hstem : stem ≠ "") (hext : '.' ∉ ext.toList) :
    splitName (stem ++ "." ++ ext) = (stem, some ext) := by
  -- backwards the extension comes first, and the dot ends it
  have hback : (stem ++ "." ++ ext).toList.reverse = ext.toList.reverse ++ '.' :: stem.toList.reverse := by simp
  have htake : (ext.toList.reverse ++ '.' :: stem.toList.reverse).takeWhile (· != '.') = ext.toList.reverse := by
    rw [List.takeWhile_append_of_pos]
    · simp
    · intro c hc
      exact bne_iff_ne.mpr fun hdot => hext (hdot ▸ List.mem_reverse.mp hc)
  obtain ⟨c, cs, hcs⟩ : ∃ c cs, stem.toList.reverse = c :: cs := by
    apply List.exists_cons_of_ne_nil
    simpa using hstem
  rw [splitName, hback, htake, List.drop_left, hcs]
  show (String.ofList (c :: cs).reverse, some (String.ofList ext.toList.reverse.reverse)) = _
  rw [← hcs, List.reverse_reverse, List.reverse_reverse, String.ofList_toList, String.ofList_toList]

/-- An extension `ext` is what comes after a dot that is not the first character, and has no dot itself. -/
theorem splitName_eq_some_iff {name ext : String} :
    (splitName name).2 = some ext ↔ ∃ stem, stem ≠ "" ∧ '.' ∉ ext.toList ∧ name = stem ++ "." ++ ext := by
  constructor
  · intro h
    rw [splitName] at h
    have hext : ∀ c ∈ name.toList.reverse.takeWhile (· != '.'), (c != '.') = true :=
      List.all_eq_true.mp List.all_takeWhile
    have hdot := List.head?_dropWhile_not (· != '.') name.toList.reverse
    have hback : name.toList.reverse =
        name.toList.reverse.takeWhile (· != '.') ++ name.toList.reverse.dropWhile (· != '.') :=
      List.takeWhile_append_dropWhile.symm
    generalize name.toList.reverse.takeWhile (· != '.') = back at h hext hback
    generalize name.toList.reverse.dropWhile (· != '.') = rest at hdot hback
    rw [hback, List.drop_left] at h
    -- backwards: `back` is the extension, and `rest` begins with the dot
    match rest with
    | [] | [_] => cases h
    | x :: c :: cs =>
      obtain rfl : x = '.' := by simpa using hdot
      obtain rfl := Option.some.inj h
      refine ⟨String.ofList (c :: cs).reverse, by simp, ?_, ?_⟩
      · intro hmem
        exact absurd (hext '.' (by simpa using hmem)) (by decide)
      · apply String.toList_injective
        rw [← List.reverse_reverse name.toList, hback]
        simp
  · rintro ⟨stem, hstem, hext, rfl⟩
    rw [splitName_append hstem hext]

/-- The components of a path to a file with an extension, where no dot is but the one before the extension. -/
structure IsPlain (ext : String) (directories : List String) (stem : String) : Prop where
  names : ∀ name ∈ directories ++ [stem], name ≠ "" ∧ '/' ∉ name.toList ∧ '.' ∉ name.toList
  slash : '/' ∉ ext.toList
  dot : '.' ∉ ext.toList

/-- The path to a file with the extension `ext`. -/
def withExtension (directories : List String) (stem ext : String) : String :=
  ofPieces (directories ++ [stem ++ "." ++ ext])

namespace IsPlain

variable {ext stem : String} {directories : List String} (h : IsPlain ext directories stem)

include h

theorem stem_ne : stem ≠ "" := (h.names stem (List.mem_append_right _ (List.mem_singleton_self stem))).1

theorem isPart_directory {name : String} (hname : name ∈ directories ++ [stem]) : IsPart name := by
  obtain ⟨hne, hslash, hdot⟩ := h.names name hname
  refine ⟨hslash, ?_⟩
  rw [counts, Bool.and_eq_true, bne_iff_ne, bne_iff_ne]
  refine ⟨hne, ?_⟩
  rintro rfl
  exact hdot (by decide)

/-- The stem with an extension is a component: it is longer than the one dot of `.`, and no slash is in it. -/
theorem isPart_file {rest : String} (hrest : '/' ∉ rest.toList) : IsPart (stem ++ "." ++ rest) := by
  have hstem := h.names stem (List.mem_append_right _ (List.mem_singleton_self stem))
  refine ⟨by simpa using ⟨hstem.2.1, hrest⟩, ?_⟩
  -- the stem and the dot are two characters at least, and what does not count has at most one
  have hlength : 1 < (stem ++ "." ++ rest).length := by
    have hpos : 0 < stem.length := by
      rw [← String.length_toList]
      exact List.length_pos_iff.mpr (by simpa using hstem.1)
    have hdot : ".".length = 1 := by decide
    rw [String.length_append, String.length_append, hdot]
    omega
  rw [counts, Bool.and_eq_true, bne_iff_ne, bne_iff_ne]
  constructor
  · intro heq
    rw [heq] at hlength
    exact absurd hlength (by decide)
  · intro heq
    rw [heq] at hlength
    exact absurd hlength (by decide)

theorem isPart_of_mem (rest : String) (hrest : '/' ∉ rest.toList) :
    ∀ name ∈ directories ++ [stem ++ "." ++ rest], IsPart name := by
  intro name hname
  rcases List.mem_append.mp hname with hname | hname
  · exact h.isPart_directory (List.mem_append_left _ hname)
  · rw [List.mem_singleton.mp hname]
    exact h.isPart_file hrest

/-- The last component is a name, as it begins with the first character of the stem. -/
theorem fileName?_eq {rest : String} (hslash : '/' ∉ rest.toList) :
    fileName? (withExtension directories stem rest) = some (stem ++ "." ++ rest) := by
  have hpart := h.isPart_file hslash
  rw [fileName?, withExtension, components_ofPieces (by simp) (h.isPart_of_mem rest hslash), List.getLast?_concat]
  show (if isName (stem ++ "." ++ rest) = true then _ else _) = _
  rw [if_pos]
  have hstem := h.names stem (List.mem_append_right _ (List.mem_singleton_self stem))
  obtain ⟨c, cs, hcs⟩ := List.exists_cons_of_ne_nil (show stem.toList ≠ [] by simpa using hstem.1)
  -- a name begins with neither a slash nor a dot
  have hchars : ∀ s : String, stem ++ "." ++ rest = s → ∃ more, s.toList = c :: more := by
    rintro s rfl
    exact ⟨cs ++ '.' :: rest.toList, by simp [hcs]⟩
  have hc : c ≠ '/' ∧ c ≠ '.' := by
    constructor <;> rintro rfl
    · exact hstem.2.1 (hcs ▸ List.mem_cons_self)
    · exact hstem.2.2 (hcs ▸ List.mem_cons_self)
  rw [isName, Bool.and_eq_true, Bool.and_eq_true, bne_iff_ne, bne_iff_ne, bne_iff_ne]
  refine ⟨⟨fun heq => ?_, fun heq => ?_⟩, fun heq => ?_⟩ <;> obtain ⟨more, hmore⟩ := hchars _ heq
  · exact hc.1 (List.cons.inj hmore).1.symm
  · exact hc.2 (List.cons.inj hmore).1.symm
  · exact hc.2 (List.cons.inj hmore).1.symm

/-- The path `withoutExtension`. -/
theorem withoutExtension_eq :
    withoutExtension (withExtension directories stem ext) = ofPieces (directories ++ [stem]) := by
  have hsplit : splitName (stem ++ "." ++ ext) = (stem, some ext) := splitName_append h.stem_ne h.dot
  have hsplit' : splitName (stem ++ "." ++ "") = (stem, some "") := splitName_append h.stem_ne (by simp)
  have hextension : extension? (withExtension directories stem ext) = some ext := by
    rw [extension?, h.fileName?_eq h.slash, Option.bind_some, hsplit]
  have htake : String.ofList ((withExtension directories stem ext).toList.take
      ((withExtension directories stem ext).length - ext.length)) = withExtension directories stem "" := by
    rw [withExtension, withExtension, ofPieces_concat, String.toList_append, String.length_append, Nat.add_sub_cancel,
      ← String.length_toList, List.take_left, String.ofList_toList, String.append_empty]
  have hstem : stem? (withExtension directories stem "") = some stem := by
    rw [stem?, h.fileName?_eq (by simp), Option.map_some, hsplit']
  have hparts := h.isPart_of_mem "" (by simp)
  have hpieces : pieces (withExtension directories stem "") = directories ++ [stem ++ "." ++ ""] :=
    pieces_ofPieces (by simp) fun p hp => (hparts p hp).slash
  rw [withoutExtension, hextension]
  show upToStem _ = _
  rw [htake, upToStem, hstem, hpieces]
  -- no piece is trimmed, as all of them count, so that the last one gives way to the stem
  cases directories with
  | nil => rfl
  | cons first more =>
    show ofPieces ((first :: trimEnd counts (more ++ [stem ++ "." ++ ""])).dropLast ++ [stem]) = _
    have htrim : trimEnd counts (more ++ [stem ++ "." ++ ""]) = more ++ [stem ++ "." ++ ""] :=
      trimEnd_of_forall fun p hp => (hparts p (List.mem_cons_of_mem first hp)).counts
    rw [htrim, ← List.cons_append, List.dropLast_concat]

/-- The `moduleName` has the directories and the stem, with dots between them. -/
theorem moduleName_eq : moduleName (withExtension directories stem ext) = ".".intercalate (directories ++ [stem]) := by
  rw [moduleName, h.withoutExtension_eq, components_ofPieces (by simp) fun name hname => h.isPart_directory hname]

end IsPlain

/-- Among such paths with one extension `moduleName` tells the path. -/
theorem eq_of_moduleName_eq {ext stem stem' : String} {directories directories' : List String}
    (h : IsPlain ext directories stem) (h' : IsPlain ext directories' stem')
    (heq : moduleName (withExtension directories stem ext) = moduleName (withExtension directories' stem' ext)) :
    withExtension directories stem ext = withExtension directories' stem' ext := by
  rw [h.moduleName_eq, h'.moduleName_eq] at heq
  have hparts : directories ++ [stem] = directories' ++ [stem'] := by
    refine eq_of_intercalate_eq '.' (by simp) (by simp) (fun p hp => (h.names p hp).2.2)
      (fun p hp => (h'.names p hp).2.2) heq
  obtain ⟨rfl, hstem⟩ := List.append_inj' hparts rfl
  rw [List.singleton_inj.mp hstem]

end PayloadAtlas.Path
