import PayloadAtlas.Proofs.Python.Closing

/-!
# The reading of a whole source

A branch that has its way comes to the end with charged pieces, and one that has lost it with an error. The whole
that is made of them costs something if and only if something in it is faulty (`charged_of_whole`,
`costsFaults_of_whole`), so a reader has finished with nothing else (`Reader.Sound`).
-/

namespace PayloadAtlas.Python

open PayloadAtlas.Grammar PayloadAtlas.Text

variable {l : Language} {s : Source} {v : Nat}

/-! ## Pieces to the end -/

/-- The last piece that is no extra, and the pieces before it, are among the pieces. -/
theorem mem_of_splitExtras_eq {ps before : List Piece} {root : Piece}
    (h : (Piece.splitExtras ps).1.reverse = root :: before) : ∀ p ∈ root :: before, p ∈ ps := fun _ hp =>
  Piece.mem_of_mem_splitExtras (List.mem_reverse.mp (h ▸ hp))

/-- A whole is made of `root`, the last piece that is no extra, and what is around it. -/
theorem exists_root_of_whole {ps : List Piece} {whole : Piece} (h : wholeOf? l s ps = some whole) :
    ∃ root before, (Piece.splitExtras ps).1.reverse = root :: before ∧
      whole = Piece.join l s root.facts.kind root.facts.shape 0
        (before.reverse ++ root.children ++ (Piece.splitExtras ps).2) := by
  unfold wholeOf? at h
  dsimp only at h
  split at h
  · cases h
  next root before heq => exact ⟨root, before, heq, (Option.some.inj h).symm⟩

/-- A whole of charged pieces, made by `wholeOf?`, is charged. -/
theorem charged_of_whole {ps : List Piece} {whole : Piece} (h : ∀ p ∈ ps, p.Charged)
    (hwhole : wholeOf? l s ps = some whole) : whole.Charged := by
  obtain ⟨root, before, heq, rfl⟩ := exists_root_of_whole hwhole
  have hmem := mem_of_splitExtras_eq heq
  have hroot := h root (hmem root List.mem_cons_self)
  cases hkind : root.facts.kind with
  | error => exact Piece.charged_join_error
  | skipped => exact absurd hkind hroot.kind_ne_skipped
  | symbol n =>
    refine Piece.charged_join_symbol fun c hc => ?_
    rcases List.mem_append.mp hc with hc | hc
    · rcases List.mem_append.mp hc with hc | hc
      · exact h c (hmem c (List.mem_cons_of_mem root (List.mem_reverse.mp hc)))
      · exact hroot.parts hkind c hc
    · exact h c (Piece.mem_splitExtras_snd hc).1

/-- After an error only the last token may be an extra. -/
theorem splitExtras_append_pair (ps : List Piece) {fault token : Piece} (hfault : fault.facts.extra = false) :
    Piece.splitExtras (ps ++ [fault, token])
      = if token.facts.extra then (ps ++ [fault], [token]) else (ps ++ [fault, token], []) := by
  have hsplit : ps ++ [fault, token] = (ps ++ [fault]) ++ [token] := by rw [List.append_assoc, List.singleton_append]
  unfold Piece.splitExtras
  cases htoken : token.facts.extra with
  | true =>
    have hextras : ((ps ++ [fault, token]).reverse.takeWhile (·.facts.extra)).reverse = [token] := by
      simp [hfault, htoken]
    have htake : (ps ++ [fault, token]).take ((ps ++ [fault, token]).length - 1) = ps ++ [fault] := by
      rw [hsplit, List.length_append, List.length_singleton, Nat.add_sub_cancel, List.take_left]
    rw [hextras, if_pos rfl]
    exact congrArg (·, [token]) htake
  | false =>
    have hextras : ((ps ++ [fault, token]).reverse.takeWhile (·.facts.extra)).reverse = [] := by simp [htoken]
    rw [hextras, if_neg Bool.false_ne_true]
    exact congrArg (·, []) List.take_length

/-- The end comes after an error. -/
theorem costsFaults_of_whole {ps : List Piece} {fault token whole : Piece} {n : Nat} (hfault : fault.Charged)
    (hkind : fault.facts.kind = .error) (hextra : fault.facts.extra = false) (htoken : token.facts.kind = .symbol n)
    (hwhole : wholeOf? l s (ps ++ [fault, token]) = some whole) : whole.CostsFaults l := by
  obtain ⟨root, before, heq, rfl⟩ := exists_root_of_whole hwhole
  rw [splitExtras_append_pair ps hextra] at heq
  cases hcase : token.facts.extra with
  | true =>
    -- the error is the last piece that is no extra
    rw [hcase, if_pos rfl, List.reverse_append] at heq
    obtain ⟨rfl, rfl⟩ := List.cons.inj heq
    rw [hkind]
    exact Piece.charged_join_error.costsFaults
  | false =>
    -- the end is the last piece that is no extra, and the error is before it
    rw [hcase, if_neg Bool.false_ne_true, List.reverse_append] at heq
    obtain ⟨rfl, rfl⟩ := List.cons.inj heq
    rw [htoken]
    refine Piece.costsFaults_join_of_error (c := fault) ?_ hfault hkind
    simp

/-! ## Readers -/

/-- The stack is sound, and what has been finished costs something if and only if something in it is faulty. -/
structure Reader.Sound (l : Language) (r : Reader) : Prop where
  stack : r.stack.Sound
  finished : ∀ p ∈ r.finished, p.CostsFaults l

namespace Reader

variable {r : Reader}

theorem Sound.withStack (h : r.Sound l) {k : Stack} (hk : k.Sound) : Sound l { r with stack := k } :=
  ⟨hk, h.finished⟩

/-- The better of two finished pieces is kept by `finishWith`, and both cost something just if they are faulty. -/
theorem Sound.finishWith (h : r.Sound l) {whole : Piece} (hwhole : whole.CostsFaults l) :
    (r.finishWith whole).Sound l := by
  refine ⟨h.stack, fun p hp => ?_⟩
  cases Option.some.inj hp
  split
  next old hold =>
    split
    · exact hwhole
    · exact h.finished old hold
  next => exact hwhole

/-- The frame at the end leads nowhere. -/
theorem Sound.finish {k : Stack} (h : k.Sound) (v : Nat) (last : List Piece) : (k.finish v last).Sound := by
  have hstays := Stack.stays_push k.frames
    { k.top v with links := #[], state := 1, place := (last.getLast?.map (·.facts.stop)).getD (k.top v).place }
  refine ⟨h.linked.push fun x hx => absurd hx (Array.not_mem_empty x), hstays.ne_zero h.start, ?_⟩
  show Stack.Waiting (k.branches.modify v fun b => { b with frame := k.frames.size, status := .halted })
  exact h.waiting.modify fun _ _ => nofun

/-- Each way to the end of branch `v` is a whole, and the reader keeps the best of them. -/
theorem Sound.accept (h : r.Sound l) {last : List Piece}
    (hwhole : ∀ ps ∈ r.stack.popAll v, ∀ w, wholeOf? l s (ps ++ last) = some w → w.CostsFaults l) :
    (r.accept l s v last).Sound l := by
  have hall : Sound l ((((r.stack.popAll v).toList.filterMap fun ps => wholeOf? l s (ps ++ last))).foldl
      Reader.finishWith r) := by
    refine List.foldlRecOn (motive := Sound l) _ _ h fun r hr w hw => hr.finishWith ?_
    obtain ⟨ps, hps, heq⟩ := List.mem_filterMap.mp hw
    exact hwhole ps (Array.mem_toList_iff.mp hps) w heq
  exact hall.withStack (Sound.finish hall.stack v last)

end Reader

end PayloadAtlas.Python
