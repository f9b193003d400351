import PayloadAtlas.Proofs.Text.Order
import PayloadAtlas.Shape

/-!
# What tells shapes apart

A `Handler` is what a shape stands for: a function that handles a method at a path. Shapes are matched by a
text, `Shape.identity`, in which the three parts stand one after the other. For *plain* shapes, which have
no space in the method and no colon in the name of the function, nothing is lost by that: the text is the
same exactly if the handler is (`identity_eq_iff`). The signature of a shape is a set of tokens, written as a
list, and equal as a list exactly if it is equal as a set (`signature_eq_iff`).
-/

namespace PayloadAtlas

/-- Who handles what. -/
structure Handler where
  method : String
  path : String
  function : String
  deriving DecidableEq, Repr

namespace Shape

variable {s t : Shape}

/-- The handler that a shape is of, by its method, its path and its function. -/
def handler (s : Shape) : Handler := ⟨s.method, s.path, s.function⟩

/-- No space is in the method, and no `:` in the name of the function. -/
def Plain (s : Shape) : Prop := ' ' ∉ s.method.toList ∧ ':' ∉ s.function.toList

instance : Decidable s.Plain := inferInstanceAs (Decidable (_ ∧ _))

/-! ## Texts with separators -/

/-- A text is cut in one way only at the first place of `sep`. -/
theorem append_cons_inj {α : Type} {sep : α} {a b x y : List α} (ha : sep ∉ a) (hb : sep ∉ b)
    (h : a ++ sep :: x = b ++ sep :: y) : a = b ∧ x = y := by
  -- neither text before the separator can end before the other
  induction a generalizing b with
  | nil =>
    cases b with
    | nil => simpa using h
    | cons d b =>
      have hd : sep = d := (List.cons.inj h).1
      exact absurd (List.mem_cons.mpr (Or.inl hd)) hb
  | cons c a ih =>
    cases b with
    | nil =>
      have hc : c = sep := (List.cons.inj h).1
      exact absurd (List.mem_cons.mpr (Or.inl hc.symm)) ha
    | cons d b =>
      obtain ⟨hcd, hrest⟩ := List.cons.inj h
      have ha' : sep ∉ a := fun hm => ha (List.mem_cons_of_mem c hm)
      have hb' : sep ∉ b := fun hm => hb (List.mem_cons_of_mem d hm)
      obtain ⟨hab, hxy⟩ := ih ha' hb' hrest
      exact ⟨by rw [hcd, hab], hxy⟩

/-- A text is cut in one way only at the last place of `sep`. -/
theorem append_cons_inj_right {α : Type} {sep : α} {a b x y : List α} (hx : sep ∉ x) (hy : sep ∉ y)
    (h : a ++ sep :: x = b ++ sep :: y) : a = b ∧ x = y := by
  have hrev : x.reverse ++ sep :: a.reverse = y.reverse ++ sep :: b.reverse := by
    simpa using congrArg List.reverse h
  obtain ⟨hxy, hab⟩ := append_cons_inj (by simpa using hx) (by simpa using hy) hrev
  exact ⟨List.reverse_inj.mp hab, List.reverse_inj.mp hxy⟩

/-- A blank stands between the method and the path in `routeLabel`. -/
theorem toList_routeLabel (s : Shape) :
    s.routeLabel.toList = s.method.toList ++ ' ' :: s.path.toList := by
  simp [routeLabel]

/-- The text `::` stands between the label of the route and the function. -/
theorem toList_identity (s : Shape) :
    s.identity.toList = (s.routeLabel.toList ++ [':']) ++ ':' :: s.function.toList := by
  simp [identity, routeLabel]

/-! ## Identities -/

/-- The label tells the method and the path, as no method has a blank. -/
theorem routeLabel_eq_iff (hs : s.Plain) (ht : t.Plain) :
    s.routeLabel = t.routeLabel ↔ s.method = t.method ∧ s.path = t.path := by
  constructor
  · intro h
    have hlist := congrArg String.toList h
    rw [toList_routeLabel, toList_routeLabel] at hlist
    obtain ⟨hm, hp⟩ := append_cons_inj hs.1 ht.1 hlist
    exact ⟨String.toList_inj.mp hm, String.toList_inj.mp hp⟩
  · rintro ⟨hm, hp⟩
    rw [routeLabel, routeLabel, hm, hp]

/-- Plain shapes have the same `identity` exactly if they are of the same handler. -/
theorem identity_eq_iff (hs : s.Plain) (ht : t.Plain) :
    s.identity = t.identity ↔ s.handler = t.handler := by
  simp only [handler, Handler.mk.injEq]
  constructor
  · intro h
    have hlist := congrArg String.toList h
    rw [toList_identity, toList_identity] at hlist
    obtain ⟨hroute, hf⟩ := append_cons_inj_right hs.2 ht.2 hlist
    have hlabel : s.routeLabel = t.routeLabel :=
      String.toList_inj.mp (List.append_cancel_right hroute)
    obtain ⟨hm, hp⟩ := (routeLabel_eq_iff hs ht).mp hlabel
    exact ⟨hm, hp, String.toList_inj.mp hf⟩
  · rintro ⟨hm, hp, hf⟩
    rw [identity, identity, hm, hp, hf]

/-! ## Signatures -/

/-- A `signature` has the tokens of its parameters and those of their fields. -/
theorem mem_signature {token : String} :
    token ∈ s.signature ↔
      (∃ p ∈ s.parameters, p.token = token) ∨ ∃ p ∈ s.parameters, token ∈ p.fieldTokens := by
  rw [signature, Text.mem_sortedSet, List.mem_append, List.mem_map, List.mem_flatMap]

/-- A signature is a set: it is known by its members. -/
theorem signature_eq_iff :
    s.signature = t.signature ↔ ∀ token, token ∈ s.signature ↔ token ∈ t.signature := by
  unfold signature
  rw [Text.sortedSet_eq_iff]
  simp only [Text.mem_sortedSet]

end Shape

end PayloadAtlas
