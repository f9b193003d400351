import Mathlib.Data.List.Find
import Mathlib.Data.List.Forall2
import Mathlib.Data.Option.NAry
import PayloadAtlas.Proofs.Grammar.Yield

/-!
# What is known about the nodes of a rule

`outline` goes through a rule once, and tells how the nodes that it yields may show, whether it always yields just
one, and which fields always have a node. What a rule yields is as its outline says (`fits_of_yields`), so that
what holds of the outlines for nodes of a kind holds of every node of that kind that conforms to the grammar
(`Conforms.covers`, `Conforms.exists_child?`). Where a rule is one part after another, and each is one node, the
children of a node are these parts in their places (`isSequence_of_yields`).
-/

namespace PayloadAtlas.Grammar

open PayloadAtlas.Python.Piece (withField)

/-! ## Going through a rule -/

/-- What is known about all that a rule yields. -/
structure Outline where
  /-- How the nodes may show, apart from extra ones. -/
  symbols : List Appearance
  /-- Whether there is always just one node. -/
  single : Bool
  /-- The fields that always have a node. -/
  fields : List String
  deriving DecidableEq, Repr

/-- The nodes `ts` are as the outline `o` says. -/
structure Outline.Fits (g : Grammar) (o : Outline) (ts : List Tree) : Prop where
  covers : ∀ t ∈ ts, IsTrivia g t ∨ t.isExtra = false ∧ t.appearance ∈ o.symbols
  single : o.single = true → ∃ t, ts = [t] ∧ t.isExtra = false
  fills : ∀ f ∈ o.fields, ∃ t ∈ ts, t.isExtra = false ∧ t.tag.field = some f

namespace Outline

/-- No node. -/
def nothing : Outline := ⟨[], false, []⟩

/-- One node. -/
def node (a : Appearance) : Outline := ⟨[a], true, a.field.toList⟩

/-- The outline of one thing after the other. -/
def seq (o p : Outline) : Outline := ⟨o.symbols ++ p.symbols, false, o.fields ++ p.fields⟩

/-- The outline of either of two things: a field always has a node if it does in both. -/
def choice (o p : Outline) : Outline :=
  ⟨o.symbols ++ p.symbols, o.single && p.single, o.fields.filter (· ∈ p.fields)⟩

/-- The outline of something once or more often. -/
def many (o : Outline) : Outline := { o with single := false }

/-- The nodes of a hidden rule in a field; where there may be extra nodes, nothing is known. -/
def inField? (o : Outline) : Option String → Option Outline
  | none => some o
  | some f =>
    if o.single then some { o with symbols := o.symbols.map fun a => { a with field := a.field.or (some f) } }
    else none

variable {g : Grammar} {o p : Outline} {ts es us : List Tree}

theorem fits_nothing : nothing.Fits g [] :=
  ⟨fun _ ht => absurd ht List.not_mem_nil, fun h => (Bool.false_ne_true h).elim, fun _ hf => absurd hf List.not_mem_nil⟩

theorem fits_node {a : Appearance} {t : Tree} (h : Shows a t) : (node a).Fits g [t] where
  covers u hu := by
    cases List.mem_singleton.mp hu
    exact .inr ⟨h.own, List.mem_singleton.mpr h.appearance_eq⟩
  single _ := ⟨t, rfl, h.own⟩
  fills f hf := by
    refine ⟨t, List.mem_singleton_self t, h.own, ?_⟩
    have hfield : t.tag.field = a.field := congrArg Appearance.field h.appearance_eq
    rw [hfield]
    exact Option.mem_toList.mp hf

/-- What fits two outlines fits their sequence, with extra nodes `es` between them. -/
theorem Fits.seq (ho : o.Fits g ts) (hes : ∀ e ∈ es, IsTrivia g e) (hp : p.Fits g us) :
    (o.seq p).Fits g (ts ++ es ++ us) where
  covers t ht := by
    rw [List.mem_append, List.mem_append] at ht
    rcases ht with (ht | ht) | ht
    · exact (ho.covers t ht).imp_right fun ⟨hown, hmem⟩ => ⟨hown, List.mem_append_left _ hmem⟩
    · exact .inl (hes t ht)
    · exact (hp.covers t ht).imp_right fun ⟨hown, hmem⟩ => ⟨hown, List.mem_append_right _ hmem⟩
  single h := (Bool.false_ne_true h).elim
  fills f hf := by
    rcases List.mem_append.mp hf with hf | hf
    · obtain ⟨t, ht, hfill⟩ := ho.fills f hf
      exact ⟨t, List.mem_append_left _ (List.mem_append_left _ ht), hfill⟩
    · obtain ⟨t, ht, hfill⟩ := hp.fills f hf
      exact ⟨t, List.mem_append_right _ ht, hfill⟩

/-- What fits the first outline fits the choice. -/
theorem Fits.one (ho : o.Fits g ts) : (o.choice p).Fits g ts where
  covers t ht := (ho.covers t ht).imp_right fun ⟨hown, hmem⟩ => ⟨hown, List.mem_append_left _ hmem⟩
  single h := ho.single (Bool.and_eq_true_iff.mp h).1
  fills f hf := ho.fills f (List.mem_of_mem_filter hf)

/-- What fits the second outline fits the choice. -/
theorem Fits.other (hp : p.Fits g ts) : (o.choice p).Fits g ts where
  covers t ht := (hp.covers t ht).imp_right fun ⟨hown, hmem⟩ => ⟨hown, List.mem_append_right _ hmem⟩
  single h := hp.single (Bool.and_eq_true_iff.mp h).2
  fills f hf := hp.fills f (of_decide_eq_true (List.mem_filter.mp hf).2)

theorem Fits.many (ho : o.Fits g ts) : o.many.Fits g ts where
  covers := ho.covers
  single h := (Bool.false_ne_true h).elim
  fills := ho.fills

@[simp] theorem withField_none (t : Tree) : withField none t = t := by
  cases t with
  | node tag cs => simp [withField]

@[simp] theorem isExtra_withField (field : Option String) (t : Tree) : (withField field t).isExtra = t.isExtra := by
  cases t
  rfl

@[simp] theorem field_withField (field : Option String) (t : Tree) :
    (withField field t).tag.field = t.tag.field.or field := by
  cases t
  rfl

theorem appearance_withField (field : Option String) (t : Tree) :
    (withField field t).appearance = { t.appearance with field := t.appearance.field.or field } := by
  cases t
  rfl

/-- One more run of nodes, with extra nodes `es` before the others. -/
theorem Fits.again (ho : o.Fits g ts) (hes : ∀ e ∈ es, IsTrivia g e) (hmany : o.many.Fits g us) :
    o.many.Fits g (ts ++ es ++ us) where
  covers t ht := by
    rw [List.mem_append, List.mem_append] at ht
    rcases ht with (ht | ht) | ht
    · exact ho.covers t ht
    · exact .inl (hes t ht)
    · exact hmany.covers t ht
  single h := (Bool.false_ne_true h).elim
  fills f hf := by
    obtain ⟨t, ht, hfill⟩ := ho.fills f hf
    exact ⟨t, List.mem_append_left _ (List.mem_append_left _ ht), hfill⟩

/-- The nodes of a hidden rule, put in a field by `inField?`. -/
theorem Fits.inField {field : Option String} (ho : o.Fits g ts) (h : o.inField? field = some p) :
    p.Fits g (ts.map (withField field)) := by
  cases field with
  | none =>
    cases h
    rw [List.map_congr_left fun t _ => withField_none t, List.map_id']
    exact ho
  | some f =>
    rw [inField?] at h
    split at h
    · next hsingle =>
      obtain rfl := Option.some.inj h
      obtain ⟨t, rfl, hown⟩ := ho.single hsingle
      -- the one node is not extra, so it is among the symbols
      have hmem : t.appearance ∈ o.symbols := by
        rcases ho.covers t (List.mem_singleton_self t) with htrivia | ⟨_, hmem⟩
        · exact (Bool.false_ne_true (hown.symm.trans htrivia.extra)).elim
        · exact hmem
      refine ⟨fun u hu => ?_, fun _ => ⟨_, rfl, by simpa using hown⟩, fun f' hf' => ?_⟩
      · cases List.mem_singleton.mp hu
        refine .inr ⟨by simpa using hown, ?_⟩
        rw [appearance_withField]
        exact List.mem_map.mpr ⟨_, hmem, rfl⟩
      · obtain ⟨u, hu, _, hfield⟩ := ho.fills f' hf'
        cases List.mem_singleton.mp hu
        exact ⟨_, List.mem_singleton_self _, by simpa using hown, by simp [hfield]⟩
    · cases h

end Outline

/-- The outline of what a rule yields in a slot; `hidden` gives that of the rules it refers to. -/
def outlineWith (g : Grammar) (hidden : Slot → Rule → Option Outline) : Slot → Rule → Option Outline
  | _, .blank => some .nothing
  | slot, .text s => some (.node (shownAs slot s false))
  | slot, .pattern p =>
    if slot.1.isSome = true ∨ isHiddenName p = false then some (.node (shownAs slot p false)) else some .nothing
  | slot, .ref n =>
    if n ∈ g.inlined then (g.rule? n).bind (hidden slot)
    else if slot.1.isSome = true ∨ ¬g.Hides n then some (.node (shownAs slot n true))
    else
      match g.rule? n with
      | none => some .nothing
      | some r => (hidden (none, none) r).bind (·.inField? slot.2)
  | slot, .seq a b => Option.map₂ .seq (g.outlineWith hidden slot a) (g.outlineWith hidden slot b)
  | slot, .choice a b => Option.map₂ .choice (g.outlineWith hidden slot a) (g.outlineWith hidden slot b)
  | slot, .repeat1 r => (g.outlineWith hidden slot r).map .many
  | slot, .prec _ _ r | slot, .dynamic _ r => g.outlineWith hidden slot r
  | slot, .relabel l r => g.outlineWith hidden (some l, slot.2) r
  | slot, .field f r => g.outlineWith hidden (slot.1, some f) r

/-- The outline of what a rule yields, if hidden rules lie in one another at most so deep. -/
def outline (g : Grammar) : Nat → Slot → Rule → Option Outline
  | 0 => g.outlineWith fun _ _ => none
  | depth + 1 => g.outlineWith (g.outline depth)

/-- What a rule yields is as `outlineWith` says, if it is so for the `hidden` rules. -/
theorem fits_outlineWith {g : Grammar} {hidden : Slot → Rule → Option Outline}
    (hhidden : ∀ {slot r b ts o}, Yields g slot r b ts → hidden slot r = some o → o.Fits g ts)
    {slot : Slot} {r : Rule} {b : Bool} {ts : List Tree} {o : Outline} (h : Yields g slot r b ts)
    (ho : g.outlineWith hidden slot r = some o) : o.Fits g ts := by
  -- along the yield; only an inlined and a hidden rule lead elsewhere, to what is known of the hidden ones
  induction h generalizing o with
  | blank =>
    cases ho
    exact Outline.fits_nothing
  | text h =>
    cases ho
    exact Outline.fits_node h
  | pattern hshown h =>
    rw [outlineWith, if_pos hshown] at ho
    cases ho
    exact Outline.fits_node h
  | hiddenPattern hpattern =>
    rw [outlineWith, if_neg (by simp [hpattern])] at ho
    cases ho
    exact Outline.fits_nothing
  | node hinlined hshown h =>
    rw [outlineWith, if_neg hinlined, if_pos hshown] at ho
    cases ho
    exact Outline.fits_node h
  | inlined hinlined hrule h =>
    rw [outlineWith, if_pos hinlined, hrule] at ho
    exact hhidden h ho
  | hidden hinlined hhides hrule h =>
    rw [outlineWith, if_neg hinlined, if_neg (by simp [hhides]), hrule] at ho
    obtain ⟨p, hp, hfield⟩ := Option.bind_eq_some_iff.mp ho
    exact (hhidden h hp).inField hfield
  | layout hinlined hhides hrule _ =>
    rw [outlineWith, if_neg hinlined, if_neg (by simp [hhides]), hrule] at ho
    cases ho
    exact Outline.fits_nothing
  | seq first between rest ihfirst ihrest =>
    obtain ⟨p, q, hp, hq, rfl⟩ := Option.map₂_eq_some_iff.mp ho
    exact (ihfirst hp).seq (fun e he => (between e he).2.2) (ihrest hq)
  | one h ih =>
    obtain ⟨p, q, hp, hq, rfl⟩ := Option.map₂_eq_some_iff.mp ho
    exact (ih hp).one
  | other h ih =>
    obtain ⟨p, q, hp, hq, rfl⟩ := Option.map₂_eq_some_iff.mp ho
    exact (ih hq).other
  | once h ih =>
    rw [outlineWith] at ho
    obtain ⟨p, hp, rfl⟩ := Option.map_eq_some_iff.mp ho
    exact (ih hp).many
  | again first between rest ihfirst ihrest =>
    have hrest := ihrest ho
    rw [outlineWith] at ho
    obtain ⟨p, hp, rfl⟩ := Option.map_eq_some_iff.mp ho
    exact (ihfirst hp).again (fun e he => (between e he).2.2) hrest
  | prec h ih => exact ih ho
  | dynamic h ih => exact ih ho
  | relabel h ih => exact ih ho
  | field h ih => exact ih ho

/-- What a rule yields is as its `outline` says. -/
theorem fits_of_yields {g : Grammar} {depth : Nat} {slot : Slot} {r : Rule} {b : Bool} {ts : List Tree}
    {o : Outline} (h : Yields g slot r b ts) (ho : g.outline depth slot r = some o) : o.Fits g ts := by
  induction depth generalizing slot r b ts o with
  | zero => exact fits_outlineWith (fun _ hnone => absurd hnone (Option.some_ne_none _).symm) h ho
  | succ depth ih => exact fits_outlineWith ih h ho

/-- What the outline of a rule says of its symbols, `p`, is so of all nodes but extra ones. -/
theorem covers_of_yields {g : Grammar} {depth : Nat} {slot : Slot} {r : Rule} {b : Bool} {ts : List Tree}
    (h : Yields g slot r b ts) {p : Appearance → Bool}
    (hp : (g.outline depth slot r).any fun o => o.symbols.all p) :
    ∀ t ∈ ts, IsTrivia g t ∨ t.isExtra = false ∧ p t.appearance = true := by
  intro t ht
  obtain ⟨o, ho, hall⟩ := (Option.any_eq_true _ _).mp hp
  exact ((fits_of_yields h ho).covers t ht).imp_right fun ⟨hown, hmem⟩ => ⟨hown, List.all_eq_true.mp hall _ hmem⟩

/-- A rule that always yields one node yields one that is as the outline says of its symbols. -/
theorem exists_of_single {g : Grammar} (depth : Nat) {slot : Slot} {r : Rule} {b : Bool} {ts : List Tree}
    (h : Yields g slot r b ts) {p : Appearance → Bool}
    (hp : (g.outline depth slot r).any fun o => o.single && o.symbols.all p) :
    ∃ t, ts = [t] ∧ t.isExtra = false ∧ p t.appearance = true := by
  obtain ⟨o, ho, hone⟩ := (Option.any_eq_true _ _).mp hp
  obtain ⟨hsingle, hall⟩ := Bool.and_eq_true_iff.mp hone
  have hfits := fits_of_yields h ho
  obtain ⟨t, rfl, hown⟩ := hfits.single hsingle
  refine ⟨t, rfl, hown, ?_⟩
  rcases hfits.covers t (List.mem_singleton_self t) with htrivia | ⟨-, hmem⟩
  · exact (Bool.false_ne_true (hown.symm.trans htrivia.extra)).elim
  · exact List.all_eq_true.mp hall _ hmem

/-! ## What a conforming node holds -/

section Conforming

variable {g : Grammar} {n : Tree} {kind : String} {depth : Nat}

/-- Where there is one rule for nodes of a kind, the children of such a node are what it `Yields`. -/
theorem Conforms.exists_yields (h : g.Conforms n) (hnamed : n.tag.named = true) (hkind : n.kind = kind) {r : Rule}
    (hbodies : g.bodies kind = [r]) : ∃ b, Yields g (none, none) r b n.children := by
  obtain ⟨s, hs, hyields⟩ := h hnamed
  rw [hkind, hbodies] at hs
  cases List.mem_singleton.mp hs
  exact hyields

/-- What all outlines for nodes of a kind say of the symbols is so of the children. -/
theorem Conforms.covers (h : g.Conforms n) (hnamed : n.tag.named = true) (hkind : n.kind = kind)
    {p : Appearance → Bool}
    (hbodies : (g.bodies kind).all fun r => (g.outline depth (none, none) r).any fun o => o.symbols.all p) :
    ∀ c ∈ n.children, IsTrivia g c ∨ c.isExtra = false ∧ p c.appearance = true := by
  obtain ⟨r, hr, b, hyields⟩ := h hnamed
  rw [hkind] at hr
  exact covers_of_yields hyields (List.all_eq_true.mp hbodies r hr)

/-- Whether a node of a `kind` always has something in `field`, and only what passes the `test`. -/
def fillsWith (g : Grammar) (depth : Nat) (kind field : String) (test : Appearance → Bool) : Bool :=
  (g.bodies kind).all fun r => (g.outline depth (none, none) r).any fun o =>
    decide (field ∈ o.fields) && o.symbols.all fun a => a.field != some field || test a

/-- The child in a field that is always filled, by `fillsWith`. -/
theorem Conforms.exists_child? (h : g.Conforms n) (hnamed : n.tag.named = true) (hkind : n.kind = kind)
    {field : String} {test : Appearance → Bool} (hfills : g.fillsWith depth kind field test = true) :
    ∃ c, n.child? field = some c ∧ c ∈ n.children ∧ c.isExtra = false ∧ test c.appearance = true := by
  obtain ⟨r, hr, b, hyields⟩ := h hnamed
  rw [hkind] at hr
  obtain ⟨o, ho, hboth⟩ := (Option.any_eq_true _ _).mp (List.all_eq_true.mp hfills r hr)
  obtain ⟨hmem, hall⟩ := Bool.and_eq_true_iff.mp hboth
  have hfits := fits_of_yields hyields ho
  obtain ⟨d, hd, -, hfield⟩ := hfits.fills field (of_decide_eq_true hmem)
  obtain ⟨c, hc⟩ := Option.isSome_iff_exists.mp
    (List.find?_isSome (p := fun c : Tree => c.tag.field == some field).mpr ⟨d, hd, by simp [hfield]⟩)
  have hmem := List.mem_of_find?_eq_some hc
  have hfield : c.tag.field = some field := by simpa using List.find?_some hc
  refine ⟨c, hc, hmem, ?_⟩
  rcases hfits.covers c hmem with htrivia | ⟨hown, hsymbol⟩
  · cases htrivia.field_eq.symm.trans hfield
  · refine ⟨hown, ?_⟩
    have hfield : c.appearance.field = some field := hfield
    simpa [hfield] using List.all_eq_true.mp hall _ hsymbol

end Conforming

/-! ## One part after another -/

/-- Each node, apart from extra ones, passes the test for its place in the list; no extra node comes first or is in a
field. -/
structure IsSequence (tests : List (Appearance → Bool)) (ts : List Tree) : Prop where
  parts : List.Forall₂ (fun test t => test t.appearance = true) tests (ts.filter fun t => !t.isExtra)
  first : ts.head? = (ts.filter fun t => !t.isExtra).head?
  extra : ∀ t ∈ ts, t.isExtra = true → t.tag.field = none

/-- Whether each rule always yields just one node, and one that passes the test for its place. -/
def passes (g : Grammar) (depth : Nat) : List Rule → List (Appearance → Bool) → Bool
  | [], [] => true
  | r :: rs, test :: tests =>
    ((g.outline depth (none, none) r).any fun o => o.single && o.symbols.all test) && g.passes depth rs tests
  | _, _ => false

theorem exists_of_passes_cons {g : Grammar} {depth : Nat} {r : Rule} {rs : List Rule}
    {tests : List (Appearance → Bool)} (h : g.passes depth (r :: rs) tests = true) :
    ∃ test rest, tests = test :: rest ∧ g.passes depth rs rest = true ∧
      ∀ {b ts}, Yields g (none, none) r b ts → ∃ t, ts = [t] ∧ t.isExtra = false ∧ test t.appearance = true := by
  cases tests with
  | nil => cases h
  | cons test rest =>
    obtain ⟨hone, hrest⟩ := Bool.and_eq_true_iff.mp h
    exact ⟨test, rest, rfl, hrest, fun hyields => exists_of_single depth hyields hone⟩

theorem IsSequence.nil : IsSequence [] [] := ⟨.nil, rfl, fun _ ht => absurd ht List.not_mem_nil⟩

/-- A node that passes the first `test`, and extra ones, before a sequence. -/
theorem IsSequence.cons {g : Grammar} {test : Appearance → Bool} {tests : List (Appearance → Bool)} {t : Tree}
    {es us : List Tree} (hown : t.isExtra = false) (htest : test t.appearance = true)
    (htrivia : ∀ e ∈ es, IsTrivia g e) (h : IsSequence tests us) : IsSequence (test :: tests) ([t] ++ es ++ us) := by
  have hes : (es.filter fun e => !e.isExtra) = [] := by
    apply List.filter_eq_nil_iff.mpr
    intro e he
    simp [(htrivia e he).extra]
  have hfilter : (([t] ++ es ++ us).filter fun t => !t.isExtra) = t :: us.filter fun t => !t.isExtra := by
    rw [List.filter_append, List.filter_append, hes, List.append_nil, List.filter_cons_of_pos (by simp [hown])]
    rfl
  refine ⟨?_, ?_, ?_⟩
  · rw [hfilter]
    exact .cons htest h.parts
  · rw [hfilter]
    rfl
  · intro u hu hextra
    rw [List.append_assoc, List.singleton_append, List.mem_cons, List.mem_append] at hu
    rcases hu with rfl | hu | hu
    · exact (Bool.false_ne_true (hown.symm.trans hextra)).elim
    · exact (htrivia u hu).field_eq
    · exact h.extra u hu hextra

/-- Rules that each yield one node yield what `IsSequence` says. -/
theorem isSequence_of_yields {g : Grammar} (depth : Nat) {rs : List Rule} {b : Bool} {ts : List Tree}
    {tests : List (Appearance → Bool)} (h : Yields g (none, none) (.seqs rs) b ts)
    (hpasses : g.passes depth rs tests = true) : IsSequence tests ts := by
  induction rs generalizing b ts tests with
  | nil =>
    cases h
    cases tests with
    | nil => exact .nil
    | cons => cases hpasses
  | cons r rs ih =>
    obtain ⟨test, rest, rfl, hrest, hone⟩ := exists_of_passes_cons hpasses
    cases rs with
    | nil =>
      -- the last rule stands by itself, with nothing behind it
      obtain ⟨t, rfl, hown, htest⟩ := hone h
      cases rest with
      | nil =>
        have hnone : ∀ e ∈ [], IsTrivia g e := fun _ he => absurd he List.not_mem_nil
        exact .cons hown htest hnone .nil
      | cons => cases hrest
    | cons s rs =>
      cases h with
      | seq first between behind =>
        obtain ⟨t, rfl, hown, htest⟩ := hone first
        exact .cons hown htest (fun e he => (between e he).2.2) (ih behind hrest)

theorem Yields.seq_choice {g : Grammar} {slot : Slot} {r s s' : Rule} {b : Bool} {ts : List Tree}
    (h : Yields g slot (.seq r (.choice s s')) b ts) :
    Yields g slot (.seq r s) b ts ∨ Yields g slot (.seq r s') b ts := by
  cases h with
  | seq first between rest =>
    cases rest with
    | one h => exact .inl (.seq first between h)
    | other h => exact .inr (.seq first between h)

section Sequence

variable {t : Tree} {tests : List (Appearance → Bool)}

theorem IsSequence.exists_three {p q r : Appearance → Bool} (h : IsSequence [p, q, r] t.children) :
    ∃ a b c, t.ownChildren = [a, b, c] ∧ p a.appearance = true ∧ q b.appearance = true ∧ r c.appearance = true := by
  obtain ⟨a, _, ha, hqr, hown⟩ := List.forall₂_cons_left_iff.mp h.parts
  obtain ⟨b, _, hb, hr, rfl⟩ := List.forall₂_cons_left_iff.mp hqr
  obtain ⟨c, _, hc, hnil, rfl⟩ := List.forall₂_cons_left_iff.mp hr
  obtain rfl := List.forall₂_nil_left_iff.mp hnil
  exact ⟨a, b, c, hown, ha, hb, hc⟩

/-- The parts of a sequence of five. -/
theorem IsSequence.exists_five {p q r p' q' : Appearance → Bool} (h : IsSequence [p, q, r, p', q'] t.children) :
    ∃ a b c d e, t.ownChildren = [a, b, c, d, e] ∧ p a.appearance = true ∧ q b.appearance = true ∧
      r c.appearance = true ∧ p' d.appearance = true ∧ q' e.appearance = true := by
  obtain ⟨a, _, ha, hfour, hown⟩ := List.forall₂_cons_left_iff.mp h.parts
  obtain ⟨b, _, hb, hthree, rfl⟩ := List.forall₂_cons_left_iff.mp hfour
  obtain ⟨c, _, hc, htwo, rfl⟩ := List.forall₂_cons_left_iff.mp hthree
  obtain ⟨d, _, hd, hone, rfl⟩ := List.forall₂_cons_left_iff.mp htwo
  obtain ⟨e, _, he, hnil, rfl⟩ := List.forall₂_cons_left_iff.mp hone
  obtain rfl := List.forall₂_nil_left_iff.mp hnil
  exact ⟨a, b, c, d, e, hown, ha, hb, hc, hd, he⟩

/-- In a sequence `child?` is found among those that are not extra. -/
theorem IsSequence.child?_eq (h : IsSequence tests t.children) (field : String) :
    t.child? field = t.ownChildren.find? (·.tag.field == some field) := by
  rw [Tree.child?, Tree.ownChildren, List.find?_filter]
  apply List.find?_congr
  intro c hc
  cases hextra : c.isExtra with
  | false => rw [Bool.eq_iff_iff]; simp
  | true => simp [h.extra c hc hextra]

/-- The first of `namedChildren` is the first that is not extra, if that has a name. -/
theorem IsSequence.head?_namedChildren (h : IsSequence tests t.children)
    (hnamed : ∀ c ∈ t.ownChildren.head?, c.tag.named = true) : t.namedChildren.head? = t.ownChildren.head? := by
  have hfirst : t.children.head? = t.ownChildren.head? := h.first
  rw [Tree.head?_namedChildren (by rwa [hfirst]), hfirst]

end Sequence

end PayloadAtlas.Grammar
