import PayloadAtlas.Proofs.Tree.Bare
import PayloadAtlas.Python.Piece

/-!
# The trees of a grammar

What the children of a node may be, as the grammar says it. A rule yields nodes (`Yields`): a token or a rule
with a name of its own yields one node, which shows under the label and in the field that the rule has there; a
hidden rule yields the nodes of what it stands for; the tokens of the layout scanner yield none. Comments and
the like may stand between any two parts that are there.

A node conforms to the grammar (`Conforms`) if its children are what a rule for nodes of its kind yields. That
says nothing about what is inside the children: the grammar allows a tree if all its nodes conform (`Allows`).
-/

namespace PayloadAtlas

/-- How a node shows in its parent. -/
structure Appearance where
  kind : String
  named : Bool
  field : Option String
  deriving DecidableEq, Repr

namespace Tree

/-- How the root of `t` shows in its parent. -/
def appearance (t : Tree) : Appearance := ⟨t.kind, t.tag.named, t.tag.field⟩

/-- The children of `t` that are not extra. -/
def ownChildren (t : Tree) : List Tree := t.children.filter fun c => !c.isExtra

end Tree

namespace Grammar

open PayloadAtlas.Python.Piece (withField)

/-! ## What a rule yields -/

/-- The rule of `name` in the grammar. -/
def rule? (g : Grammar) (name : String) : Option Rule := g.rules.lookup name

/-- Whether the rule `name` has no node of its own where it has no label. -/
def Hides (g : Grammar) (name : String) : Prop := isHiddenName name = true ∨ name ∈ g.supertypes

instance (g : Grammar) (name : String) : Decidable (g.Hides name) :=
  inferInstanceAs (Decidable (_ ∨ _))

/-- How something shows in a slot: under the `label` and in the `field` that the slot has, if it has them. -/
def shownAs : Slot → String → Bool → Appearance
  | (some label, field), _, _ => ⟨label.text, label.named, field⟩
  | (none, field), kind, named => ⟨kind, named, field⟩

/-- The node `t` is not extra, and shows as `a`. -/
structure Shows (a : Appearance) (t : Tree) : Prop where
  own : t.isExtra = false
  appearance_eq : t.appearance = a

/-- The node `t` is a comment, or another of the nodes that may stand between any two others. -/
structure IsTrivia (g : Grammar) (t : Tree) : Prop where
  extra : t.isExtra = true
  kind_mem : t.kind ∈ g.extras
  field_eq : t.tag.field = none

instance (a : Appearance) (t : Tree) : Decidable (Shows a t) :=
  decidable_of_iff (t.isExtra = false ∧ t.appearance = a) ⟨fun ⟨h, ha⟩ => ⟨h, ha⟩, fun ⟨h, ha⟩ => ⟨h, ha⟩⟩

instance (g : Grammar) (t : Tree) : Decidable (IsTrivia g t) :=
  decidable_of_iff (t.isExtra = true ∧ t.kind ∈ g.extras ∧ t.tag.field = none)
    ⟨fun ⟨h, hkind, hfield⟩ => ⟨h, hkind, hfield⟩, fun ⟨h, hkind, hfield⟩ => ⟨h, hkind, hfield⟩⟩

/-- The nodes that a rule yields in a `Slot`. The truth value says whether a token is read for them. -/
inductive Yields (g : Grammar) : Slot → Rule → Bool → List Tree → Prop
  | blank {slot : Slot} : Yields g slot .blank false []
  | text {slot : Slot} {s : String} {t : Tree} (h : Shows (shownAs slot s false) t) :
      Yields g slot (.text s) true [t]
  | pattern {slot : Slot} {p : String} {t : Tree} (hshown : slot.1.isSome = true ∨ isHiddenName p = false)
      (h : Shows (shownAs slot p false) t) : Yields g slot (.pattern p) true [t]
  | hiddenPattern {field : Option String} {p : String} (hhidden : isHiddenName p = true) :
      Yields g (none, field) (.pattern p) true []
  /-- A rule with a node of its own, or with a label. -/
  | node {slot : Slot} {n : String} {t : Tree} (hinlined : n ∉ g.inlined)
      (hshown : slot.1.isSome = true ∨ ¬g.Hides n) (h : Shows (shownAs slot n true) t) :
      Yields g slot (.ref n) true [t]
  | inlined {slot : Slot} {n : String} {r : Rule} {b : Bool} {ts : List Tree} (hinlined : n ∈ g.inlined)
      (hrule : g.rule? n = some r) (h : Yields g slot r b ts) : Yields g slot (.ref n) b ts
  /-- A rule without a node of its own: the nodes of what it stands for are in its field, if they are in none. -/
  | hidden {field : Option String} {n : String} {r : Rule} {b : Bool} {ts : List Tree}
      (hinlined : n ∉ g.inlined) (hhidden : g.Hides n) (hrule : g.rule? n = some r)
      (h : Yields g (none, none) r b ts) : Yields g (none, field) (.ref n) b (ts.map (withField field))
  /-- A token of the layout scanner without a node. -/
  | layout {field : Option String} {n : String} (hinlined : n ∉ g.inlined) (hhidden : g.Hides n)
      (hrule : g.rule? n = none) (hlayout : n ∈ g.layout) : Yields g (none, field) (.ref n) true []
  /-- Two rules, and extra nodes between two that are both there. -/
  | seq {slot : Slot} {r s : Rule} {b c : Bool} {ts es us : List Tree} (first : Yields g slot r b ts)
      (between : ∀ e ∈ es, b = true ∧ c = true ∧ IsTrivia g e) (rest : Yields g slot s c us) :
      Yields g slot (.seq r s) (b || c) (ts ++ es ++ us)
  | one {slot : Slot} {r s : Rule} {b : Bool} {ts : List Tree} (h : Yields g slot r b ts) :
      Yields g slot (.choice r s) b ts
  | other {slot : Slot} {r s : Rule} {b : Bool} {ts : List Tree} (h : Yields g slot s b ts) :
      Yields g slot (.choice r s) b ts
  | once {slot : Slot} {r : Rule} {b : Bool} {ts : List Tree} (h : Yields g slot r b ts) :
      Yields g slot (.repeat1 r) b ts
  | again {slot : Slot} {r : Rule} {b c : Bool} {ts es us : List Tree} (first : Yields g slot r b ts)
      (between : ∀ e ∈ es, b = true ∧ c = true ∧ IsTrivia g e) (rest : Yields g slot (.repeat1 r) c us) :
      Yields g slot (.repeat1 r) (b || c) (ts ++ es ++ us)
  | prec {slot : Slot} {level : Int} {side : Option Side} {r : Rule} {b : Bool} {ts : List Tree}
      (h : Yields g slot r b ts) : Yields g slot (.prec level side r) b ts
  | dynamic {slot : Slot} {weight : Int} {r : Rule} {b : Bool} {ts : List Tree} (h : Yields g slot r b ts) :
      Yields g slot (.dynamic weight r) b ts
  | relabel {slot : Slot} {label : Label} {r : Rule} {b : Bool} {ts : List Tree}
      (h : Yields g (some label, slot.2) r b ts) : Yields g slot (.relabel label r) b ts
  | field {slot : Slot} {name : String} {r : Rule} {b : Bool} {ts : List Tree}
      (h : Yields g (slot.1, some name) r b ts) : Yields g slot (.field name r) b ts

/-! ## What a node may hold -/

/-- The symbols in a rule that bear a label, each with the kind that it gives them; `label` is the label of the
rule itself. -/
def Rule.labelled (label : Option Label) : Rule → List (String × Rule)
  | .blank => []
  | .text s => label.toList.map fun l => (l.text, .text s)
  | .pattern p => label.toList.map fun l => (l.text, .pattern p)
  | .ref n => label.toList.map fun l => (l.text, .ref n)
  | .seq a b | .choice a b => a.labelled label ++ b.labelled label
  | .repeat1 r | .prec _ _ r | .dynamic _ r | .field _ r => r.labelled label
  | .relabel l r => r.labelled (some l)

/-- What the node of a symbol holds. A rule that is nothing but a token may be that token itself. -/
def inside (g : Grammar) : Rule → List Rule
  | .ref n =>
    match g.rule? n with
    | some (.pattern _) => [.blank]
    | some (.text s) => [.blank, .text s]
    | some r => [r]
    | none => if n ∈ g.layout then [.blank] else []
  | _ => [.blank]

/-- The rules for what is in a node of a kind: those of the rule that has its name, and of the symbols that bear it as
a label. -/
def bodies (g : Grammar) (kind : String) : List Rule :=
  (if kind ∈ g.inlined ∨ g.Hides kind then [] else g.inside (.ref kind)) ++
    ((g.rules.flatMap fun r => r.2.labelled none).filter fun x => x.1 = kind).flatMap fun x => g.inside x.2

/-- The children of a node with a name are what a rule for nodes of its kind yields, one of `bodies`. -/
def Conforms (g : Grammar) (n : Tree) : Prop :=
  n.tag.named = true → ∃ r ∈ g.bodies n.kind, ∃ b, Yields g (none, none) r b n.children

/-- All nodes of `t` conform to the grammar. -/
def Allows (g : Grammar) (t : Tree) : Prop := ∀ n ∈ t.nodes, g.Conforms n

theorem Allows.conforms {g : Grammar} {t : Tree} (h : g.Allows t) : g.Conforms t := h t t.mem_nodes_self

/-- What is below a tree that is allowed is allowed. -/
theorem Allows.child {g : Grammar} {t c : Tree} (h : g.Allows t) (hc : c ∈ t.children) : g.Allows c :=
  fun _ hn => h _ (Tree.nodes_trans (Tree.mem_nodes_of_mem_children hc) hn)

end Grammar

end PayloadAtlas
