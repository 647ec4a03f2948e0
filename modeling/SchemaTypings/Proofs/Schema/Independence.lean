import Mathlib.Data.List.Forall2
import Mathlib.Logic.Relation
import SchemaTypings.Proofs.Markup.Grouping
import SchemaTypings.Schema.Reader
import SchemaTypings.Typings.File

/-!
# What a schema document does not depend on

A document holds more than a schema: messages and bindings beside it, annotations and facets
inside it, attributes that no part of the model keeps. None of that has any influence on what
is read, nor has the order of elements that have different tags (`Document.ofRoot_eq_of_edits`).

The changes that do not matter are the edits of `Edit`, made anywhere in a tree. An edited
tree looks alike to a reader that asks only for the tags and attributes it knows, however deep
it looks (`AlikeTo`); and every part of the reader is such a reader.
-/

namespace SchemaTypings.Schema

open Markup

/-! ## Edits -/

/-- **The tags that mean something in a schema document.** -/
def knownTags : List String :=
  ["definitions", "types", "schema", "simpleType", "complexType", "element", "sequence",
    "restriction", "extension", "enumeration", "complexContent"]

/-- **The attributes that mean something in a schema document.** -/
def knownAttributes : List String :=
  ["name", "type", "minOccurs", "maxOccurs", "nillable", "base", "value"]

/-- **A change that does not matter**, at a node or anywhere below it. -/
inductive Edit : Node → Node → Prop where
  /-- Children change places, and those that have one tag keep their order: a node stores the
  same children under each tag. -/
  | reorder {tag : String} {attributes : List Attribute}
      {groups groups' : List (String × Siblings Node)}
      (h : ∀ wanted, Node.children ⟨tag, attributes, groups⟩ wanted
        = Node.children ⟨tag, attributes, groups'⟩ wanted) :
      Edit ⟨tag, attributes, groups⟩ ⟨tag, attributes, groups'⟩
  /-- A child with a tag that means nothing stands among the others, with all it holds. -/
  | foreignChild (tag : String) (attributes : List Attribute) (before after : List Node)
      {foreign : Node} (h : foreign.tag ∉ knownTags) :
      Edit (.ofChildren tag attributes (before ++ after))
        (.ofChildren tag attributes (before ++ foreign :: after))
  /-- An attribute with a name that means nothing stands among the others. -/
  | foreignAttribute (tag : String) (before after : List Attribute)
      (groups : List (String × Siblings Node)) {foreign : Attribute}
      (h : foreign.name ∉ knownAttributes) :
      Edit ⟨tag, before ++ after, groups⟩ ⟨tag, before ++ foreign :: after, groups⟩
  /-- A child is changed, and the others stay as they are. -/
  | inside (tag : String) (attributes : List Attribute) (before after : List Node)
      {child child' : Node} (h : Edit child child') :
      Edit (.ofChildren tag attributes (before ++ child :: after))
        (.ofChildren tag attributes (before ++ child' :: after))

/-- Changing the order of siblings, where each tag picks the same siblings in the same order,
is an edit. -/
theorem Edit.reorder_siblings (tag : String) (attributes : List Attribute)
    {siblings siblings' : List Node}
    (h : ∀ wanted, Node.withTag wanted siblings = Node.withTag wanted siblings') :
    Edit (.ofChildren tag attributes siblings) (.ofChildren tag attributes siblings') := by
  refine .reorder fun wanted => ?_
  show (Node.ofChildren tag attributes siblings).children wanted
    = (Node.ofChildren tag attributes siblings').children wanted
  rw [Node.children_ofChildren, Node.children_ofChildren, h]

/-- An edit keeps the tag of a node. -/
theorem Edit.tag_eq {n m : Node} (h : Edit n m) : n.tag = m.tag := by
  cases h with
  | reorder _ => rfl
  | foreignChild _ _ _ _ _ => rfl
  | foreignAttribute _ _ _ _ _ => rfl
  | inside _ _ _ _ _ => rfl

/-! ## Nodes that look alike -/

/-- **Two nodes look alike to a depth** if they have the same tag and, as far as is known of,
the same attributes and children, which look alike in their turn. -/
def AlikeTo : Nat → Node → Node → Prop
  | 0, _, _ => True
  | depth + 1, n, m =>
    n.tag = m.tag
      ∧ (∀ name ∈ knownAttributes, n.attribute? name = m.attribute? name)
      ∧ ∀ tag ∈ knownTags, List.Forall₂ (AlikeTo depth) (n.children tag) (m.children tag)

/-- Every node looks like itself. -/
theorem AlikeTo.refl (depth : Nat) (n : Node) : AlikeTo depth n n := by
  induction depth generalizing n with
  | zero => trivial
  | succ depth ih =>
    exact ⟨rfl, fun _ _ => rfl, fun _ _ => List.forall₂_same.mpr fun child _ => ih child⟩

/-- Nodes with the same children look alike if their attributes do. -/
theorem AlikeTo.of_children_eq {n m : Node} (htag : n.tag = m.tag)
    (hattributes : ∀ name ∈ knownAttributes, n.attribute? name = m.attribute? name)
    (hchildren : ∀ tag ∈ knownTags, n.children tag = m.children tag) (depth : Nat) :
    AlikeTo depth n m := by
  cases depth with
  | zero => trivial
  | succ depth =>
    refine ⟨htag, hattributes, fun tag hknown => ?_⟩
    rw [hchildren tag hknown]
    exact List.forall₂_same.mpr fun child _ => AlikeTo.refl depth child

/-- **An edited node looks like the node that was edited**, however deep one looks. The
induction is on the edit: it is made at one node, and everything above sees it inside one
child. -/
theorem Edit.alikeTo {n m : Node} (h : Edit n m) : ∀ depth, AlikeTo depth n m := by
  induction h with
  | reorder h => exact AlikeTo.of_children_eq rfl (fun _ _ => rfl) fun wanted _ => h wanted
  | @foreignChild tag attributes before after foreign h =>
    refine AlikeTo.of_children_eq rfl (fun _ _ => rfl) fun wanted hknown => ?_
    have hne : foreign.tag ≠ wanted := fun heq => h (heq ▸ hknown)
    rw [Node.children_ofChildren, Node.children_ofChildren, Node.withTag, Node.withTag,
      List.filter_append, List.filter_append, List.filter_cons_of_neg (by simpa using hne)]
  | @foreignAttribute tag before after groups foreign h =>
    refine AlikeTo.of_children_eq rfl (fun name hknown => ?_) fun _ _ => rfl
    have hne : foreign.name ≠ name := fun heq => h (heq ▸ hknown)
    show ((before ++ after).find? (·.name == name)).map (·.value) = _
    rw [Node.attribute?, List.find?_append, List.find?_append,
      List.find?_cons_of_neg (by simpa using hne)]
  | @inside tag attributes before after child child' h ih =>
    intro depth
    cases depth with
    | zero => trivial
    | succ depth =>
      -- the edited child stands in its group where the child stood, and its siblings stay
      refine ⟨rfl, fun _ _ => rfl, fun wanted _ => ?_⟩
      have hsame : ∀ siblings : List Node,
          List.Forall₂ (AlikeTo depth) siblings siblings :=
        fun siblings => List.forall₂_same.mpr fun sibling _ => AlikeTo.refl depth sibling
      rw [Node.children_ofChildren, Node.children_ofChildren, Node.withTag_append,
        Node.withTag_append]
      refine List.rel_append (hsame _) ?_
      by_cases htag : child.tag = wanted
      · rw [Node.withTag, Node.withTag, List.filter_cons_of_pos (by simpa using htag),
          List.filter_cons_of_pos (by simpa using h.tag_eq ▸ htag)]
        exact .cons (ih depth) (hsame _)
      · rw [Node.withTag, Node.withTag, List.filter_cons_of_neg (by simpa using htag),
          List.filter_cons_of_neg (by simpa using h.tag_eq ▸ htag)]
        exact hsame _

/-- **Two nodes look alike** if they do to every depth. -/
def Alike (n m : Node) : Prop :=
  ∀ depth, AlikeTo depth n m

namespace Alike

variable {n m : Node} (h : Alike n m)
include h

theorem tag_eq : n.tag = m.tag :=
  (h 1).1

theorem attribute?_eq {name : String} (hknown : name ∈ knownAttributes) :
    n.attribute? name = m.attribute? name :=
  (h 1).2.1 name hknown

/-- The children of a known tag look alike one by one. -/
theorem children {tag : String} (hknown : tag ∈ knownTags) :
    List.Forall₂ Alike (n.children tag) (m.children tag) := by
  have hdepth := fun depth => List.forall₂_iff_get.mp ((h (depth + 1)).2.2 tag hknown)
  exact List.forall₂_iff_get.mpr
    ⟨(hdepth 0).1, fun i hi hi' depth => (hdepth depth).2 i hi hi'⟩

/-- What is read from each child of a known tag is the same. -/
theorem map_children_eq {α : Type} {tag : String} (hknown : tag ∈ knownTags) {read : Node → α}
    (hread : ∀ {a b : Node}, Alike a b → read a = read b) :
    (n.children tag).map read = (m.children tag).map read := by
  rw [← List.forall₂_eq_eq_eq, List.forall₂_map_left_iff, List.forall₂_map_right_iff]
  exact (h.children hknown).imp fun _ _ => hread

/-- There is a child of a known tag on both sides or on neither, and the first ones look
alike. -/
theorem child?_cases (tag : String) (hknown : tag ∈ knownTags) :
    (n.child? tag = none ∧ m.child? tag = none)
      ∨ ∃ a b, n.child? tag = some a ∧ m.child? tag = some b ∧ Alike a b := by
  have hchildren := h.children hknown
  rw [Node.child?, Node.child?]
  revert hchildren
  generalize n.children tag = l, m.children tag = l'
  rintro (_ | ⟨hfirst, _⟩)
  · exact .inl ⟨rfl, rfl⟩
  · exact .inr ⟨_, _, rfl, rfl, hfirst⟩

end Alike

/-! ## Readers of nodes that look alike -/

/-- Fields are read the same. -/
theorem Field.ofNode_eq {n m : Node} (h : Alike n m) : Field.ofNode n = Field.ofNode m := by
  unfold Field.ofNode
  rw [h.attribute?_eq (by decide), h.attribute?_eq (by decide), h.attribute?_eq (by decide),
    h.attribute?_eq (by decide), h.attribute?_eq (by decide)]

/-- The fields of a record are read the same. -/
theorem fieldsOf_eq {n m : Node} (h : Alike n m) : fieldsOf n = fieldsOf m := by
  unfold fieldsOf
  rcases h.child?_cases "sequence" (by decide) with ⟨hn, hm⟩ | ⟨a, b, hn, hm, hab⟩
  · rw [hn, hm]
  · rw [hn, hm]
    exact hab.map_children_eq (by decide) Field.ofNode_eq

/-- Simple types are read the same. -/
theorem SimpleType.ofNode_eq {n m : Node} (h : Alike n m) :
    SimpleType.ofNode n = SimpleType.ofNode m := by
  unfold SimpleType.ofNode
  rcases h.child?_cases "restriction" (by decide) with
    ⟨hn, hm⟩ | ⟨a, b, hn, hm, hab⟩
  · rw [hn, hm, h.attribute?_eq (by decide)]
  · have hvalues : (a.children "enumeration").map (fun e => (e.attribute? "value").getD "")
        = (b.children "enumeration").map fun e => (e.attribute? "value").getD "" :=
      hab.map_children_eq (by decide) fun hxy => by rw [hxy.attribute?_eq (by decide)]
    rw [hn, hm]
    show SimpleType.mk _ _ _ = SimpleType.mk _ _ _
    rw [h.attribute?_eq (by decide), hab.attribute?_eq (by decide), hvalues]

/-- Both sides are derived in the same way, or neither is derived. -/
theorem derivation?_cases {n m : Node} (h : Alike n m) :
    (derivation? n = none ∧ derivation? m = none)
      ∨ ∃ a b, derivation? n = some a ∧ derivation? m = some b ∧ Alike a b := by
  unfold derivation?
  rcases h.child?_cases "extension" (by decide) with ⟨hn, hm⟩ | ⟨a, b, hn, hm, hab⟩
  · rw [hn, hm, Option.none_or, Option.none_or]
    exact h.child?_cases "restriction" (by decide)
  · rw [hn, hm, Option.some_or, Option.some_or]
    exact .inr ⟨a, b, rfl, rfl, hab⟩

/-- Shapes are read the same. -/
theorem Shape.ofNode_eq {n m : Node} (h : Alike n m) : Shape.ofNode n = Shape.ofNode m := by
  rcases h.child?_cases "complexContent" (by decide) with
    ⟨hn, hm⟩ | ⟨a, b, hn, hm, hab⟩
  · unfold Shape.ofNode
    rw [hn, hm]
    exact congrArg Shape.sequence (fieldsOf_eq h)
  · rcases derivation?_cases hab with ⟨ha, hb⟩ | ⟨c, d, hc, hd, hcd⟩
    · rw [Shape.ofNode_of_underived hn ha, Shape.ofNode_of_underived hm hb]
    · rw [Shape.ofNode_of_derivation hn hc, Shape.ofNode_of_derivation hm hd,
        hcd.attribute?_eq (by decide), fieldsOf_eq hcd]

/-- Complex types are read the same. -/
theorem ComplexType.ofNode_eq {n m : Node} (h : Alike n m) :
    ComplexType.ofNode n = ComplexType.ofNode m := by
  unfold ComplexType.ofNode
  rw [h.attribute?_eq (by decide), Shape.ofNode_eq h]

/-- Top-level elements are read the same. -/
theorem Element.ofNode_eq {n m : Node} (h : Alike n m) : Element.ofNode n = Element.ofNode m := by
  unfold Element.ofNode
  rw [h.attribute?_eq (by decide)]
  rcases h.child?_cases "complexType" (by decide) with
    ⟨hn, hm⟩ | ⟨a, b, hn, hm, hab⟩
  · rw [hn, hm]
  · rw [hn, hm]
    exact congrArg (Element.mk _) (fieldsOf_eq hab)

/-- Sections are read the same. -/
theorem Section.ofNode_eq {n m : Node} (h : Alike n m) : Section.ofNode n = Section.ofNode m := by
  unfold Section.ofNode
  rw [h.map_children_eq (by decide) SimpleType.ofNode_eq,
    h.map_children_eq (by decide) ComplexType.ofNode_eq,
    h.map_children_eq (by decide) Element.ofNode_eq]

/-- The sections of two documents of definitions are read the same, from types sections that
are alike. -/
theorem Document.ofRoot_eq_of_types {n m a b : Node} (hroot : n.tag = "definitions")
    (h : Alike n m) (hn : n.child? "types" = some a) (hm : m.child? "types" = some b)
    (hab : Alike a b) : Document.ofRoot n = Document.ofRoot m := by
  have hsections : (a.children "schema").map Section.ofNode
      = (b.children "schema").map Section.ofNode :=
    hab.map_children_eq (by decide) Section.ofNode_eq
  have hroot' : m.tag = "definitions" := h.tag_eq ▸ hroot
  -- one side has no schema exactly if the other has none
  by_cases hnone : a.children "schema" = []
  · have hnone' : b.children "schema" = [] := by
      rw [hnone] at hsections
      exact List.map_eq_nil_iff.mp hsections.symm
    rw [Document.ofRoot, Document.ofRoot, schemaNodes_of_no_schema hroot hn hnone,
      schemaNodes_of_no_schema hroot' hm hnone']
  · have hsome : b.children "schema" ≠ [] := by
      intro hnone'
      rw [hnone'] at hsections
      exact hnone (List.map_eq_nil_iff.mp hsections)
    rw [Document.ofRoot, Document.ofRoot, schemaNodes_of_types hroot hn hnone,
      schemaNodes_of_types hroot' hm hsome]
    exact congrArg (fun sections => Except.ok (Document.mk sections)) hsections

/-- **Documents are read the same**, and are refused for the same reason. -/
theorem Document.ofRoot_eq {n m : Node} (h : Alike n m) :
    Document.ofRoot n = Document.ofRoot m := by
  have htag : n.tag = m.tag := h.tag_eq
  by_cases hdefinitions : m.tag = "definitions"
  · have hdefinitions' : n.tag = "definitions" := htag.trans hdefinitions
    rcases h.child?_cases "types" (by decide) with ⟨hn, hm⟩ | ⟨a, b, hn, hm, hab⟩
    · rw [Document.ofRoot, Document.ofRoot, schemaNodes_of_no_types hdefinitions' hn,
        schemaNodes_of_no_types hdefinitions hm]
    · exact ofRoot_eq_of_types hdefinitions' h hn hm hab
  · unfold Document.ofRoot schemaNodes
    rw [htag, if_neg hdefinitions, if_neg hdefinitions]
    by_cases hschema : m.tag = "schema"
    · rw [if_pos hschema, if_pos hschema]
      show Except.ok (Document.mk [Section.ofNode n]) = Except.ok (Document.mk [Section.ofNode m])
      rw [Section.ofNode_eq h]
    · rw [if_neg hschema, if_neg hschema]

/-- **Edits have no influence.** If a tree is turned into another by edits, made and taken back
in any number and order, both are read as the same schema document or are refused for the same
reason; and what is read has the same typings, however they are written. -/
theorem Document.ofRoot_eq_of_edits {n m : Node} (h : Relation.EqvGen Edit n m) :
    Document.ofRoot n = Document.ofRoot m
      ∧ ∀ options : OutputOptions, (Document.ofRoot n).map (·.typings options)
        = (Document.ofRoot m).map (·.typings options) := by
  have hread : Document.ofRoot n = Document.ofRoot m := by
    induction h with
    | rel _ _ h => exact Document.ofRoot_eq h.alikeTo
    | refl _ => rfl
    | symm _ _ _ ih => exact ih.symm
    | trans _ _ _ _ _ ih ih' => exact ih.trans ih'
  exact ⟨hread, fun options => by rw [hread]⟩

/-- A message is added beside a schema, and an attribute and an annotation inside it are taken
away. -/
theorem Document.ofRoot_eq_of_edits_message :
    let name : Attribute := ⟨"name", "A"⟩
    let annotated : Node := .ofChildren "element" [⟨"id", "1"⟩, name] [.empty "annotation"]
    let bare : Node := .ofChildren "element" [name] []
    let n : Node := .ofChildren "schema" [] [annotated]
    let m : Node := .ofChildren "schema" [] [bare, .empty "message"]
    Relation.EqvGen Edit n m ∧ Document.ofRoot n = Document.ofRoot m := by
  intro name annotated bare n m
  have hannotation : Edit (.ofChildren "element" [⟨"id", "1"⟩, name] []) annotated :=
    .foreignChild "element" [⟨"id", "1"⟩, name] [] [] (by decide)
  have hattribute : Edit bare (.ofChildren "element" [⟨"id", "1"⟩, name] []) :=
    .foreignAttribute "element" [] [name] _ (by decide)
  have hmessage : Edit (.ofChildren "schema" [] [bare]) m :=
    .foreignChild "schema" [] [bare] [] (by decide)
  have hedits : Relation.EqvGen Edit n m :=
    .trans _ _ _ (.symm _ _ (.rel _ _ (.inside "schema" [] [] [] hannotation)))
      (.trans _ _ _ (.symm _ _ (.rel _ _ (.inside "schema" [] [] [] hattribute)))
        (.rel _ _ hmessage))
  exact ⟨hedits, (ofRoot_eq_of_edits hedits).1⟩

end SchemaTypings.Schema
