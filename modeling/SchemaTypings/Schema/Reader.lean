import SchemaTypings.Markup.Node
import SchemaTypings.Schema.Basic
import SchemaTypings.Schema.Fault

/-!
# Reading the schema model from a tree

Each part of the model is read from the element that stands for it, and looks only at the
children of the tags it knows and at the attributes it knows. Whatever else a document
holds – messages, bindings, annotations, facets – has no influence.

An element named `element` means three things, depending on where it stands: a field inside
a sequence, a declaration directly inside a schema, and nothing anywhere else.
-/

namespace SchemaTypings.Schema

open Markup

/-- The field that an `element` of a sequence stands for. -/
def Field.ofNode (n : Node) : Field where
  name := n.attribute? "name"
  type := n.attribute? "type"
  minOccurs := n.attribute? "minOccurs"
  maxOccurs := n.attribute? "maxOccurs"
  nillable := n.attribute? "nillable"

/-- The fields of an element: those of the sequence inside it, and none without a sequence. -/
def fieldsOf (n : Node) : List Field :=
  match n.child? "sequence" with
  | some sequence => (sequence.children "element").map Field.ofNode
  | none => []

/-- The simple type that a `simpleType` stands for. Its values are those of its first
restriction; a value that is not written is empty. -/
def SimpleType.ofNode (n : Node) : SimpleType :=
  match n.child? "restriction" with
  | some restriction =>
    { name := n.attribute? "name"
      base := restriction.attribute? "base"
      enumerations :=
        (restriction.children "enumeration").map fun e => (e.attribute? "value").getD "" }
  | none => { name := n.attribute? "name" }

/-- The derivation inside a `complexContent`: an extension, or else a restriction. -/
def derivation? (wrapper : Node) : Option Node :=
  (wrapper.child? "extension").or (wrapper.child? "restriction")

/-- **The shape of a `complexType`.** Complex content, if there is any, decides. -/
def Shape.ofNode (n : Node) : Shape :=
  match n.child? "complexContent" with
  | some wrapper =>
    match derivation? wrapper with
    | some derivation => .content (derivation.attribute? "base") (fieldsOf derivation)
    | none => .content none []
  | none => .sequence (fieldsOf n)

theorem Shape.ofNode_of_derivation {n wrapper derivation : Node}
    (hwrapper : n.child? "complexContent" = some wrapper)
    (hderivation : derivation? wrapper = some derivation) :
    Shape.ofNode n = .content (derivation.attribute? "base") (fieldsOf derivation) := by
  unfold Shape.ofNode
  simp only [hwrapper, hderivation]

theorem Shape.ofNode_of_underived {n wrapper : Node}
    (hwrapper : n.child? "complexContent" = some wrapper) (hnone : derivation? wrapper = none) :
    Shape.ofNode n = .content none [] := by
  unfold Shape.ofNode
  simp only [hwrapper, hnone]

/-- The complex type that a `complexType` stands for. -/
def ComplexType.ofNode (n : Node) : ComplexType where
  name := n.attribute? "name"
  shape := Shape.ofNode n

/-- The declaration that an `element` of a schema stands for. -/
def Element.ofNode (n : Node) : Element where
  name := n.attribute? "name"
  fields :=
    match n.child? "complexType" with
    | some record => fieldsOf record
    | none => []

/-- The section that a `schema` stands for. -/
def Section.ofNode (n : Node) : Section where
  simpleTypes := (n.children "simpleType").map SimpleType.ofNode
  complexTypes := (n.children "complexType").map ComplexType.ofNode
  elements := (n.children "element").map Element.ofNode

/-- The `schema` elements of a document: its root itself, or those in the types section of
its definitions. -/
def schemaNodes (root : Node) : Except Fault (List Node) :=
  if root.tag = "schema" then
    .ok [root]
  else if root.tag = "definitions" then
    match root.child? "types" with
    | none => .error .noTypes
    | some types =>
      match types.children "schema" with
      | [] => .error .noSchema
      | schemas => .ok schemas
  else
    .error (.otherRoot root.tag)

theorem schemaNodes_of_no_types {root : Node} (hroot : root.tag = "definitions")
    (hnone : root.child? "types" = none) : schemaNodes root = .error .noTypes := by
  unfold schemaNodes
  rw [hroot, if_neg (by decide), if_pos rfl, hnone]

theorem schemaNodes_of_types {root types : Node} (hroot : root.tag = "definitions")
    (htypes : root.child? "types" = some types) (hschemas : types.children "schema" ≠ []) :
    schemaNodes root = .ok (types.children "schema") := by
  unfold schemaNodes
  rw [hroot, if_neg (by decide), if_pos rfl]
  simp only [htypes]

theorem schemaNodes_of_no_schema {root types : Node} (hroot : root.tag = "definitions")
    (htypes : root.child? "types" = some types) (hnone : types.children "schema" = []) :
    schemaNodes root = .error .noSchema := by
  unfold schemaNodes
  rw [hroot, if_neg (by decide), if_pos rfl]
  simp only [htypes, hnone]

/-- **The schema document** that a tree holds. -/
def Document.ofRoot (root : Node) : Except Fault Document :=
  (schemaNodes root).map fun schemas => ⟨schemas.map Section.ofNode⟩

end SchemaTypings.Schema
