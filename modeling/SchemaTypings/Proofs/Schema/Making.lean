import SchemaTypings.Proofs.Markup.Construction
import SchemaTypings.Proofs.Schema.ReadingBack

/-!
# Making the nodes of a schema document

A schema document can be put together node by node, without any text. There are many ways to do
so: attributes are set in any order, a field list that is empty is an empty sequence or no
sequence, a derivation is an extension or a restriction, and declarations of different kinds
stand in any order among each other. `Document.MadeBy` holds of a document and the makings of
its definitions.

Every document can be made, and whichever way it is made, it is read back
(`Document.ofRoot_of_madeBy`). An `element` node is a field, a declaration or nothing, depending
on where it stands; what tells the two apart is not in the node, and so the reading is proved
for each place on its own.
-/

namespace SchemaTypings

open Markup Schema

namespace Markup.Construction

/-! ## What is read of a node that is made -/

@[simp] theorem tag_node (c : Construction) : c.node.tag = c.tag := by
  rw [node_eq, Node.tag_ofChildren]

/-- The children with a tag are those that were added with it. -/
theorem children_node (c : Construction) (wanted : String) :
    c.node.children wanted = (c.added.filter (·.tag = wanted)).map node := by
  rw [c.indexes.children_eq, Node.withTag, List.filter_map]
  refine congrArg (List.map node) (List.filter_congr fun child _ => ?_)
  rw [Function.comp_apply, tag_node]

/-- A making is picked by its tag. -/
theorem filter_tag_cons (c : Construction) (cs : List Construction) (wanted : String) :
    (c :: cs).filter (·.tag = wanted)
      = if c.tag = wanted then c :: cs.filter (·.tag = wanted) else cs.filter (·.tag = wanted) := by
  simp only [List.filter_cons, decide_eq_true_eq]

/-- A child that is alone is the first with its tag, and there is none with another. -/
theorem child?_node {c child : Construction} (h : c.added = [child]) (wanted : String) :
    c.node.child? wanted = if child.tag = wanted then some child.node else none := by
  rw [Node.child?, children_node, h, filter_tag_cons]
  by_cases htag : child.tag = wanted
  · rw [if_pos htag, if_pos htag]
    rfl
  · rw [if_neg htag, if_neg htag]
    rfl

/-- Without children there is none with any tag. -/
theorem child?_node_of_added_eq_nil {c : Construction} (h : c.added = []) (wanted : String) :
    c.node.child? wanted = none := by
  rw [Node.child?, children_node, h]
  rfl

end Markup.Construction

/-- Among attributes with a name of their own each, the order does not matter to a look-up. -/
theorem Markup.find?_name_eq_of_perm {a b : List Attribute} (h : a.Perm b)
    (hd : (b.map (·.name)).Nodup) (name : String) :
    a.find? (·.name == name) = b.find? (·.name == name) := by
  cases hfound : b.find? (·.name == name) with
  | none =>
    rw [List.find?_eq_none] at hfound ⊢
    exact fun x hx => hfound x (h.mem_iff.mp hx)
  | some x =>
    obtain rfl : x.name = name := by simpa using List.find?_some hfound
    exact Node.find?_eq_some_of_nodup ((h.map _).nodup_iff.mpr hd)
      (h.mem_iff.mpr (List.mem_of_find?_eq_some hfound))

namespace Schema

/-! ## Makings of the parts -/

/-- **A making has a tag and attributes**: each attribute is set, at any time, exactly if it is
there, and no other is. -/
structure Labelled (c : Construction) (tag : String) (attributes : List (String × Option String)) :
    Prop where
  /-- The tag of the node. -/
  tag_eq : c.tag = tag
  /-- The attributes that are there are set, in any order. -/
  set_perm : c.set.Perm (attributesOf attributes)

/-- The makings of the `element` for a field. -/
structure Field.MadeBy (f : Field) (c : Construction) : Prop where
  /-- The node has the attributes of the field. -/
  labelled : Labelled c "element" [("name", f.name), ("type", f.type),
    ("minOccurs", f.minOccurs), ("maxOccurs", f.maxOccurs), ("nillable", f.nillable)]
  /-- The node has no children. -/
  added_eq : c.added = []

/-- **The makings of some fields**, as the children of the node that has them. -/
inductive FieldsMadeBy : List Field → List Construction → Prop where
  /-- No fields are made by adding nothing. -/
  | none : FieldsMadeBy [] []
  /-- Fields are made in a `sequence`, which may be empty. -/
  | sequence {fields : List Field} {c : Construction} (labelled : Labelled c "sequence" [])
      (added : List.Forall₂ Field.MadeBy fields c.added) : FieldsMadeBy fields [c]

/-- The makings of the `enumeration` for a value. -/
structure ValueMadeBy (value : String) (c : Construction) : Prop where
  /-- The node has the value. -/
  labelled : Labelled c "enumeration" [("value", some value)]
  /-- The node has no children. -/
  added_eq : c.added = []

/-- **The makings of a restriction** to a base and to values, as the children of a simple
type. -/
inductive RestrictionMadeBy : Option String → List String → List Construction → Prop where
  /-- Without a base and without values nothing is added. -/
  | none : RestrictionMadeBy none [] []
  /-- The `restriction` has the base, and holds the values. -/
  | restriction {base : Option String} {values : List String} {c : Construction}
      (labelled : Labelled c "restriction" [("base", base)])
      (added : List.Forall₂ ValueMadeBy values c.added) : RestrictionMadeBy base values [c]

/-- The makings of the `simpleType` for a simple type. -/
structure SimpleType.MadeBy (t : SimpleType) (c : Construction) : Prop where
  /-- The node has the name. -/
  labelled : Labelled c "simpleType" [("name", t.name)]
  /-- The node holds the restriction. -/
  added : RestrictionMadeBy t.base t.enumerations c.added

/-- **The makings of a shape**, as the children of a complex type. -/
inductive Shape.MadeBy : Shape → List Construction → Prop where
  /-- A sequence stands in the complex type itself. -/
  | sequence {fields : List Field} {cs : List Construction} (added : FieldsMadeBy fields cs) :
      Shape.MadeBy (.sequence fields) cs
  /-- A derivation, of either kind, stands in a `complexContent`. -/
  | content {base : Option String} {fields : List Field} {c derivation : Construction}
      {kind : String} (labelled : Labelled c "complexContent" [])
      (added_eq : c.added = [derivation]) (hkind : kind = "extension" ∨ kind = "restriction")
      (derived : Labelled derivation kind [("base", base)])
      (added : FieldsMadeBy fields derivation.added) : Shape.MadeBy (.content base fields) [c]

/-- The makings of the `complexType` for a complex type. -/
structure ComplexType.MadeBy (t : ComplexType) (c : Construction) : Prop where
  /-- The node has the name. -/
  labelled : Labelled c "complexType" [("name", t.name)]
  /-- The node holds the shape. -/
  added : t.shape.MadeBy c.added

/-- The makings of the `element` for a top-level element. -/
structure Element.MadeBy (e : Element) (c : Construction) : Prop where
  /-- The node has the name. -/
  labelled : Labelled c "element" [("name", e.name)]
  /-- The node holds a record type, and that holds the fields. -/
  exists_record : ∃ record, c.added = [record] ∧ Labelled record "complexType" []
    ∧ FieldsMadeBy e.fields record.added

/-- **The makings of the declarations of a section**: those of each kind in their order, and the
kinds interleaved in any way. -/
inductive Section.AddedBy : Section → List Construction → Prop where
  /-- Nothing is declared. -/
  | none : Section.AddedBy {} []
  /-- A simple type comes first. -/
  | simpleType {t : SimpleType} {c : Construction} {s : Section} {cs : List Construction}
      (first : t.MadeBy c) (more : Section.AddedBy s cs) :
      Section.AddedBy { s with simpleTypes := t :: s.simpleTypes } (c :: cs)
  /-- A complex type comes first. -/
  | complexType {t : ComplexType} {c : Construction} {s : Section} {cs : List Construction}
      (first : t.MadeBy c) (more : Section.AddedBy s cs) :
      Section.AddedBy { s with complexTypes := t :: s.complexTypes } (c :: cs)
  /-- An element comes first. -/
  | element {e : Element} {c : Construction} {s : Section} {cs : List Construction}
      (first : e.MadeBy c) (more : Section.AddedBy s cs) :
      Section.AddedBy { s with elements := e :: s.elements } (c :: cs)

/-- The makings of the `schema` for a section. -/
structure Section.MadeBy (s : Section) (c : Construction) : Prop where
  /-- The node has no attributes. -/
  labelled : Labelled c "schema" []
  /-- The node holds the declarations. -/
  added : s.AddedBy c.added

/-- **The makings of the `definitions` for a document**: they hold types, and these hold a schema
for each section. -/
structure Document.MadeBy (d : Document) (c : Construction) : Prop where
  /-- The node has no attributes. -/
  labelled : Labelled c "definitions" []
  /-- The node holds the types, and these hold the sections. -/
  exists_types : ∃ types, c.added = [types] ∧ Labelled types "types" []
    ∧ List.Forall₂ Section.MadeBy d.sections types.added

/-! ## Reading -/

/-- **An attribute is read exactly if it is there**, whenever it was set. -/
theorem Labelled.attribute?_eq {c : Construction} {tag : String}
    {attributes : List (String × Option String)} (h : Labelled c tag attributes)
    (hd : (attributes.map Prod.fst).Nodup) {name : String} {value : Option String}
    (hmem : (name, value) ∈ attributes) : c.node.attribute? name = value := by
  have hnodup : ((attributesOf attributes).map (·.name)).Nodup :=
    hd.sublist (names_attributesOf_sublist attributes)
  rw [c.indexes.attribute?_eq,
    find?_name_eq_of_perm ((List.reverse_perm _).trans h.set_perm) hnodup]
  exact find?_attributesOf hd hmem

/-- An attribute that is alone is read. -/
theorem Labelled.attribute?_single {c : Construction} {tag name : String}
    {value : Option String} (h : Labelled c tag [(name, value)]) :
    c.node.attribute? name = value :=
  h.attribute?_eq (List.nodup_singleton _) List.mem_cons_self

/-- **Children that are all made for one kind of thing are read back**, one by one. -/
theorem map_children_of_forall₂ {α : Type} {madeBy : α → Construction → Prop}
    {ofNode : Node → α} {tag : String} (htag : ∀ a c, madeBy a c → c.tag = tag)
    (hread : ∀ a c, madeBy a c → ofNode c.node = a) {l : List α} {c : Construction}
    (h : List.Forall₂ madeBy l c.added) : (c.node.children tag).map ofNode = l := by
  rw [Construction.children_node]
  generalize c.added = cs at h
  induction h with
  | nil => rfl
  | @cons a child l cs hchild _ ih =>
    rw [Construction.filter_tag_cons, if_pos (htag a child hchild), List.map_cons,
      List.map_cons, hread a child hchild, ih]

/-- A field is read back. -/
theorem Field.MadeBy.ofNode_eq {f : Field} {c : Construction} (h : f.MadeBy c) :
    Field.ofNode c.node = f := by
  obtain ⟨name, type, minOccurs, maxOccurs, nillable⟩ := f
  rw [Field.ofNode]
  congr 1 <;> exact h.labelled.attribute?_eq (by simp) (by simp)

/-- Fields are read back from the node that has them. -/
theorem FieldsMadeBy.fieldsOf_eq {fields : List Field} {c : Construction}
    (h : FieldsMadeBy fields c.added) : fieldsOf c.node = fields := by
  generalize hadded : c.added = cs at h
  cases h with
  | none => rw [fieldsOf, Construction.child?_node_of_added_eq_nil hadded]
  | sequence labelled added =>
    rw [fieldsOf, Construction.child?_node hadded, if_pos labelled.tag_eq]
    exact map_children_of_forall₂ (fun _ _ h => h.labelled.tag_eq) (fun _ _ h => h.ofNode_eq) added

/-- A simple type is read back. -/
theorem SimpleType.MadeBy.ofNode_eq {t : SimpleType} {c : Construction} (h : t.MadeBy c) :
    SimpleType.ofNode c.node = t := by
  obtain ⟨name, base, enumerations⟩ := t
  obtain ⟨labelled, added⟩ := h
  have hname : c.node.attribute? "name" = name := labelled.attribute?_single
  generalize hadded : c.added = cs at added
  cases added with
  | none =>
    rw [SimpleType.ofNode, Construction.child?_node_of_added_eq_nil hadded]
    show SimpleType.mk _ _ _ = _
    rw [hname]
  | @restriction _ _ r labelled added =>
    have hvalues : (r.node.children "enumeration").map (fun e => (e.attribute? "value").getD "")
        = enumerations :=
      map_children_of_forall₂ (fun _ _ h => h.labelled.tag_eq)
        (fun value _ h => by rw [h.labelled.attribute?_single, Option.getD_some]) added
    rw [SimpleType.ofNode, Construction.child?_node hadded, if_pos labelled.tag_eq]
    show SimpleType.mk _ _ _ = _
    rw [hname, labelled.attribute?_single, hvalues]

/-- The shape of a complex type is read back. -/
theorem Shape.MadeBy.ofNode_eq {shape : Shape} {c : Construction} (h : shape.MadeBy c.added) :
    Shape.ofNode c.node = shape := by
  generalize hadded : c.added = cs at h
  cases h with
  | @sequence fields _ added =>
    have hnone : c.node.child? "complexContent" = none := by
      cases added with
      | none => exact Construction.child?_node_of_added_eq_nil hadded _
      | sequence labelled _ =>
        rw [Construction.child?_node hadded, labelled.tag_eq]
        rfl
    have hfields : fieldsOf c.node = fields := (hadded ▸ added : FieldsMadeBy _ _).fieldsOf_eq
    rw [Shape.ofNode, hnone]
    exact congrArg Shape.sequence hfields
  | @content base fields wrapper derivation kind labelled added_eq hkind derived added =>
    have hwrapper : c.node.child? "complexContent" = some wrapper.node := by
      rw [Construction.child?_node hadded, if_pos labelled.tag_eq]
    have hderivation : derivation? wrapper.node = some derivation.node := by
      rw [derivation?, Construction.child?_node added_eq, Construction.child?_node added_eq,
        derived.tag_eq]
      rcases hkind with rfl | rfl
      · rfl
      · rfl
    rw [Shape.ofNode_of_derivation hwrapper hderivation, derived.attribute?_single,
      added.fieldsOf_eq]

/-- A complex type is read back. -/
theorem ComplexType.MadeBy.ofNode_eq {t : ComplexType} {c : Construction} (h : t.MadeBy c) :
    ComplexType.ofNode c.node = t := by
  obtain ⟨name, shape⟩ := t
  rw [ComplexType.ofNode, h.labelled.attribute?_single, h.added.ofNode_eq]

/-- A top-level element is read back. -/
theorem Element.MadeBy.ofNode_eq {e : Element} {c : Construction} (h : e.MadeBy c) :
    Element.ofNode c.node = e := by
  obtain ⟨name, fields⟩ := e
  obtain ⟨record, hadded, hrecord, hfields⟩ := h.exists_record
  rw [Element.ofNode, h.labelled.attribute?_single, Construction.child?_node hadded,
    if_pos hrecord.tag_eq]
  show Element.mk name (fieldsOf record.node) = _
  rw [hfields.fieldsOf_eq]

/-- **The declarations of a section are read back**: each kind is picked from among all
three. -/
theorem Section.AddedBy.read_eq {s : Section} {cs : List Construction} (h : s.AddedBy cs) :
    ({ simpleTypes := (cs.filter (·.tag = "simpleType")).map fun c => SimpleType.ofNode c.node
       complexTypes := (cs.filter (·.tag = "complexType")).map fun c => ComplexType.ofNode c.node
       elements := (cs.filter (·.tag = "element")).map fun c => Element.ofNode c.node } : Section)
      = s := by
  induction h with
  | none => rfl
  | simpleType first _ ih | complexType first _ ih | element first _ ih =>
    simp [first.labelled.tag_eq, first.ofNode_eq, ← ih]

/-- A section is read back. -/
theorem Section.MadeBy.ofNode_eq {s : Section} {c : Construction} (h : s.MadeBy c) :
    Section.ofNode c.node = s := by
  rw [Section.ofNode, Construction.children_node, Construction.children_node,
    Construction.children_node, List.map_map, List.map_map, List.map_map]
  exact h.added.read_eq

/-- A section declares as many things as are added to its node. -/
theorem Section.AddedBy.length_eq {s : Section} {cs : List Construction} (h : s.AddedBy cs) :
    cs.length = s.declarationCount := by
  induction h with
  | none => rfl
  | simpleType _ _ ih | complexType _ _ ih | element _ _ ih =>
    rw [List.length_cons, ih]
    simp only [Section.declarationCount, List.length_cons]
    omega

/-- A document declares as many things as are added to the nodes of its sections. -/
theorem length_flatMap_added {sections : List Section} {cs : List Construction}
    (h : List.Forall₂ Section.MadeBy sections cs) :
    (cs.flatMap (·.added)).length = (Document.mk sections).declarationCount := by
  induction h with
  | nil => rfl
  | cons hs _ ih =>
    rw [List.flatMap_cons, List.length_append, hs.added.length_eq, ih]
    rfl

/-- A document is read back from its definitions. -/
theorem Document.MadeBy.ofRoot_eq {d : Document} (h : d.sections ≠ []) {c : Construction}
    (hc : d.MadeBy c) : Document.ofRoot c.node = .ok d := by
  obtain ⟨types, hadded, htypes, hsections⟩ := hc.exists_types
  have hread : (types.node.children "schema").map Section.ofNode = d.sections :=
    map_children_of_forall₂ (fun _ _ h => h.labelled.tag_eq) (fun _ _ h => h.ofNode_eq) hsections
  have hschemas : types.node.children "schema" ≠ [] := by
    intro hnil
    rw [hnil] at hread
    exact h hread.symm
  have hroot : c.node.tag = "definitions" := by rw [Construction.tag_node, hc.labelled.tag_eq]
  have hchild : c.node.child? "types" = some types.node := by
    rw [Construction.child?_node hadded, if_pos htypes.tag_eq]
  rw [Document.ofRoot, schemaNodes_of_types hroot hchild hschemas]
  show Except.ok (Document.mk ((types.node.children "schema").map Section.ofNode)) = _
  rw [hread]

/-- A document of one section is read back from its schema alone. -/
theorem Section.MadeBy.ofRoot_eq {s : Section} {c : Construction} (h : s.MadeBy c) :
    Document.ofRoot c.node = .ok ⟨[s]⟩ := by
  have hroot : c.node.tag = "schema" := by rw [Construction.tag_node, h.labelled.tag_eq]
  rw [Document.ofRoot, schemaNodes, if_pos hroot]
  show Except.ok (Document.mk [Section.ofNode c.node]) = _
  rw [h.ofNode_eq]

end Schema

/-! ## Every document can be made -/

namespace Markup

namespace Construction

/-- **The making from parts**: attributes are set and then children added, in their order. -/
def ofParts (tag : String) (attributes : List Attribute) (children : List Construction) :
    Construction :=
  children.foldl addChild (attributes.foldl (fun c a => c.setAttribute a.name a.value) (new tag))

/-- Adding children changes no more than what was added. -/
theorem parts_foldl_addChild (c : Construction) (cs : List Construction) :
    (cs.foldl addChild c).tag = c.tag ∧ (cs.foldl addChild c).set = c.set
      ∧ (cs.foldl addChild c).added = c.added ++ cs := by
  induction cs generalizing c with
  | nil => exact ⟨rfl, rfl, (List.append_nil _).symm⟩
  | cons child cs ih =>
    obtain ⟨htag, hset, hadded⟩ := ih (c.addChild child)
    refine ⟨htag, hset, hadded.trans ?_⟩
    rw [added, List.append_assoc, List.singleton_append]

/-- Setting attributes changes no more than what was set. -/
theorem parts_foldl_setAttribute (c : Construction) (attributes : List Attribute) :
    let done := attributes.foldl (fun c a => c.setAttribute a.name a.value) c
    done.tag = c.tag ∧ done.set = c.set ++ attributes ∧ done.added = c.added := by
  induction attributes generalizing c with
  | nil => exact ⟨rfl, (List.append_nil _).symm, rfl⟩
  | cons a attributes ih =>
    obtain ⟨htag, hset, hadded⟩ := ih (c.setAttribute a.name a.value)
    refine ⟨htag, hset.trans ?_, hadded⟩
    rw [set, List.append_assoc, List.singleton_append]

/-- **A making from parts has these parts.** -/
theorem parts_ofParts (tag : String) (attributes : List Attribute)
    (children : List Construction) :
    (ofParts tag attributes children).tag = tag
      ∧ (ofParts tag attributes children).set = attributes
      ∧ (ofParts tag attributes children).added = children := by
  obtain ⟨htag, hset, hadded⟩ := parts_foldl_setAttribute (new tag) attributes
  obtain ⟨htag', hset', hadded'⟩ := parts_foldl_addChild
    (attributes.foldl (fun c a => c.setAttribute a.name a.value) (new tag)) children
  exact ⟨htag'.trans htag, hset'.trans hset, hadded'.trans (by rw [hadded]; rfl)⟩

end Construction

namespace Tree

mutual

/-- **The making of a tree**, in the order of the tree. -/
def making : Tree → Construction
  | ⟨tag, attributes, children⟩ => .ofParts tag attributes (makings children)

/-- The makings of several trees. -/
def makings : List Tree → List Construction
  | [] => []
  | t :: ts => t.making :: makings ts

end

theorem makings_eq_map (ts : List Tree) : makings ts = ts.map making := by
  induction ts with
  | nil => rfl
  | cons t ts ih => rw [makings, ih, List.map_cons]

theorem making_eq (t : Tree) :
    t.making = .ofParts t.tag t.attributes (t.children.map making) := by
  cases t
  rw [making, makings_eq_map]

@[simp] theorem added_making (t : Tree) : t.making.added = t.children.map making := by
  rw [making_eq]
  exact (Construction.parts_ofParts _ _ _).2.2

end Tree

end Markup

namespace Schema

/-- The making of a tree has its tag and its attributes. -/
theorem labelled_making (tag : String) (attributes : List (String × Option String))
    (children : List Markup.Tree) :
    Labelled (Markup.Tree.making ⟨tag, attributesOf attributes, children⟩) tag attributes := by
  obtain ⟨htag, hset, -⟩ := Construction.parts_ofParts tag (attributesOf attributes)
    (children.map Markup.Tree.making)
  rw [Markup.Tree.making_eq]
  exact ⟨htag, .of_eq hset⟩

/-- Things are made one by one, if their trees are. -/
theorem forall₂_making {α : Type} {madeBy : α → Construction → Prop} {tree : α → Markup.Tree}
    (h : ∀ a, madeBy a (tree a).making) (l : List α) :
    List.Forall₂ madeBy l ((l.map tree).map Markup.Tree.making) := by
  rw [List.map_map, List.forall₂_map_right_iff]
  exact List.forall₂_same.mpr fun a _ => h a

/-- The plain spelling changes no token. -/
theorem map_plain_token (token : Option String) : token.map Spelling.plain.token = token := by
  cases token <;> rfl

theorem Field.madeBy_making (f : Field) : f.MadeBy (f.tree .plain).making where
  labelled := by
    rw [Field.tree, map_plain_token]
    exact labelled_making _ _ _
  added_eq := Markup.Tree.added_making _

theorem fieldsMadeBy_making (fields : List Field) :
    FieldsMadeBy fields [(sequenceTree .plain fields).making] := by
  refine .sequence (labelled_making _ [] _) ?_
  rw [Markup.Tree.added_making]
  exact forall₂_making Field.madeBy_making fields

theorem SimpleType.madeBy_making (t : SimpleType) : t.MadeBy (t.tree .plain).making where
  labelled := labelled_making _ _ _
  added := by
    rw [Markup.Tree.added_making, SimpleType.tree, map_plain_token]
    refine .restriction (labelled_making _ _ _) ?_
    rw [Markup.Tree.added_making]
    exact forall₂_making
      (fun value => ⟨labelled_making _ [("value", some value)] [], Markup.Tree.added_making _⟩)
      t.enumerations

theorem Shape.madeBy_making (shape : Shape) : shape.MadeBy [(shape.tree .plain).making] := by
  cases shape with
  | sequence fields => exact .sequence (fieldsMadeBy_making fields)
  | content base fields =>
    rw [Shape.tree, map_plain_token]
    refine .content (labelled_making _ [] _) (Markup.Tree.added_making _) (.inl rfl)
      (labelled_making _ _ _) ?_
    rw [Markup.Tree.added_making]
    exact fieldsMadeBy_making fields

theorem ComplexType.madeBy_making (t : ComplexType) : t.MadeBy (t.tree .plain).making where
  labelled := labelled_making _ _ _
  added := by
    rw [Markup.Tree.added_making]
    exact t.shape.madeBy_making

theorem Element.madeBy_making (e : Element) : e.MadeBy (e.tree .plain).making where
  labelled := labelled_making _ _ _
  exists_record := by
    refine ⟨_, Markup.Tree.added_making _, labelled_making _ [] _, ?_⟩
    rw [Markup.Tree.added_making]
    exact fieldsMadeBy_making e.fields

/-- Elements are made one by one, and then types before them, in the order of the tree. -/
theorem Section.addedBy_making (s : Section) :
    s.AddedBy ((s.tree .plain).children.map Markup.Tree.making) := by
  obtain ⟨simpleTypes, complexTypes, elements⟩ := s
  induction simpleTypes with
  | cons t _ ih => exact .simpleType t.madeBy_making ih
  | nil =>
    induction complexTypes with
    | cons t _ ih => exact .complexType t.madeBy_making ih
    | nil =>
      induction elements with
      | cons e _ ih => exact .element e.madeBy_making ih
      | nil => exact .none

theorem Section.madeBy_making (s : Section) : s.MadeBy (s.tree .plain).making where
  labelled := labelled_making _ [] _
  added := by
    rw [Markup.Tree.added_making]
    exact s.addedBy_making

/-- **Every document can be made**, in the order of the tree that says what it is. -/
theorem Document.madeBy_making (d : Document) : d.MadeBy (d.tree .plain).making where
  labelled := labelled_making _ [] _
  exists_types := by
    refine ⟨_, Markup.Tree.added_making _, labelled_making _ [] _, ?_⟩
    rw [Markup.Tree.added_making]
    exact forall₂_making Section.madeBy_making d.sections

/-- **The nodes that are made of a document are read back as it**, whichever way they are made,
and it declares as many things as were added to the nodes of its sections. A document can be
made, and one of a single section also as the node of that section alone. -/
theorem Document.ofRoot_of_madeBy {d : Document} (h : d.sections ≠ []) :
    (∃ c, d.MadeBy c)
      ∧ (∀ c, d.MadeBy c → Document.ofRoot c.node = .ok d
        ∧ ((c.added.flatMap (·.added)).flatMap (·.added)).length = d.declarationCount)
      ∧ ∀ s, d.sections = [s] → (∃ c, s.MadeBy c)
        ∧ ∀ c, s.MadeBy c → Document.ofRoot c.node = .ok d
          ∧ c.added.length = d.declarationCount := by
  refine ⟨⟨_, d.madeBy_making⟩, fun c hc => ⟨hc.ofRoot_eq h, ?_⟩, fun s hs => ?_⟩
  · obtain ⟨types, hadded, -, hsections⟩ := hc.exists_types
    rw [hadded, List.flatMap_singleton]
    exact length_flatMap_added hsections
  · obtain ⟨sections⟩ := d
    obtain rfl : sections = [s] := hs
    refine ⟨⟨_, s.madeBy_making⟩, fun c hc => ⟨hc.ofRoot_eq, hc.added.length_eq.trans ?_⟩⟩
    simp [Document.declarationCount]

/-- An `element` of a record with one field, where attributes are set in another order and after
children are added. -/
def elementMadeLate : Construction :=
  let field := .setAttribute (.setAttribute (.new "element") "type" "") "name" "id"
  let fields := .addChild (.new "sequence") field
  .setAttribute (.addChild (.new "element") (.addChild (.new "complexType") fields)) "name" "User"

/-- A `complexType` that restricts another and has no sequence. -/
def complexTypeMadeBare : Construction :=
  let derivation := .setAttribute (.new "restriction") "base" "tns_User"
  .setAttribute (.addChild (.new "complexType") (.addChild (.new "complexContent") derivation))
    "name" "Guest"

/-- A `schema` with an element, a complex type and a simple type, in this order. -/
def schemaMadeMixed : Construction :=
  .addChild (.addChild (.addChild (.new "schema") elementMadeLate) complexTypeMadeBare)
    (.new "simpleType")

/-- The section of that `schema`. -/
def mixedSection : Section where
  simpleTypes := [{}]
  complexTypes := [⟨some "Guest", .content (some "tns_User") []⟩]
  elements := [⟨some "User", [{ name := some "id", type := some "" }]⟩]

theorem mixedSection_madeBy : mixedSection.MadeBy schemaMadeMixed := by
  have hfields : FieldsMadeBy [{ name := some "id", type := some "" }]
      [.addChild (.new "sequence")
        (.setAttribute (.setAttribute (.new "element") "type" "") "name" "id")] :=
    .sequence ⟨rfl, by decide⟩ (.cons ⟨⟨rfl, by decide⟩, rfl⟩ .nil)
  have helement : Element.MadeBy ⟨some "User", [{ name := some "id", type := some "" }]⟩
      elementMadeLate :=
    ⟨⟨rfl, by decide⟩, _, rfl, ⟨rfl, by decide⟩, hfields⟩
  have hcomplexType : ComplexType.MadeBy ⟨some "Guest", .content (some "tns_User") []⟩
      complexTypeMadeBare :=
    ⟨⟨rfl, by decide⟩, .content ⟨rfl, by decide⟩ rfl (.inr rfl) ⟨rfl, by decide⟩ .none⟩
  have hsimpleType : SimpleType.MadeBy {} (.new "simpleType") := ⟨⟨rfl, by decide⟩, .none⟩
  exact ⟨⟨rfl, by decide⟩, .element helement (.complexType hcomplexType
    (.simpleType hsimpleType .none))⟩

/-- **Declarations in any order**: those of a section that has them in the opposite order are
read back into it, from definitions with one more section and from the schema alone. -/
theorem Document.ofRoot_of_madeBy_mixed :
    Document.ofRoot (Construction.node (.addChild (.new "definitions")
        (.addChild (.addChild (.new "types") schemaMadeMixed) (.new "schema"))))
      = .ok ⟨[mixedSection, {}]⟩
      ∧ Document.ofRoot schemaMadeMixed.node = .ok ⟨[mixedSection]⟩ := by
  have hempty : Section.MadeBy {} (.new "schema") := ⟨⟨rfl, by decide⟩, .none⟩
  have hdocument : Document.MadeBy ⟨[mixedSection, {}]⟩ (.addChild (.new "definitions")
      (.addChild (.addChild (.new "types") schemaMadeMixed) (.new "schema"))) :=
    ⟨⟨rfl, by decide⟩, _, rfl, ⟨rfl, by decide⟩, .cons mixedSection_madeBy (.cons hempty .nil)⟩
  have htwo := Document.ofRoot_of_madeBy (d := ⟨[mixedSection, {}]⟩) (List.cons_ne_nil _ _)
  have hone := Document.ofRoot_of_madeBy (d := ⟨[mixedSection]⟩) (List.cons_ne_nil _ _)
  exact ⟨(htwo.2.1 _ hdocument).1, ((hone.2.2 _ rfl).2 _ mixedSection_madeBy).1⟩

end Schema

end SchemaTypings
