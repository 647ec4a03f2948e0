import SchemaTypings.Proofs.Schema.Writing
import SchemaTypings.Schema.Reader

/-!
# Reading schema documents back

The model is read back from the plain definitions that say what it is
(`Document.ofRoot_node_tree`). Every part of the reader undoes the writing of its part, and
picks from the children of a node those it is about.
-/

namespace SchemaTypings.Schema

open Markup

/-! ## Looking things up -/

/-- **An attribute is found exactly if it is there.** -/
theorem find?_attributesOf {l : List (String × Option String)} (hd : (l.map Prod.fst).Nodup)
    {name : String} {value : Option String} (h : (name, value) ∈ l) :
    ((attributesOf l).find? (·.name == name)).map (·.value) = value := by
  induction l with
  | nil => exact absurd h List.not_mem_nil
  | cons a l ih =>
    obtain ⟨key, entry⟩ := a
    obtain ⟨hnot, hrest⟩ := List.nodup_cons.mp hd
    rcases List.mem_cons.mp h with heq | hmem
    · obtain ⟨rfl, rfl⟩ := Prod.mk.inj heq
      cases value with
      | some value => simp [attributesOf]
      | none =>
        -- no later attribute has the name of one that is absent
        have hnone : (attributesOf l).find? (·.name == name) = none := by
          rw [List.find?_eq_none]
          intro a ha heq
          exact hnot ((names_attributesOf_sublist l).subset
            (beq_iff_eq.mp heq ▸ List.mem_map_of_mem ha))
        exact congrArg (Option.map (·.value)) hnone
    · have hkey : name ∈ l.map Prod.fst := List.mem_map_of_mem (f := Prod.fst) hmem
      have hne : key ≠ name := fun heq => hnot (heq ▸ hkey)
      cases entry with
      | none => exact ih hrest hmem
      | some entry =>
        show (((⟨key, entry⟩ : Attribute) :: attributesOf l).find? (·.name == name)).map
          (·.value) = value
        rw [List.find?_cons_of_neg (by simpa using hne)]
        exact ih hrest hmem

/-- An attribute that is alone, if it is there, is read. -/
theorem attribute?_node_single (tag name : String) (value : Option String)
    (children : List Markup.Tree) :
    (Markup.Tree.node ⟨tag, attributesOf [(name, value)], children⟩).attribute? name = value := by
  rw [Markup.Tree.attribute?_node]
  exact find?_attributesOf (by simp) List.mem_cons_self

/-- Trees that all have the wanted tag are all picked. -/
theorem filter_tag_map {α : Type} {tree : α → Markup.Tree} {wanted : String}
    (h : ∀ a, (tree a).tag = wanted) (l : List α) :
    (l.map tree).filter (·.tag = wanted) = l.map tree :=
  List.filter_eq_self.mpr (List.forall_mem_map.mpr fun a _ => decide_eq_true (h a))

/-- Trees that all have another tag are all left out. -/
theorem filter_tag_map_of_ne {α : Type} {tree : α → Markup.Tree} {tag wanted : String}
    (h : ∀ a, (tree a).tag = tag) (hne : tag ≠ wanted) (l : List α) :
    (l.map tree).filter (·.tag = wanted) = [] :=
  List.filter_eq_nil_iff.mpr (List.forall_mem_map.mpr fun a _ => by
    rwa [h, decide_eq_true_iff])

/-- Children that are all picked are read back as what they stand for. -/
theorem map_children_node {α : Type} {tree : α → Markup.Tree} {ofNode : Node → α}
    (hread : ∀ a, ofNode (tree a).node = a) {t : Markup.Tree} {wanted : String} {l : List α}
    (h : t.children.filter (·.tag = wanted) = l.map tree) :
    (t.node.children wanted).map ofNode = l := by
  rw [Markup.Tree.children_node, h, List.map_map, List.map_map]
  exact (List.map_congr_left fun a _ => hread a).trans (List.map_id l)

/-- A child that is picked first is read. -/
theorem child?_node_of_filter {t child : Markup.Tree} {wanted : String} {others : List Markup.Tree}
    (h : t.children.filter (·.tag = wanted) = child :: others) :
    t.node.child? wanted = some child.node := by
  rw [Markup.Tree.child?_node, h]
  rfl

/-! ## The parts of a schema -/

@[simp] theorem Field.tag_tree (f : Field) : (f.tree .plain).tag = "element" := rfl

@[simp] theorem SimpleType.tag_tree (t : SimpleType) : (t.tree .plain).tag = "simpleType" := rfl

@[simp] theorem ComplexType.tag_tree (t : ComplexType) : (t.tree .plain).tag = "complexType" := rfl

@[simp] theorem Element.tag_tree (e : Element) : (e.tree .plain).tag = "element" := rfl

@[simp] theorem Section.tag_tree (s : Section) : (s.tree .plain).tag = "schema" := rfl

/-- A field is read back. -/
theorem Field.ofNode_node_tree (f : Field) : Field.ofNode (f.tree .plain).node = f := by
  obtain ⟨name, type, minOccurs, maxOccurs, nillable⟩ := f
  simp only [Field.ofNode, Markup.Tree.attribute?_node, Field.tree, Spelling.plain,
    Option.map_id_fun']
  congr 1 <;> exact find?_attributesOf (by simp) (by simp)

/-- The fields of a record are read back from the sequence that is all it holds. -/
theorem fieldsOf_node (tag : String) (attributes : List Attribute) (fields : List Field) :
    fieldsOf (Markup.Tree.node ⟨tag, attributes, [sequenceTree .plain fields]⟩) = fields := by
  have hsequence : (Markup.Tree.node ⟨tag, attributes, [sequenceTree .plain fields]⟩).child?
      "sequence" = some (sequenceTree .plain fields).node := child?_node_of_filter rfl
  rw [fieldsOf, hsequence]
  exact map_children_node Field.ofNode_node_tree (filter_tag_map Field.tag_tree fields)

/-- A simple type is read back. -/
theorem SimpleType.ofNode_node_tree (t : SimpleType) :
    SimpleType.ofNode (t.tree .plain).node = t := by
  obtain ⟨name, base, enumerations⟩ := t
  let valueTree : String → Markup.Tree := fun value => ⟨"enumeration", [⟨"value", value⟩], []⟩
  let restriction : Markup.Tree :=
    ⟨"restriction", attributesOf [("base", base.map id)], enumerations.map valueTree⟩
  have hrestriction : (SimpleType.tree .plain ⟨name, base, enumerations⟩).node.child?
      "restriction" = some restriction.node := child?_node_of_filter rfl
  have htag : ∀ value, (valueTree value).tag = "enumeration" := fun _ => rfl
  have hvalue : ∀ value, ((valueTree value).node.attribute? "value").getD "" = value :=
    fun _ => rfl
  have hvalues : (restriction.node.children "enumeration").map
      (fun e => (e.attribute? "value").getD "") = enumerations :=
    map_children_node hvalue (filter_tag_map htag enumerations)
  have hbase : restriction.node.attribute? "base" = base := by
    rw [attribute?_node_single, Option.map_id]
    rfl
  have hname : (SimpleType.tree .plain ⟨name, base, enumerations⟩).node.attribute? "name"
      = name := attribute?_node_single _ _ name _
  rw [SimpleType.ofNode, hrestriction]
  show SimpleType.mk _ _ _ = _
  rw [hname, hbase, hvalues]

/-- The shape of a complex type is read back, and nothing else of the type matters. -/
theorem Shape.ofNode_node_tree (tag : String) (attributes : List Attribute) (shape : Shape) :
    Shape.ofNode (Markup.Tree.node ⟨tag, attributes, [shape.tree .plain]⟩) = shape := by
  cases shape with
  | sequence fields =>
    have hnone : (Markup.Tree.node ⟨tag, attributes, [sequenceTree .plain fields]⟩).child?
        "complexContent" = none := by
      rw [Markup.Tree.child?_node]
      rfl
    rw [Shape.tree, Shape.ofNode, hnone]
    exact congrArg Shape.sequence (fieldsOf_node tag attributes fields)
  | content base fields =>
    let extension : Markup.Tree :=
      ⟨"extension", attributesOf [("base", base.map id)], [sequenceTree .plain fields]⟩
    let wrapper : Markup.Tree := ⟨"complexContent", [], [extension]⟩
    have hwrapper : (Markup.Tree.node ⟨tag, attributes, [wrapper]⟩).child? "complexContent"
        = some wrapper.node := child?_node_of_filter rfl
    have hderivation : derivation? wrapper.node = some extension.node := by
      have hextension : wrapper.node.child? "extension" = some extension.node :=
        child?_node_of_filter rfl
      rw [derivation?, hextension, Option.some_or]
    have hbase : extension.node.attribute? "base" = base := by
      rw [attribute?_node_single, Option.map_id]
      rfl
    show Shape.ofNode (Markup.Tree.node ⟨tag, attributes, [wrapper]⟩) = _
    rw [Shape.ofNode_of_derivation hwrapper hderivation, hbase, fieldsOf_node]

/-- A complex type is read back. -/
theorem ComplexType.ofNode_node_tree (t : ComplexType) :
    ComplexType.ofNode (t.tree .plain).node = t := by
  obtain ⟨name, shape⟩ := t
  rw [ComplexType.tree, ComplexType.ofNode, attribute?_node_single, Shape.ofNode_node_tree]

/-- A top-level element is read back. -/
theorem Element.ofNode_node_tree (e : Element) : Element.ofNode (e.tree .plain).node = e := by
  obtain ⟨name, fields⟩ := e
  let record : Markup.Tree := ⟨"complexType", [], [sequenceTree .plain fields]⟩
  have hrecord : (Element.tree .plain ⟨name, fields⟩).node.child? "complexType"
      = some record.node := child?_node_of_filter rfl
  have hname : (Element.tree .plain ⟨name, fields⟩).node.attribute? "name" = name :=
    attribute?_node_single _ _ name _
  have hfields : fieldsOf record.node = fields := fieldsOf_node _ _ fields
  rw [Element.ofNode, hrecord, hname]
  show Element.mk name (fieldsOf record.node) = _
  rw [hfields]

/-- A section is read back: each kind of declaration is picked from among all three. -/
theorem Section.ofNode_node_tree (s : Section) : Section.ofNode (s.tree .plain).node = s := by
  obtain ⟨simpleTypes, complexTypes, elements⟩ := s
  have hsimple := SimpleType.tag_tree
  have hcomplex := ComplexType.tag_tree
  have helement := Element.tag_tree
  rw [Section.ofNode]
  congr 1
  · refine map_children_node SimpleType.ofNode_node_tree ?_
    rw [Section.tree, List.filter_append, List.filter_append, filter_tag_map hsimple,
      filter_tag_map_of_ne hcomplex (by decide), filter_tag_map_of_ne helement (by decide),
      List.append_nil, List.append_nil]
  · refine map_children_node ComplexType.ofNode_node_tree ?_
    rw [Section.tree, List.filter_append, List.filter_append, filter_tag_map hcomplex,
      filter_tag_map_of_ne hsimple (by decide), filter_tag_map_of_ne helement (by decide),
      List.append_nil, List.nil_append]
  · refine map_children_node Element.ofNode_node_tree ?_
    rw [Section.tree, List.filter_append, List.filter_append, filter_tag_map helement,
      filter_tag_map_of_ne hsimple (by decide), filter_tag_map_of_ne hcomplex (by decide),
      List.nil_append, List.nil_append]

/-- **A schema document is read back from its definitions**, if it has a section at all. -/
theorem Document.ofRoot_node_tree {d : Document} (h : d.sections ≠ []) :
    Document.ofRoot (d.tree .plain).node = .ok d := by
  obtain ⟨sections⟩ := d
  let types : Markup.Tree := ⟨"types", [], sections.map (Section.tree .plain)⟩
  have htypes : (Document.tree .plain ⟨sections⟩).node.child? "types" = some types.node :=
    child?_node_of_filter rfl
  have hsections : (types.node.children "schema").map Section.ofNode = sections :=
    map_children_node Section.ofNode_node_tree (filter_tag_map Section.tag_tree sections)
  have hschemas : types.node.children "schema" ≠ [] := by
    intro hnil
    rw [hnil] at hsections
    exact h hsections.symm
  have hnodes : schemaNodes (Document.tree .plain ⟨sections⟩).node
      = .ok (types.node.children "schema") := by
    have hroot : (Document.tree .plain ⟨sections⟩).node.tag = "definitions" := by
      rw [Markup.Tree.tag_node]
      rfl
    exact schemaNodes_of_types hroot htypes hschemas
  rw [Document.ofRoot, hnodes]
  show Except.ok (Document.mk ((types.node.children "schema").map Section.ofNode)) = _
  rw [hsections]

end SchemaTypings.Schema
