import SchemaTypings.Proofs.Markup.Rendering
import SchemaTypings.Schema.Reader
import SchemaTypings.Typings.TypeExpr

/-!
# Writing schema documents

The document that says what a schema model says: definitions with a section of types, and in
it one schema for each section of the model. `Document.tree` is written in two spellings.

* In the *prefixed* spelling, which documents use, the elements of XML Schema and its built-in
  types carry the prefix `xsd:`, and a type name that carries a marker carries the prefix
  instead.
* In the *plain* spelling, which the reader meets once prefixes are replaced, nothing does.

Replacing prefixes takes the first to the second (`Document.rewrite_tree`), if no text of the
model holds a prefix itself. Documents in either spelling are no deeper than eight elements
and have no more than five attributes on one element (`Document.within_tree`).
-/

namespace SchemaTypings.Schema

open Markup KnownPrefix

/-! ## Spellings -/

/-- **How a document spells the names of XML Schema.** -/
structure Spelling where
  /-- The tag that a document uses for an element of XML Schema. -/
  tag : String → String
  /-- The token that a document uses for a type name. -/
  token : String → String

namespace Spelling

/-- **A token with its prefix**: that of XML Schema for a built-in type, that of the marker
for a marked name, and none for any other. -/
def prefixedToken (token : String) : String :=
  if (TypeExpr.builtin? token).isSome then
    String.ofList (KnownPrefix.xsd.written ++ token.toList)
  else
    (typeMarkers.findSome? fun p =>
      (p.marker.isPrefixOf? token.toList).map fun rest => String.ofList (p.written ++ rest)).getD
        token

/-- The spelling of a document before its prefixes are replaced. -/
def prefixed : Spelling where
  tag name := String.ofList (KnownPrefix.xsd.written ++ name.toList)
  token := prefixedToken

/-- The spelling of a document once its prefixes are replaced. -/
def plain : Spelling where
  tag name := name
  token name := name

/-- A prefix in front of a text without prefixes is replaced. -/
theorem replacePrefixes_written_append (p : KnownPrefix) {rest : List Char} (h : Absent rest) :
    replacePrefixes (String.ofList (p.written ++ rest))
      = String.ofList (p.replacement ++ rest) := by
  rw [replacePrefixes, String.toList_ofList, replaceAll_written_append, replaceAll_eq_self h]

/-- The prefix of an element is taken away. -/
theorem replacePrefixes_prefixed_tag {name : String} (h : Absent name.toList) :
    replacePrefixes (prefixed.tag name) = name := by
  rw [prefixed, replacePrefixes_written_append _ h]
  exact String.ofList_toList

/-- **The prefix of a token is taken back.** -/
theorem replacePrefixes_prefixed_token {token : String} (h : Absent token.toList) :
    replacePrefixes (prefixed.token token) = token := by
  show replacePrefixes (prefixedToken token) = token
  rw [prefixedToken]
  by_cases hbuiltin : (TypeExpr.builtin? token).isSome = true
  · rw [if_pos hbuiltin, replacePrefixes_written_append _ h]
    exact String.ofList_toList
  · rw [if_neg hbuiltin]
    cases hmarked : typeMarkers.findSome? fun p =>
        (p.marker.isPrefixOf? token.toList).map fun rest => String.ofList (p.written ++ rest) with
    | none => exact replacePrefixes_eq_self h
    | some spelled =>
      obtain ⟨p, hp, hfound⟩ := List.exists_of_findSome?_eq_some hmarked
      obtain ⟨rest, hrest, rfl⟩ := Option.map_eq_some_iff.mp hfound
      have htoken : token.toList = p.marker ++ rest := eq_append_of_isPrefixOf? hrest
      have hreplacement : ∀ q ∈ typeMarkers, q.replacement = q.marker := by decide
      have habsent : Absent rest := h.of_infix (htoken ▸ (List.suffix_append _ _).isInfix)
      rw [Option.getD_some, replacePrefixes_written_append _ habsent, hreplacement p hp,
        ← htoken, String.ofList_toList]

end Spelling

/-! ## Attributes that may be absent -/

/-- **The attributes that are there**, of some that may be absent. -/
def attributesOf (l : List (String × Option String)) : List Attribute :=
  l.filterMap fun a => a.2.map fun value => ⟨a.1, value⟩

/-- The names of the attributes that are there are some of all names. -/
theorem names_attributesOf_sublist (l : List (String × Option String)) :
    ((attributesOf l).map (·.name)).Sublist (l.map Prod.fst) := by
  induction l with
  | nil => exact .slnil
  | cons a l ih =>
    obtain ⟨name, value⟩ := a
    cases value with
    | none => exact ih.cons name
    | some value => exact ih.cons_cons name

theorem length_attributesOf_le (l : List (String × Option String)) :
    (attributesOf l).length ≤ l.length := by
  have hle := (names_attributesOf_sublist l).length_le
  rwa [List.length_map, List.length_map] at hle

/-- A tag can be written with attributes of different names. -/
theorem writable_attributesOf {tag : String} {l : List (String × Option String)}
    (htag : isName tag = true) (hname : ∀ a ∈ l, isName a.1 = true)
    (hd : (l.map Prod.fst).Nodup) : Writable tag (attributesOf l) where
  isName_tag := htag
  isName_name a ha := by
    obtain ⟨entry, hentry, heq⟩ := List.mem_map.mp
      ((names_attributesOf_sublist l).subset (List.mem_map_of_mem ha))
    exact heq ▸ hname entry hentry
  nodup_names := hd.sublist (names_attributesOf_sublist l)

/-- Attributes that may be absent are rewritten where they are there. -/
theorem map_rewrite_attributesOf (l : List (String × Option String)) :
    (attributesOf l).map Attribute.rewrite
      = attributesOf (l.map fun a => (replacePrefixes a.1, a.2.map replacePrefixes)) := by
  induction l with
  | nil => rfl
  | cons a l ih =>
    obtain ⟨name, value⟩ := a
    cases value with
    | none => exact ih
    | some value => exact congrArg (_ :: ·) ih

/-! ## Trees -/

/-- The `element` of a sequence that says what a field is. -/
def Field.tree (spelling : Spelling) (f : Field) : Markup.Tree where
  tag := spelling.tag "element"
  attributes := attributesOf [("name", f.name), ("type", f.type.map spelling.token),
    ("minOccurs", f.minOccurs), ("maxOccurs", f.maxOccurs), ("nillable", f.nillable)]
  children := []

/-- The `sequence` of some fields. -/
def sequenceTree (spelling : Spelling) (fields : List Field) : Markup.Tree where
  tag := spelling.tag "sequence"
  attributes := []
  children := fields.map (Field.tree spelling)

/-- The `simpleType` that says what a simple type is: a `restriction` lists its values. -/
def SimpleType.tree (spelling : Spelling) (t : SimpleType) : Markup.Tree where
  tag := spelling.tag "simpleType"
  attributes := attributesOf [("name", t.name)]
  children :=
    [{ tag := spelling.tag "restriction"
       attributes := attributesOf [("base", t.base.map spelling.token)]
       children := t.enumerations.map fun value =>
        ⟨spelling.tag "enumeration", [⟨"value", value⟩], []⟩ }]

/-- What a `complexType` holds: a `sequence`, or a `complexContent` with an `extension`. -/
def Shape.tree (spelling : Spelling) : Shape → Markup.Tree
  | .sequence fields => sequenceTree spelling fields
  | .content base fields =>
    { tag := spelling.tag "complexContent"
      attributes := []
      children :=
        [{ tag := spelling.tag "extension"
           attributes := attributesOf [("base", base.map spelling.token)]
           children := [sequenceTree spelling fields] }] }

/-- The `complexType` that says what a complex type is. -/
def ComplexType.tree (spelling : Spelling) (t : ComplexType) : Markup.Tree where
  tag := spelling.tag "complexType"
  attributes := attributesOf [("name", t.name)]
  children := [t.shape.tree spelling]

/-- The `element` of a schema that says what an element is, with a record type inside. -/
def Element.tree (spelling : Spelling) (e : Element) : Markup.Tree where
  tag := spelling.tag "element"
  attributes := attributesOf [("name", e.name)]
  children := [⟨spelling.tag "complexType", [], [sequenceTree spelling e.fields]⟩]

/-- The `schema` of a section. -/
def Section.tree (spelling : Spelling) (s : Section) : Markup.Tree where
  tag := spelling.tag "schema"
  attributes := []
  children := s.simpleTypes.map (SimpleType.tree spelling)
    ++ (s.complexTypes.map (ComplexType.tree spelling)
      ++ s.elements.map (Element.tree spelling))

/-- **The definitions that say what a schema document is**, one schema for each section. -/
def Document.tree (spelling : Spelling) (d : Document) : Markup.Tree where
  tag := "definitions"
  attributes := []
  children := [⟨"types", [], d.sections.map (Section.tree spelling)⟩]

/-- **The document that says what a schema document is**, as it is sent. -/
def Document.writtenText (d : Document) : String :=
  String.ofList (d.tree .prefixed).render

/-! ## The texts of a model -/

/-- The texts of a field. -/
def Field.texts (f : Field) : List String :=
  f.name.toList ++ (f.type.toList
    ++ (f.minOccurs.toList ++ (f.maxOccurs.toList ++ f.nillable.toList)))

/-- The texts of a simple type. -/
def SimpleType.texts (t : SimpleType) : List String :=
  t.name.toList ++ (t.base.toList ++ t.enumerations)

/-- The texts of a shape. -/
def Shape.texts : Shape → List String
  | .sequence fields => fields.flatMap Field.texts
  | .content base fields => base.toList ++ fields.flatMap Field.texts

/-- The texts of a complex type. -/
def ComplexType.texts (t : ComplexType) : List String :=
  t.name.toList ++ t.shape.texts

/-- The texts of a top-level element. -/
def Element.texts (e : Element) : List String :=
  e.name.toList ++ e.fields.flatMap Field.texts

/-- The texts of a section. -/
def Section.texts (s : Section) : List String :=
  s.simpleTypes.flatMap SimpleType.texts
    ++ (s.complexTypes.flatMap ComplexType.texts ++ s.elements.flatMap Element.texts)

/-- **The texts of a schema document**: every name, token and value in it. -/
def Document.texts (d : Document) : List String :=
  d.sections.flatMap Section.texts

/-- **No known prefix occurs in any of some texts.** -/
def AbsentFrom (texts : List String) : Prop :=
  ∀ text ∈ texts, Absent text.toList

instance (texts : List String) : Decidable (AbsentFrom texts) :=
  inferInstanceAs (Decidable (∀ text ∈ texts, Absent text.toList))

theorem absentFrom_append {a b : List String} :
    AbsentFrom (a ++ b) ↔ AbsentFrom a ∧ AbsentFrom b :=
  List.forall_mem_append

theorem absentFrom_flatMap {α : Type} {l : List α} {texts : α → List String} :
    AbsentFrom (l.flatMap texts) ↔ ∀ a ∈ l, AbsentFrom (texts a) :=
  List.forall_mem_flatMap

/-! ## Replacing prefixes -/

/-- A value without prefixes, if there is one, is left alone. -/
theorem map_replacePrefixes_eq_self {value : Option String} (h : AbsentFrom value.toList) :
    value.map replacePrefixes = value := by
  cases value with
  | none => rfl
  | some text => exact congrArg some (replacePrefixes_eq_self (h text (by simp)))

/-- The prefix of a token, if there is one, is taken back. -/
theorem map_replacePrefixes_token {token : Option String} (h : AbsentFrom token.toList) :
    (token.map Spelling.prefixed.token).map replacePrefixes
      = token.map Spelling.plain.token := by
  cases token with
  | none => rfl
  | some text =>
    exact congrArg some (Spelling.replacePrefixes_prefixed_token (h text (by simp)))

/-- A name without a colon is left alone. -/
theorem replacePrefixes_of_not_mem {name : String} (h : ':' ∉ name.toList) :
    replacePrefixes name = name :=
  replacePrefixes_eq_self (absent_of_not_mem h)

/-- An element of XML Schema is rewritten to one that has the plain tag. -/
theorem rewrite_prefixed {tag : String} (h : ':' ∉ tag.toList)
    (attributes : List Attribute) (children : List Markup.Tree) :
    Markup.Tree.rewrite ⟨Spelling.prefixed.tag tag, attributes, children⟩
      = ⟨Spelling.plain.tag tag, attributes.map Attribute.rewrite,
        children.map Markup.Tree.rewrite⟩ := by
  rw [Markup.Tree.rewrite_eq, Spelling.replacePrefixes_prefixed_tag (absent_of_not_mem h)]
  rfl

/-- An element outside XML Schema keeps its tag. -/
theorem rewrite_unprefixed {tag : String} (h : ':' ∉ tag.toList)
    (attributes : List Attribute) (children : List Markup.Tree) :
    Markup.Tree.rewrite ⟨tag, attributes, children⟩
      = ⟨tag, attributes.map Attribute.rewrite, children.map Markup.Tree.rewrite⟩ := by
  rw [Markup.Tree.rewrite_eq, replacePrefixes_of_not_mem h]

/-- Trees that are rewritten one by one. -/
theorem map_rewrite_map {α : Type} {l : List α} {a b : α → Markup.Tree}
    (h : ∀ x ∈ l, (a x).rewrite = b x) : (l.map a).map Markup.Tree.rewrite = l.map b := by
  rw [List.map_map]
  exact List.map_congr_left h

/-- An attribute that is alone, if it is there, is rewritten where it is there. -/
theorem map_rewrite_single {name : String} {value value' : Option String}
    (hname : ':' ∉ name.toList) (hvalue : value.map replacePrefixes = value') :
    (attributesOf [(name, value)]).map Attribute.rewrite = attributesOf [(name, value')] := by
  rw [map_rewrite_attributesOf, List.map_singleton, replacePrefixes_of_not_mem hname, hvalue]

/-- The `element` of a field is rewritten to its plain spelling. -/
theorem Field.rewrite_tree {f : Field} (h : AbsentFrom f.texts) :
    (f.tree .prefixed).rewrite = f.tree .plain := by
  simp only [Field.texts, absentFrom_append] at h
  obtain ⟨hname, htype, hmin, hmax, hnil⟩ := h
  rw [Field.tree, rewrite_prefixed (by decide), map_rewrite_attributesOf, Field.tree]
  simp only [List.map_cons, List.map_nil]
  rw [map_replacePrefixes_eq_self hname, map_replacePrefixes_token htype,
    map_replacePrefixes_eq_self hmin, map_replacePrefixes_eq_self hmax,
    map_replacePrefixes_eq_self hnil, replacePrefixes_of_not_mem (by decide),
    replacePrefixes_of_not_mem (by decide), replacePrefixes_of_not_mem (by decide),
    replacePrefixes_of_not_mem (by decide), replacePrefixes_of_not_mem (by decide)]

/-- The `sequence` of some fields is rewritten to its plain spelling. -/
theorem rewrite_sequenceTree {fields : List Field}
    (h : AbsentFrom (fields.flatMap Field.texts)) :
    (sequenceTree .prefixed fields).rewrite = sequenceTree .plain fields := by
  have hfields := map_rewrite_map fun f hf => Field.rewrite_tree (absentFrom_flatMap.mp h f hf)
  rw [sequenceTree, rewrite_prefixed (by decide), hfields]
  rfl

/-- The `enumeration` of a value is rewritten to its plain spelling. -/
theorem rewrite_enumeration {value : String} (h : Absent value.toList) :
    Markup.Tree.rewrite ⟨Spelling.prefixed.tag "enumeration", [⟨"value", value⟩], []⟩
      = ⟨Spelling.plain.tag "enumeration", [⟨"value", value⟩], []⟩ := by
  have hname : replacePrefixes "value" = "value" := replacePrefixes_of_not_mem (by decide)
  rw [rewrite_prefixed (by decide), List.map_singleton, Attribute.rewrite, hname,
    replacePrefixes_eq_self h]
  rfl

/-- The `simpleType` of a simple type is rewritten to its plain spelling. -/
theorem SimpleType.rewrite_tree {t : SimpleType} (h : AbsentFrom t.texts) :
    (t.tree .prefixed).rewrite = t.tree .plain := by
  simp only [SimpleType.texts, absentFrom_append] at h
  obtain ⟨hname, hbase, hvalues⟩ := h
  have hvalues := map_rewrite_map fun value hvalue => rewrite_enumeration (hvalues value hvalue)
  rw [SimpleType.tree, rewrite_prefixed (by decide), List.map_singleton,
    rewrite_prefixed (by decide), hvalues,
    map_rewrite_single (by decide) (map_replacePrefixes_eq_self hname),
    map_rewrite_single (by decide) (map_replacePrefixes_token hbase)]
  rfl

/-- What a `complexType` holds is rewritten to its plain spelling. -/
theorem Shape.rewrite_tree {shape : Shape} (h : AbsentFrom shape.texts) :
    (shape.tree .prefixed).rewrite = shape.tree .plain := by
  cases shape with
  | sequence fields => exact rewrite_sequenceTree h
  | content base fields =>
    obtain ⟨hbase, hfields⟩ := absentFrom_append.mp h
    rw [Shape.tree, rewrite_prefixed (by decide), List.map_singleton,
      rewrite_prefixed (by decide), List.map_singleton, rewrite_sequenceTree hfields,
      map_rewrite_single (by decide) (map_replacePrefixes_token hbase)]
    rfl

/-- The `complexType` of a complex type is rewritten to its plain spelling. -/
theorem ComplexType.rewrite_tree {t : ComplexType} (h : AbsentFrom t.texts) :
    (t.tree .prefixed).rewrite = t.tree .plain := by
  obtain ⟨hname, hshape⟩ := absentFrom_append.mp h
  rw [ComplexType.tree, rewrite_prefixed (by decide), List.map_singleton,
    Shape.rewrite_tree hshape,
    map_rewrite_single (by decide) (map_replacePrefixes_eq_self hname)]
  rfl

/-- The `element` of a top-level element is rewritten to its plain spelling. -/
theorem Element.rewrite_tree {e : Element} (h : AbsentFrom e.texts) :
    (e.tree .prefixed).rewrite = e.tree .plain := by
  obtain ⟨hname, hfields⟩ := absentFrom_append.mp h
  rw [Element.tree, rewrite_prefixed (by decide), List.map_singleton,
    rewrite_prefixed (by decide), List.map_singleton, rewrite_sequenceTree hfields,
    map_rewrite_single (by decide) (map_replacePrefixes_eq_self hname)]
  rfl

/-- The `schema` of a section is rewritten to its plain spelling. -/
theorem Section.rewrite_tree {s : Section} (h : AbsentFrom s.texts) :
    (s.tree .prefixed).rewrite = s.tree .plain := by
  simp only [Section.texts, absentFrom_append, absentFrom_flatMap] at h
  obtain ⟨hsimple, hcomplex, helement⟩ := h
  rw [Section.tree, rewrite_prefixed (by decide), List.map_append, List.map_append,
    map_rewrite_map fun t ht => SimpleType.rewrite_tree (hsimple t ht),
    map_rewrite_map fun t ht => ComplexType.rewrite_tree (hcomplex t ht),
    map_rewrite_map fun e he => Element.rewrite_tree (helement e he)]
  rfl

/-- **Replacing the prefixes of a document gives its plain spelling**, if the model holds none
of its own. -/
theorem Document.rewrite_tree {d : Document} (h : AbsentFrom d.texts) :
    (d.tree .prefixed).rewrite = d.tree .plain := by
  have hsections := map_rewrite_map fun s hs =>
    Section.rewrite_tree (absentFrom_flatMap.mp h s hs)
  rw [Document.tree, rewrite_unprefixed (by decide), List.map_singleton,
    rewrite_unprefixed (by decide), hsections]
  rfl

/-! ## Documents that can be written -/

/-- **A spelling keeps names** if it spells every name as a name. -/
def Spelling.KeepsNames (spelling : Spelling) : Prop :=
  ∀ name, isName name = true → isName (spelling.tag name) = true

theorem Spelling.keepsNames_plain : Spelling.plain.KeepsNames :=
  fun _ h => h

theorem Spelling.keepsNames_prefixed : Spelling.prefixed.KeepsNames := by
  intro name h
  show isName (String.ofList (KnownPrefix.xsd.written ++ name.toList)) = true
  have hparts : (['s', 'd', ':'] ++ name.toList).all isNamePart = true := by
    rw [List.all_append, Bool.and_eq_true]
    exact ⟨by decide, List.all_eq_true.mpr fun c hc => isNamePart_of_mem h hc⟩
  rw [isName, String.toList_ofList]
  exact hparts

variable {spelling : Spelling} (hspelling : spelling.KeepsNames)
include hspelling

/-- A tag without attributes can be written in such a spelling. -/
theorem writable_nil {tag : String} (htag : isName tag = true) :
    Writable (spelling.tag tag) [] :=
  ⟨hspelling tag htag, List.forall_mem_nil _, List.nodup_nil⟩

/-- A tag with an attribute that may be absent can be written in such a spelling. -/
theorem writable_single {tag name : String} (htag : isName tag = true)
    (hname : isName name = true) (value : Option String) :
    Writable (spelling.tag tag) (attributesOf [(name, value)]) :=
  writable_attributesOf (hspelling tag htag) (List.forall_mem_singleton.mpr hname)
    (List.nodup_singleton name)

/-- The `element` of a field can be written. -/
theorem Field.proper_tree (f : Field) : (f.tree spelling).Proper := by
  refine .intro (writable_attributesOf (hspelling "element" (by decide)) ?_ (by simp))
    (List.forall_mem_nil _)
  simp only [List.forall_mem_cons]
  exact ⟨by decide, by decide, by decide, by decide, by decide, List.forall_mem_nil _⟩

/-- The `sequence` of some fields can be written. -/
theorem proper_sequenceTree (fields : List Field) : (sequenceTree spelling fields).Proper :=
  .intro (writable_nil hspelling (by decide))
    (List.forall_mem_map.mpr fun f _ => f.proper_tree hspelling)

/-- The `simpleType` of a simple type can be written. -/
theorem SimpleType.proper_tree (t : SimpleType) : (t.tree spelling).Proper := by
  refine .intro (writable_single hspelling (by decide) (by decide) t.name)
    (List.forall_mem_singleton.mpr ?_)
  refine .intro (writable_single hspelling (by decide) (by decide) _)
    (List.forall_mem_map.mpr fun value _ => ?_)
  have hname : isName "value" = true := by decide
  exact .intro ⟨hspelling _ (by decide), List.forall_mem_singleton.mpr hname,
    List.nodup_singleton _⟩ (List.forall_mem_nil _)

/-- What a `complexType` holds can be written. -/
theorem Shape.proper_tree (shape : Shape) : (shape.tree spelling).Proper := by
  cases shape with
  | sequence fields => exact proper_sequenceTree hspelling fields
  | content base fields =>
    refine .intro (writable_nil hspelling (by decide)) (List.forall_mem_singleton.mpr ?_)
    exact .intro (writable_single hspelling (by decide) (by decide) _)
      (List.forall_mem_singleton.mpr (proper_sequenceTree hspelling fields))

/-- The `complexType` of a complex type can be written. -/
theorem ComplexType.proper_tree (t : ComplexType) : (t.tree spelling).Proper :=
  .intro (writable_single hspelling (by decide) (by decide) t.name)
    (List.forall_mem_singleton.mpr (t.shape.proper_tree hspelling))

/-- The `element` of a top-level element can be written. -/
theorem Element.proper_tree (e : Element) : (e.tree spelling).Proper := by
  refine .intro (writable_single hspelling (by decide) (by decide) e.name)
    (List.forall_mem_singleton.mpr ?_)
  exact .intro (writable_nil hspelling (by decide))
    (List.forall_mem_singleton.mpr (proper_sequenceTree hspelling e.fields))

/-- The `schema` of a section can be written. -/
theorem Section.proper_tree (s : Section) : (s.tree spelling).Proper := by
  refine .intro (writable_nil hspelling (by decide)) ?_
  rw [List.forall_mem_append, List.forall_mem_append]
  exact ⟨List.forall_mem_map.mpr fun t _ => t.proper_tree hspelling,
    List.forall_mem_map.mpr fun t _ => t.proper_tree hspelling,
    List.forall_mem_map.mpr fun e _ => e.proper_tree hspelling⟩

/-- **Every schema document can be written**, whatever its texts are. -/
theorem Document.proper_tree (d : Document) : (d.tree spelling).Proper := by
  refine .intro ⟨by decide, List.forall_mem_nil _, List.nodup_nil⟩
    (List.forall_mem_singleton.mpr ?_)
  exact .intro ⟨by decide, List.forall_mem_nil _, List.nodup_nil⟩
    (List.forall_mem_map.mpr fun s _ => s.proper_tree hspelling)

omit hspelling

/-! ## How large documents are -/

section Within

variable {limits : Limits} {depth : Nat} (hattributes : 5 ≤ limits.maxAttributes)
include hattributes

/-- Attributes that may be absent are no more than the places for them. -/
theorem length_attributesOf_le_max {l : List (String × Option String)} (h : l.length ≤ 5) :
    (attributesOf l).length ≤ limits.maxAttributes :=
  (length_attributesOf_le l).trans (h.trans hattributes)

/-- The `element` of a field is one element deep. -/
theorem Field.within_tree (f : Field) (hdepth : depth ≤ limits.maxDepth) :
    (f.tree spelling).Within limits depth :=
  (Markup.Tree.within_iff limits depth _).mpr
    ⟨⟨hdepth, length_attributesOf_le_max hattributes (by simp)⟩, List.forall_mem_nil _⟩

/-- The `sequence` of some fields is two elements deep. -/
theorem within_sequenceTree (fields : List Field) (hdepth : depth + 1 ≤ limits.maxDepth) :
    (sequenceTree spelling fields).Within limits depth :=
  (Markup.Tree.within_iff limits depth _).mpr
    ⟨⟨Nat.le_of_succ_le hdepth, Nat.zero_le _⟩,
      List.forall_mem_map.mpr fun f _ => f.within_tree hattributes hdepth⟩

/-- The `simpleType` of a simple type is three elements deep. -/
theorem SimpleType.within_tree (t : SimpleType) (hdepth : depth + 2 ≤ limits.maxDepth) :
    (t.tree spelling).Within limits depth := by
  simp only [SimpleType.tree, Markup.Tree.within_iff limits depth,
    Markup.Tree.within_iff limits (depth + 1), Markup.Tree.within_iff limits (depth + 1 + 1),
    List.forall_mem_singleton, List.forall_mem_map]
  refine ⟨⟨by omega, length_attributesOf_le_max hattributes (by simp)⟩,
    ⟨by omega, length_attributesOf_le_max hattributes (by simp)⟩, fun value _ => ?_⟩
  exact ⟨⟨by omega, (by decide : 1 ≤ 5).trans hattributes⟩, List.forall_mem_nil _⟩

/-- What a `complexType` holds is up to four elements deep. -/
theorem Shape.within_tree (shape : Shape) (hdepth : depth + 3 ≤ limits.maxDepth) :
    (shape.tree spelling).Within limits depth := by
  cases shape with
  | sequence fields => exact within_sequenceTree hattributes fields (by omega)
  | content base fields =>
    have hsequence : (sequenceTree spelling fields).Within limits (depth + 1 + 1) :=
      within_sequenceTree hattributes fields (by omega)
    simp only [Shape.tree, Markup.Tree.within_iff limits depth,
      Markup.Tree.within_iff limits (depth + 1), List.forall_mem_singleton]
    exact ⟨⟨by omega, Nat.zero_le _⟩,
      ⟨by omega, length_attributesOf_le_max hattributes (by simp)⟩, hsequence⟩

/-- The `complexType` of a complex type is up to five elements deep. -/
theorem ComplexType.within_tree (t : ComplexType) (hdepth : depth + 4 ≤ limits.maxDepth) :
    (t.tree spelling).Within limits depth := by
  have hshape : (t.shape.tree spelling).Within limits (depth + 1) :=
    t.shape.within_tree hattributes (by omega)
  exact (Markup.Tree.within_iff limits depth _).mpr
    ⟨⟨by omega, length_attributesOf_le_max hattributes (by simp)⟩,
      List.forall_mem_singleton.mpr hshape⟩

/-- The `element` of a top-level element is four elements deep. -/
theorem Element.within_tree (e : Element) (hdepth : depth + 3 ≤ limits.maxDepth) :
    (e.tree spelling).Within limits depth := by
  have hsequence : (sequenceTree spelling e.fields).Within limits (depth + 1 + 1) :=
    within_sequenceTree hattributes e.fields (by omega)
  simp only [Element.tree, Markup.Tree.within_iff limits depth,
    Markup.Tree.within_iff limits (depth + 1), List.forall_mem_singleton]
  exact ⟨⟨by omega, length_attributesOf_le_max hattributes (by simp)⟩,
    ⟨by omega, Nat.zero_le _⟩, hsequence⟩

/-- The `schema` of a section is up to six elements deep. -/
theorem Section.within_tree (s : Section) (hdepth : depth + 5 ≤ limits.maxDepth) :
    (s.tree spelling).Within limits depth := by
  refine (Markup.Tree.within_iff limits depth _).mpr ⟨⟨by omega, Nat.zero_le _⟩, ?_⟩
  rw [Section.tree, List.forall_mem_append, List.forall_mem_append]
  exact ⟨List.forall_mem_map.mpr fun t _ => t.within_tree hattributes (by omega),
    List.forall_mem_map.mpr fun t _ => t.within_tree hattributes (by omega),
    List.forall_mem_map.mpr fun e _ => e.within_tree hattributes (by omega)⟩

/-- **A schema document needs eight elements of depth and five attributes**, and no more. -/
theorem Document.within_tree (d : Document) (hdepth : 8 ≤ limits.maxDepth) :
    (d.tree spelling).Within limits 1 := by
  simp only [Document.tree, Markup.Tree.within_iff limits 1, Markup.Tree.within_iff limits (1 + 1),
    List.forall_mem_singleton, List.forall_mem_map]
  exact ⟨⟨by omega, Nat.zero_le _⟩, ⟨by omega, Nat.zero_le _⟩,
    fun s _ => s.within_tree hattributes (by omega)⟩

end Within

end SchemaTypings.Schema
