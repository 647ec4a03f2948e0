import Mathlib.Algebra.GroupWithZero.Nat
import Mathlib.Data.List.Forall2
import SchemaTypings.Proofs.Conversion
import SchemaTypings.Proofs.Markup.SourceReading
import SchemaTypings.Proofs.Naming.Literal
import SchemaTypings.Proofs.Typings.Noting

/-!
# Listed values

A restriction of texts to listed values becomes a union of literals. Between the document and the
declaration file the values pass through three spellings – references in the document, the
replacement of known prefixes in its whole text, and escapes in the file – and the first and the
last of them take each other back. The second does not look at what it replaces: it is meant for
names, and it rewrites values as well.

`convert_listed_values` says what arrives, for every way of writing a document: one literal for
each value, in order, and each of them denotes what the value is with its known prefixes
replaced. A value without known prefixes is left as it is; `tns:Active` is not
(`not_declaresUnion_status`).
-/

namespace SchemaTypings

open KnownPrefix Markup Naming Schema

/-! ## What a document lists -/

namespace Markup.Tree

/-- The children that a tag names once prefixes are replaced. -/
def known (t : Tree) (wanted : String) : List Tree :=
  t.children.filter (replacePrefixes ·.tag = wanted)

/-- The raw value of the attribute that a name names once prefixes are replaced. -/
def rawAttribute? (t : Tree) (name : String) : Option String :=
  (t.attributes.find? (replacePrefixes ·.name == name)).map (·.value)

/-- **The schemas of a document**: its root, or those among its types. -/
def schemas (t : Tree) : List Tree :=
  if replacePrefixes t.tag = "schema" then [t]
  else if replacePrefixes t.tag = "definitions" then
    ((t.known "types").head?.map (·.known "schema")).getD []
  else []

/-- The declarations that the schemas of a document make. -/
def declarationCount (t : Tree) : Nat :=
  (t.schemas.map fun s => (s.known "simpleType").length + (s.known "complexType").length
    + (s.known "element").length).sum

end Markup.Tree

/-- **What is read for a raw value**: its known prefixes are replaced before its references
are. -/
def reached (raw : String) : String :=
  standsFor (replacePrefixes raw)

/-- **A document lists values** for a simple type: one of its schemas holds a simple type of that
name, whose restriction is one of texts and holds one enumeration for each value. The name and
the values are raw. -/
structure ListsValues (t : Tree) (name : String) (raws : List String) : Prop where
  /-- The simple type and its restriction. -/
  exists_restriction : ∃ schema ∈ t.schemas, ∃ simple ∈ schema.known "simpleType",
    simple.rawAttribute? "name" = some name
      ∧ ∃ restriction, (simple.known "restriction").head? = some restriction
        ∧ (∃ base, restriction.rawAttribute? "base" = some base ∧ reached base = "string")
        ∧ (restriction.known "enumeration").map (·.rawAttribute? "value") = raws.map some

/-! ## What a file declares -/

/-- **A text is a union of literals** that denote some values, one each and in their order. -/
def IsUnionOf (values : List String) (union : String) : Prop :=
  ∃ literals : List String, union = "\n| ".intercalate literals
    ∧ List.Forall₂ Denotes literals values

/-- **A file declares a type as a union of literals** that denote some values: the declaration
stands among those of the file. -/
def DeclaresUnion (options : OutputOptions) (name : String) (values : List String)
    (text : String) : Prop :=
  ∃ before after union, IsUnionOf values union
    ∧ text = (if options.header then lintDirectives else "")
      ++ (declarationsText options.indent before
        ++ ("export type " ++ name ++ " = " ++ union ++ ";\n\n"
          ++ declarationsText options.indent after))

/-! ## From the document to the model -/

namespace Markup.Tree

/-- **The node that is read for a raw tree.** -/
def reading (t : Tree) : Node :=
  t.rewrite.expanded.node

theorem expanded_eq (t : Tree) :
    t.expanded = ⟨t.tag, t.attributes.map Attribute.expanded, t.children.map expanded⟩ := by
  cases t
  rw [expanded, expandedAll_eq_map]

@[simp] theorem tag_reading (t : Tree) : t.reading.tag = replacePrefixes t.tag := by
  rw [reading, tag_node, expanded_eq, rewrite_eq]

/-- The children that are read for a tag are those that it names. -/
@[simp] theorem children_reading (t : Tree) (wanted : String) :
    t.reading.children wanted = (t.known wanted).map reading := by
  have htag : ∀ child : Tree, child.rewrite.expanded.tag = replacePrefixes child.tag := by
    intro child
    rw [expanded_eq, rewrite_eq]
  have hchildren : t.rewrite.expanded.children = t.children.map fun c => c.rewrite.expanded := by
    rw [expanded_eq, rewrite_eq]
    exact List.map_map
  rw [reading, children_node, hchildren, List.filter_map, List.map_map, known]
  refine congrArg (List.map reading) (List.filter_congr fun child _ => ?_)
  rw [Function.comp_apply, htag]

@[simp] theorem child?_reading (t : Tree) (wanted : String) :
    t.reading.child? wanted = (t.known wanted).head?.map reading := by
  rw [Node.child?, children_reading, List.head?_map]

/-- The attribute that is read for a name is the one that it names. -/
@[simp] theorem attribute?_reading (t : Tree) (name : String) :
    t.reading.attribute? name = (t.rawAttribute? name).map reached := by
  rw [reading, attribute?_node, expanded_eq, rewrite_eq, List.map_map, List.find?_map,
    Option.map_map, rawAttribute?, Option.map_map]
  rfl

/-- **The schemas of a document are read**, if it has any. -/
theorem schemaNodes_reading {t : Tree} (h : t.schemas ≠ []) :
    schemaNodes t.reading = .ok (t.schemas.map reading) := by
  unfold schemas at h ⊢
  by_cases hschema : replacePrefixes t.tag = "schema"
  · rw [if_pos hschema, schemaNodes, tag_reading, if_pos hschema]
    rfl
  · rw [if_neg hschema] at h ⊢
    by_cases hdefinitions : replacePrefixes t.tag = "definitions"
    · rw [if_pos hdefinitions] at h ⊢
      cases htypes : (t.known "types").head? with
      | none =>
        rw [htypes] at h
        exact absurd rfl h
      | some types =>
        rw [htypes] at h
        have hread : t.reading.child? "types" = some types.reading := by
          rw [child?_reading, htypes, Option.map_some]
        have hsome : types.reading.children "schema" ≠ [] := by
          rw [children_reading]
          exact fun hnil => h (List.map_eq_nil_iff.mp hnil)
        rw [schemaNodes_of_types (by rw [tag_reading, hdefinitions]) hread hsome, children_reading]
        rfl
    · rw [if_neg hdefinitions] at h
      exact absurd rfl h

end Markup.Tree

/-- A document is read, section by section. -/
theorem Schema.Document.ofRoot_reading {t : Tree} (h : t.schemas ≠ []) :
    Schema.Document.ofRoot t.reading
      = .ok ⟨t.schemas.map fun schema => Section.ofNode schema.reading⟩ := by
  rw [Schema.Document.ofRoot, Tree.schemaNodes_reading h]
  show Except.ok (Document.mk ((t.schemas.map Tree.reading).map Section.ofNode)) = _
  rw [List.map_map]
  rfl

/-- A document makes the declarations that are counted in it. -/
theorem Schema.Document.declarationCount_reading (t : Tree) :
    (Document.mk (t.schemas.map fun schema => Section.ofNode schema.reading)).declarationCount
      = t.declarationCount := by
  rw [Document.declarationCount, Tree.declarationCount]
  induction t.schemas with
  | nil => rfl
  | cons schema more ih =>
    rw [List.map_cons, List.foldr_cons, ih, List.map_cons, List.sum_cons]
    simp [Section.declarationCount, Section.ofNode]

/-- A simple type of listed texts. -/
def Schema.SimpleType.listed (name : String) (values : List String) : SimpleType where
  name := some name
  base := some "string"
  enumerations := values

/-- **The simple type that lists values** is read as one that does. -/
theorem ListsValues.exists_simpleType {t : Tree} {name : String} {raws : List String}
    (h : ListsValues t name raws) :
    ∃ schema ∈ t.schemas, SimpleType.listed (reached name) (raws.map reached)
      ∈ (Section.ofNode schema.reading).simpleTypes := by
  obtain ⟨schema, hschema, simple, hsimple, hname, restriction, hrestriction, ⟨base, hbase, htext⟩,
    hraws⟩ := h.exists_restriction
  refine ⟨schema, hschema, ?_⟩
  have hread : simple.reading.child? "restriction" = some restriction.reading := by
    rw [Tree.child?_reading, hrestriction, Option.map_some]
  have hvalues : (restriction.reading.children "enumeration").map
      (fun e => (e.attribute? "value").getD "") = raws.map reached := by
    have hmap := congrArg (List.map fun raw => (raw.map reached).getD "") hraws
    rw [List.map_map, List.map_map] at hmap
    rw [Tree.children_reading, List.map_map]
    refine Eq.trans (List.map_congr_left fun e _ => ?_) hmap
    rw [Function.comp_apply, Tree.attribute?_reading]
    rfl
  rw [Section.ofNode, Tree.children_reading, List.map_map]
  refine List.mem_map.mpr ⟨simple, hsimple, ?_⟩
  rw [Function.comp_apply, SimpleType.ofNode, hread]
  simp only [Tree.attribute?_reading, hname, hbase, htext, hvalues, Option.map_some,
    SimpleType.listed]

/-! ## From the model to the file -/

/-- The texts of declarations stand one after another. -/
theorem declarationsText_append (indent : String) (a b : List Declaration) :
    declarationsText indent (a ++ b) = declarationsText indent a ++ declarationsText indent b := by
  rw [declarationsText, List.map_append, String.join_append, declarationsText, declarationsText]

/-- A restriction of texts stands for its listed values, if it has any. -/
theorem Schema.SimpleType.body_of_enumerations (policy : NamingPolicy) {t : SimpleType}
    (hbase : t.base = some "string") (hne : t.enumerations ≠ []) :
    t.body policy = pure (.literals t.enumerations) := by
  have hsome : ¬ t.enumerations.isEmpty = true := fun hempty => hne (List.isEmpty_iff.mp hempty)
  unfold SimpleType.body
  simp only [hbase, if_true, if_neg hsome]

/-- **A simple type of listed texts is declared as a union** of literals that denote them. -/
theorem declaresUnion_of_mem (options : OutputOptions) {d : Schema.Document} {s : Section}
    (hs : s ∈ d.sections) {name : String} {values : List String} (hne : values ≠ [])
    (h : SimpleType.listed name values ∈ s.simpleTypes) :
    DeclaresUnion options (options.naming.apply name) values (d.typings options).text := by
  have hbody : valueOf ((SimpleType.listed name values).declaration options.naming)
      = .typeAlias (options.naming.apply name) (.literals values) := by
    have hpure := SimpleType.body_of_enumerations options.naming (t := .listed name values) rfl hne
    rw [SimpleType.valueOf_declaration, hpure, valueOf_pure]
    rfl
  have hdeclared : .typeAlias (options.naming.apply name) (.literals values)
      ∈ d.declared options.naming := by
    rw [Document.declared_eq, List.mem_flatMap]
    refine ⟨s, hs, ?_⟩
    rw [Section.valueOf_declarations, List.mem_append, List.mem_append]
    exact .inl (.inl (List.mem_map.mpr ⟨_, h, hbody⟩))
  obtain ⟨before, after, hsplit⟩ := List.append_of_mem hdeclared
  refine ⟨before, after, "\n| ".intercalate (values.map quote),
    ⟨values.map quote, rfl, ?_⟩, ?_⟩
  · rw [List.forall₂_map_left_iff]
    exact List.forall₂_same.mpr fun value _ => denotes_quote value
  · rw [Document.text_typings, hsplit, List.append_cons, declarationsText_append,
      declarationsText_append, String.append_assoc]
    rfl

/-! ## What arrives -/

/-- A value that is escaped in the document arrives with its known prefixes replaced. -/
theorem reached_escape (value : String) :
    reached (String.ofList (escape value.toList)) = replacePrefixes value := by
  have hrewritten : replacePrefixes (String.ofList (escape value.toList))
      = String.ofList (escape (replacePrefixes value).toList) := by
    rw [toList_replacePrefixes, ← replaceAll_escape, replacePrefixes, String.toList_ofList]
  rw [reached, hrewritten, standsFor_escape]

/-- **A well-formed document is converted** to the declarations of its schemas, if it stays
well-formed when its prefixes are replaced. -/
theorem convert_source (options : OutputOptions) {limits : Limits} {s : Source}
    (hwritten : s.WellFormed) (hrewritten : s.rewrite.WellFormed) {t : Tree}
    (hroot : s.trees = [t]) (hschemas : t.schemas ≠ []) (hwithin : t.Within limits 1)
    (hcount : t.declarationCount ≤ limits.maxDeclarations) :
    convert options limits s.text
      = .ok (Document.typings ⟨t.schemas.map fun schema => Section.ofNode schema.reading⟩
        options) := by
  have hparse : parse limits (replacePrefixes s.text) = .ok (some t.reading) := by
    rw [Source.text_rewrite hwritten]
    refine parse_source hrewritten ?_ hwithin.rewrite
    rw [Source.trees_rewrite, hroot, List.map_singleton]
  refine convert_of_ofText options ?_ ?_
  · rw [Document.ofText, hparse]
    show (Document.ofRoot t.reading).mapError Error.structural = _
    rw [Document.ofRoot_reading hschemas]
    rfl
  · rw [Document.declarationCount_reading]
    exact hcount

/-- **Listed values arrive in the declaration file** with their known prefixes replaced. Whatever
way a document is written in, it is converted, and the file declares the simple type as a union of
literals that denote the values, one each and in their order. What is read for a value depends on
how it is written: one that is escaped arrives as it is but for its prefixes, and in one without
prefixes nothing but its references is replaced. -/
theorem convert_listed_values (options : OutputOptions) {limits : Limits} {s : Source}
    (hwritten : s.WellFormed) (hrewritten : s.rewrite.WellFormed) {t : Tree}
    (hroot : s.trees = [t]) (hwithin : t.Within limits 1)
    (hcount : t.declarationCount ≤ limits.maxDeclarations) {name : String} {raws : List String}
    (hne : raws ≠ []) (h : ListsValues t name raws) :
    (∃ file, convert options limits s.text = .ok file
        ∧ DeclaresUnion options (options.naming.apply (reached name)) (raws.map reached) file.text)
      ∧ (∀ values : List String, raws = values.map (fun v => String.ofList (escape v.toList)) →
        raws.map reached = values.map replacePrefixes)
      ∧ ∀ raw : String, Absent raw.toList → reached raw = standsFor raw := by
  refine ⟨?_, fun values hraws => ?_, fun raw habsent => ?_⟩
  · obtain ⟨schema, hschema, hlisted⟩ := h.exists_simpleType
    have hconvert := convert_source options hwritten hrewritten hroot (List.ne_nil_of_mem hschema)
      hwithin hcount
    exact ⟨_, hconvert, declaresUnion_of_mem options
      (List.mem_map.mpr ⟨schema, hschema, rfl⟩) (mt List.map_eq_nil_iff.mp hne) hlisted⟩
  · rw [hraws, List.map_map]
    exact List.map_congr_left fun v _ => reached_escape v
  · rw [reached, replacePrefixes_eq_self habsent]

/-! ## A value that does not arrive -/

/-- A tag with one attribute, whose value has nothing that must be escaped, is well-formed. -/
theorem Markup.SourceTag.WellFormed.single {tag name raw : String}
    (htag : Markup.isName tag = true) (hname : Markup.isName name = true)
    (hraw : ∀ c ∈ raw.toList, c ∉ escapedChars) :
    SourceTag.WellFormed { name := tag, attributes := [{ name := name, raw := raw }] } := by
  refine ⟨htag, List.forall_mem_singleton.mpr ?_, List.nodup_singleton _, List.forall_mem_nil _⟩
  exact ⟨List.cons_ne_nil _ _, List.forall_mem_singleton.mpr rfl, hname, .inl rfl,
    fun hmem => hraw '"' hmem (by decide), _, expand_of_not_mem hraw⟩

/-- **A document that lists one value** for the type `Status`, in four elements. -/
def statusSource (base value : String) : Source where
  pieces := [.element [] { name := "schema" } [
    .element [] { name := "simpleType", attributes := [{ name := "name", raw := "Status" }] } [
      .element [] { name := "restriction", attributes := [{ name := "base", raw := base }] } [
        .empty [] { name := "enumeration", attributes := [{ name := "value", raw := value }] }]
      [] []] [] []] [] []]

/-- The elements of such a document. -/
def statusTree (base value : String) : Tree :=
  ⟨"schema", [], [⟨"simpleType", [⟨"name", "Status"⟩], [⟨"restriction", [⟨"base", base⟩],
    [⟨"enumeration", [⟨"value", value⟩], []⟩]⟩]⟩]⟩

/-- Such a document is well-formed if nothing in its base and its value has to be escaped. -/
theorem wellFormed_statusSource {base value : String} (hbase : ∀ c ∈ base.toList, c ∉ escapedChars)
    (hvalue : ∀ c ∈ value.toList, c ∉ escapedChars) : (statusSource base value).WellFormed := by
  have helement : ∀ {tag : SourceTag} {p : Piece}, tag.WellFormed → p.WellFormed →
      (Piece.element [] tag [p] [] []).WellFormed := fun htag hp =>
    .element List.not_mem_nil htag (List.forall_mem_singleton.mpr hp) List.not_mem_nil
      (List.forall_mem_nil _)
  have hschema : SourceTag.WellFormed { name := "schema" } :=
    ⟨by decide, List.forall_mem_nil _, List.nodup_nil, List.forall_mem_nil _⟩
  have hsimple : SourceTag.WellFormed
      { name := "simpleType", attributes := [{ name := "name", raw := "Status" }] } :=
    .single (by decide) (by decide) (by decide)
  have hrestriction : SourceTag.WellFormed
      { name := "restriction", attributes := [{ name := "base", raw := base }] } :=
    .single (by decide) (by decide) hbase
  have henumeration : SourceTag.WellFormed
      { name := "enumeration", attributes := [{ name := "value", raw := value }] } :=
    .single (by decide) (by decide) hvalue
  have hpiece := helement hschema (helement hsimple (helement hrestriction
    (.empty List.not_mem_nil henumeration)))
  exact ⟨List.forall_mem_singleton.mpr hpiece, ⟨statusTree base value, rfl⟩, List.not_mem_nil⟩

/-- Reading the values of such a document then leaves them as they are. -/
theorem expanded_statusTree {base value : String} (hbase : ∀ c ∈ base.toList, c ∉ escapedChars)
    (hvalue : ∀ c ∈ value.toList, c ∉ escapedChars) :
    (statusTree base value).expanded = statusTree base value := by
  have hname : standsFor "Status" = "Status" := standsFor_eq_self (by decide)
  simp only [statusTree, Tree.expanded_eq, List.map_cons, List.map_nil, Attribute.expanded, hname,
    standsFor_eq_self hbase, standsFor_eq_self hvalue]

/-- Replacing the prefixes of such a document replaces them in its value. -/
theorem rewrite_statusSource :
    (statusSource "xsd:string" "tns:Active").rewrite = statusSource "string" "tns_Active" := by
  cbv

theorem schemas_statusTree :
    (statusTree "xsd:string" "tns:Active").schemas = [statusTree "xsd:string" "tns:Active"] := by
  cbv

theorem declarationCount_statusTree :
    (statusTree "xsd:string" "tns:Active").declarationCount = 1 := by
  cbv

/-- What is written for the value is the value: nothing in it has to be escaped. -/
theorem listsValues_statusTree :
    ListsValues (statusTree "xsd:string" "tns:Active") "Status"
      (["tns:Active"].map fun v => String.ofList (escape v.toList)) := by
  let schema := statusTree "xsd:string" "tns:Active"
  let enumeration : Tree := ⟨"enumeration", [⟨"value", "tns:Active"⟩], []⟩
  let restriction : Tree := ⟨"restriction", [⟨"base", "xsd:string"⟩], [enumeration]⟩
  let simple : Tree := ⟨"simpleType", [⟨"name", "Status"⟩], [restriction]⟩
  have hsimple : schema.known "simpleType" = [simple] := by cbv
  have hrestriction : simple.known "restriction" = [restriction] := by cbv
  have hplain : replacePrefixes "xsd:string" = "string" := by cbv
  have hbase : reached "xsd:string" = "string" := by
    rw [reached, hplain]
    exact standsFor_eq_self (by decide)
  refine ⟨schema, schemas_statusTree ▸ List.mem_singleton_self _, simple,
    hsimple ▸ List.mem_singleton_self _, by cbv, restriction, by rw [hrestriction]; rfl,
    ⟨"xsd:string", by cbv, hbase⟩, by cbv⟩

/-- The document stays well-formed when its prefixes are replaced. -/
theorem wellFormed_rewrite_statusSource :
    (statusSource "xsd:string" "tns:Active").rewrite.WellFormed := by
  rw [rewrite_statusSource]
  exact wellFormed_statusSource (by decide) (by decide)

/-- A value with a known prefix arrives with an underscore in place of the colon. -/
theorem convert_listed_values_status :
    ∃ file, convert {} .default (statusSource "xsd:string" "tns:Active").text = .ok file
      ∧ DeclaresUnion {} "Status" ["tns_Active"] file.text := by
  have hplain : replacePrefixes "Status" = "Status" := by cbv
  have hname : NamingPolicy.apply .reservedSuffix (reached "Status") = "Status" := by
    rw [reached, hplain, standsFor_eq_self (by decide)]
    cbv
  have hvalue : replacePrefixes "tns:Active" = "tns_Active" := by cbv
  obtain ⟨⟨file, hconvert, hunion⟩, hescaped, -⟩ :=
    @convert_listed_values {} .default _ (wellFormed_statusSource (by decide) (by decide))
      wellFormed_rewrite_statusSource _ rfl (by unfold Tree.Within; decide)
      (declarationCount_statusTree ▸ by decide) _ _
      (List.cons_ne_nil _ _) listsValues_statusTree
  refine ⟨file, hconvert, ?_⟩
  rw [hescaped ["tns:Active"] rfl, List.map_singleton, hvalue] at hunion
  exact hname ▸ hunion

/-- A union of literals without escapes denotes no value with a character that it does not
hold. -/
theorem IsUnionOf.mem_of_mem {value union : String} (h : IsUnionOf [value] union)
    (hescape : '\\' ∉ union.toList) {c : Char} (hc : c ∈ value.toList) : c ∈ union.toList := by
  obtain ⟨literals, rfl, hdenotes⟩ := h
  cases hdenotes with
  | cons hliteral hrest =>
    cases hrest
    exact hliteral.mem_of_mem hescape hc

set_option maxRecDepth 2000 in
/-- **A value is not kept** if it looks like a name with a prefix: `tns:Active` is listed, and what
the file declares is no union of it. -/
theorem not_declaresUnion_status :
    let s := statusSource "xsd:string" "tns:Active"
    s.text = "<schema><simpleType name=\"Status\"><restriction base=\"xsd:string\">"
        ++ "<enumeration value=\"tns:Active\"/></restriction></simpleType></schema>"
      ∧ s.WellFormed
      ∧ (∃ t, s.trees = [t] ∧ t.Within .default 1
        ∧ ListsValues t "Status" (["tns:Active"].map fun v => String.ofList (escape v.toList)))
      ∧ ¬ ∃ file, convert { header := false } .default s.text = .ok file
        ∧ DeclaresUnion { header := false } "Status" ["tns:Active"] file.text := by
  intro s
  have hwritten : s.WellFormed := wellFormed_statusSource (by decide) (by decide)
  have hwithin : (statusTree "xsd:string" "tns:Active").Within .default 1 := by
    unfold Tree.Within
    decide
  refine ⟨rfl, hwritten, ⟨_, rfl, hwithin, listsValues_statusTree⟩, ?_⟩
  rintro ⟨file, hfile, before, after, union, hunion, htext⟩
  have hconvert := @convert_source { header := false } .default s hwritten
    wellFormed_rewrite_statusSource (statusTree "xsd:string" "tns:Active") rfl
    (schemas_statusTree ▸ List.cons_ne_nil _ _) hwithin (declarationCount_statusTree ▸ by decide)
  have hplain : file.text = "export type Status = 'tns_Active';\n\n" := by
    have hsection : Section.ofNode (statusTree "xsd:string" "tns:Active").reading
        = { simpleTypes := [.listed "Status" ["tns_Active"]] } := by
      have htree : (statusTree "xsd:string" "tns:Active").rewrite
          = statusTree "string" "tns_Active" := by
        cbv
      rw [Tree.reading, htree, expanded_statusTree (by decide) (by decide)]
      rfl
    rw [schemas_statusTree, List.map_singleton, hsection] at hconvert
    obtain rfl := Except.ok.inj (hfile.symm.trans hconvert)
    decide
  have hsub : union.toList ⊆ file.text.toList := by
    rw [htext]
    intro c hc
    simp [hc]
  rw [hplain] at hsub
  have hescape : '\\' ∉ union.toList := fun hmem => absurd (hsub hmem) (by decide)
  have hcolon : ':' ∈ union.toList := hunion.mem_of_mem hescape (by decide)
  exact absurd (hsub hcolon) (by decide)

end SchemaTypings
