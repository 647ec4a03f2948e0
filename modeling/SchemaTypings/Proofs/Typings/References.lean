import SchemaTypings.Proofs.Naming.Policy
import SchemaTypings.Proofs.Typings.Accounting
import SchemaTypings.Proofs.Typings.Unambiguous

/-!
# References and what they refer to

A type is named in two ways: where it is declared, by the raw name of a simple type, a complex
type or an element, and where it is referred to, by a token that carries the raw name behind a
type marker. The naming policy is applied in both, so a reference is written exactly like the
declaration of the same raw name – and like those of the few other raw names that merge with
it (`NamingPolicy.Merges`).

`reference_written_as_declared` says so for every place of a reference, and draws the conclusion
for whole documents: if all references of a document name something it declares, then no type
name in its declarations is left without a declaration.
-/

namespace SchemaTypings

open KnownPrefix Schema

/-! ## Names that declarations declare and use -/

/-- The name that a declaration declares. -/
def Declaration.name : Declaration → String
  | .typeAlias name _ => name
  | .interface name _ _ => name

/-- The declared type that a type refers to, if it is no predefined one. -/
def TypeExpr.references : TypeExpr → List String
  | .named name => [name]
  | _ => []

/-- The declared types that an alias refers to; literals refer to none. -/
def AliasBody.references : AliasBody → List String
  | .literals _ => []
  | .scalar t => t.references

/-- **The declared types that a declaration refers to**: by what an alias stands for, by the
parent of an interface, and by the types of its members. -/
def Declaration.references : Declaration → List String
  | .typeAlias _ body => body.references
  | .interface _ parent members => parent.toList ++ members.flatMap (·.type.references)

/-- **The declarations of a raw name**: what a simple type, a complex type and an element of
that name become. -/
inductive NamingPolicy.Declares (policy : NamingPolicy) (raw : String) : Declaration → Prop where
  /-- A simple type is declared as an alias. -/
  | simpleType {t : SimpleType} (h : t.name = some raw) :
      Declares policy raw (valueOf (t.declaration policy))
  /-- A complex type is declared as an interface. -/
  | complexType {t : ComplexType} (h : t.name = some raw) :
      Declares policy raw (valueOf (t.declaration policy))
  /-- An element is declared as an interface. -/
  | element {e : Element} (h : e.name = some raw) :
      Declares policy raw (valueOf (e.declaration policy))

/-- Every declaration of a raw name has the type name that the policy makes of it. -/
theorem NamingPolicy.Declares.name_eq {policy : NamingPolicy} {raw : String}
    {declaration : Declaration} (h : policy.Declares raw declaration) :
    declaration.name = policy.apply raw := by
  cases h with
  | simpleType h =>
    rw [SimpleType.valueOf_declaration, h]
    rfl
  | complexType h =>
    rw [ComplexType.valueOf_declaration, h]
    rfl
  | element h =>
    rw [Element.valueOf_declaration, h]
    rfl

/-! ## Where references come from -/

/-- **A type name is that of a reference** to a raw name, made by a token. -/
def NamingPolicy.RefersBy (policy : NamingPolicy) (token name : String) : Prop :=
  ∃ p ∈ typeMarkers, ∃ raw, raw ≠ "" ∧ token = p.reference raw ∧ name = policy.apply raw

namespace TypeExpr

/-- Built-in types refer to nothing declared. -/
theorem references_of_builtin? {token : String} {t : TypeExpr} (h : builtin? token = some t) :
    t.references = [] := by
  have hall : ∀ entry ∈ builtins, entry.2.references = [] := by decide
  exact hall _ (mem_builtins_of_builtin? h)

/-- **A type refers to what its token refers to.** -/
theorem refersBy_of_mem_ofToken {policy : NamingPolicy} {token name : String}
    (h : name ∈ (valueOf (ofToken policy token)).references) : policy.RefersBy token name := by
  rcases token_cases token with ⟨t, ht⟩ | ⟨p, hp, raw, hraw, rfl⟩ | hunknown
  · rw [ofToken_of_builtin? policy ht, valueOf_pure, references_of_builtin? ht] at h
    exact absurd h List.not_mem_nil
  · rw [ofToken_reference policy hp hraw, valueOf_pure] at h
    exact ⟨p, hp, raw, hraw, rfl, List.mem_singleton.mp h⟩
  · rw [ofToken_of_unknown policy hunknown] at h
    exact absurd h List.not_mem_nil

/-- **A parent is what the token of the base refers to.** -/
theorem refersBy_of_mem_baseName {policy : NamingPolicy} {base : Option String} {name : String}
    (h : name ∈ valueOf (baseName policy base)) :
    ∃ token ∈ (base.filter (· ≠ "")).toList, policy.RefersBy token name := by
  cases hbase : base.filter (· ≠ "") with
  | none =>
    rw [baseName_of_filter_eq_none policy hbase] at h
    cases h
  | some token =>
    obtain ⟨rfl, hne⟩ := Option.filter_eq_some_iff.mp hbase
    replace hne := of_decide_eq_true hne
    refine ⟨token, List.mem_singleton_self token, refersBy_of_mem_ofToken ?_⟩
    rw [baseName_eq_map_ofToken policy hne, valueOf_map, Option.mem_def, name?_eq_some_iff] at h
    rw [h]
    exact List.mem_singleton_self name

end TypeExpr

namespace Schema

/-- What the members of an interface refer to is referred to by the tokens of the fields. -/
theorem Field.refersBy_of_mem_members {policy : NamingPolicy} {owner name : String}
    {fields : List Field}
    (h : name ∈ (fields.map fun f => valueOf (f.member policy owner)).flatMap
      (·.type.references)) :
    ∃ token ∈ fields.flatMap Field.lookups, policy.RefersBy token name := by
  rw [List.flatMap_map, List.mem_flatMap] at h
  obtain ⟨f, hf, hname⟩ := h
  rw [Field.valueOf_member] at hname
  change name ∈ (valueOf (f.typeExpr policy owner)).references at hname
  unfold Field.typeExpr at hname
  split at hname
  · rename_i token htype
    refine ⟨token, List.mem_flatMap.mpr ⟨f, hf, ?_⟩, TypeExpr.refersBy_of_mem_ofToken hname⟩
    rw [Field.lookups, htype]
    exact List.mem_singleton_self token
  · exact absurd hname List.not_mem_nil

/-- What an alias refers to is referred to by the token of its base. -/
theorem SimpleType.refersBy_of_mem {policy : NamingPolicy} {t : SimpleType} {name : String}
    (h : name ∈ (valueOf (t.declaration policy)).references) :
    ∃ token ∈ t.lookups, policy.RefersBy token name := by
  rw [SimpleType.valueOf_declaration] at h
  change name ∈ (valueOf (t.body policy)).references at h
  unfold SimpleType.body at h
  unfold SimpleType.lookups
  cases hbase : t.base with
  | none =>
    simp only [hbase] at h
    exact absurd h List.not_mem_nil
  | some base =>
    simp only [hbase] at h
    by_cases hstring : base = "string"
    · rw [if_pos hstring, valueOf_pure] at h
      by_cases hempty : t.enumerations.isEmpty = true
      · rw [if_pos hempty] at h
        exact absurd h List.not_mem_nil
      · rw [if_neg hempty] at h
        exact absurd h List.not_mem_nil
    · rw [if_neg hstring] at h
      exact ⟨base, List.mem_singleton_self base, TypeExpr.refersBy_of_mem_ofToken h⟩

/-- What the interface of a complex type refers to is referred to by the tokens of the type. -/
theorem ComplexType.refersBy_of_mem {policy : NamingPolicy} {t : ComplexType} {name : String}
    (h : name ∈ (valueOf (t.declaration policy)).references) :
    ∃ token ∈ t.lookups, policy.RefersBy token name := by
  rw [ComplexType.valueOf_declaration] at h
  rcases List.mem_append.mp h with hparent | hmember
  · have hbase : ∃ token ∈ t.shape.parentLookups, policy.RefersBy token name := by
      cases hshape : t.shape with
      | sequence fields =>
        rw [hshape] at hparent
        exact absurd hparent List.not_mem_nil
      | content base fields =>
        rw [hshape] at hparent
        exact TypeExpr.refersBy_of_mem_baseName (Option.mem_toList.mp hparent)
    obtain ⟨token, htoken, hrefers⟩ := hbase
    exact ⟨token, List.mem_append_left _ htoken, hrefers⟩
  · obtain ⟨token, htoken, hrefers⟩ := Field.refersBy_of_mem_members hmember
    exact ⟨token, List.mem_append_right _ htoken, hrefers⟩

/-- What the interface of an element refers to is referred to by the tokens of the element. -/
theorem Element.refersBy_of_mem {policy : NamingPolicy} {e : Element} {name : String}
    (h : name ∈ (valueOf (e.declaration policy)).references) :
    ∃ token ∈ e.lookups, policy.RefersBy token name := by
  rw [Element.valueOf_declaration] at h
  exact Field.refersBy_of_mem_members h

/-- **What a document's declarations refer to is referred to by its tokens.** -/
theorem Document.refersBy_of_mem {policy : NamingPolicy} {d : Document} {name : String}
    {declaration : Declaration} (hdeclared : declaration ∈ d.declared policy)
    (h : name ∈ declaration.references) :
    ∃ token ∈ d.lookups, policy.RefersBy token name := by
  rw [Document.declared_eq, List.mem_flatMap] at hdeclared
  obtain ⟨s, hs, hdeclared⟩ := hdeclared
  have hsection : ∃ token ∈ s.lookups, policy.RefersBy token name := by
    rw [Section.valueOf_declarations, List.mem_append, List.mem_append, List.mem_map,
      List.mem_map, List.mem_map] at hdeclared
    simp only [Section.lookups, List.mem_append, List.mem_flatMap]
    rcases hdeclared with (⟨t, ht, rfl⟩ | ⟨t, ht, rfl⟩) | ⟨e, he, rfl⟩
    · obtain ⟨token, htoken, hrefers⟩ := SimpleType.refersBy_of_mem h
      exact ⟨token, .inl ⟨t, ht, htoken⟩, hrefers⟩
    · obtain ⟨token, htoken, hrefers⟩ := ComplexType.refersBy_of_mem h
      exact ⟨token, .inr (.inl ⟨t, ht, htoken⟩), hrefers⟩
    · obtain ⟨token, htoken, hrefers⟩ := Element.refersBy_of_mem h
      exact ⟨token, .inr (.inr ⟨e, he, htoken⟩), hrefers⟩
  obtain ⟨token, htoken, hrefers⟩ := hsection
  exact ⟨token, List.mem_flatMap.mpr ⟨s, hs, htoken⟩, hrefers⟩

end Schema

/-! ## What references become -/

section Reference

variable (policy : NamingPolicy) {p : KnownPrefix} (hp : p ∈ typeMarkers) {name : String}
  (hname : name ≠ "")
include hp hname

/-- A field whose type is a reference has the type of its raw name. -/
theorem Schema.Field.type_member_reference {f : Field} (h : f.type = some (p.reference name))
    (owner : String) :
    (valueOf (f.member policy owner)).type = .named (policy.apply name) := by
  rw [Field.valueOf_member]
  show valueOf (f.typeExpr policy owner) = _
  unfold Field.typeExpr
  simp only [h]
  rw [TypeExpr.ofToken_reference policy hp hname, valueOf_pure]

/-- A simple type whose base is a reference stands for the type of its raw name, whether or not
values are listed. -/
theorem Schema.SimpleType.body_reference {t : SimpleType} (h : t.base = some (p.reference name)) :
    valueOf (t.body policy) = .scalar (.named (policy.apply name)) := by
  have hne : p.reference name ≠ "string" := by
    intro heq
    have hnone := TypeExpr.builtin?_reference hp name
    rw [heq] at hnone
    cases hnone
  unfold SimpleType.body
  simp only [h, if_neg hne]
  rw [TypeExpr.ofToken_reference policy hp hname, valueOf_map, valueOf_pure]

/-- A complex type whose base is a reference extends the type of its raw name. -/
theorem Schema.Shape.parent_reference (fields : List Field) :
    valueOf (Shape.parent policy (.content (some (p.reference name)) fields))
      = some (policy.apply name) := by
  rw [Shape.parent, TypeExpr.baseName_reference policy hp hname, valueOf_pure]

end Reference

namespace Schema

/-! ## What is declared -/

/-- **Every name of a section is declared**, and no other: the declarations are named one by
one by what the policy makes of the names. -/
theorem Section.map_name_declarations (policy : NamingPolicy) (s : Section) :
    (valueOf (s.declarations policy)).map Declaration.name = s.names.map policy.declare := by
  have hcomplex : ∀ t : ComplexType,
      (valueOf (t.declaration policy)).name = policy.declare t.name := by
    intro t
    rw [ComplexType.valueOf_declaration]
    rfl
  have helement : ∀ e : Element,
      (valueOf (e.declaration policy)).name = policy.declare e.name := by
    intro e
    rw [Element.valueOf_declaration]
    rfl
  rw [Section.valueOf_declarations, Section.names]
  simp only [List.map_append, List.map_map, List.append_assoc]
  refine congrArg₂ _ (List.map_congr_left fun t _ => rfl) ?_
  exact congrArg₂ _ (List.map_congr_left fun t _ => hcomplex t)
    (List.map_congr_left fun e _ => helement e)

/-- A name of a document is declared by one of its declarations. -/
theorem Document.exists_declared_of_mem_names {policy : NamingPolicy} {d : Document} {s : Section}
    (hs : s ∈ d.sections) {raw : String} (h : some raw ∈ s.names) :
    ∃ declaration ∈ d.declared policy, declaration.name = policy.apply raw := by
  have hmem : policy.declare (some raw) ∈
      (valueOf (s.declarations policy)).map Declaration.name := by
    rw [Section.map_name_declarations]
    exact List.mem_map_of_mem h
  obtain ⟨declaration, hdeclaration, hname⟩ := List.mem_map.mp hmem
  refine ⟨declaration, ?_, hname⟩
  rw [Document.declared_eq]
  exact List.mem_flatMap.mpr ⟨s, hs, hdeclaration⟩

/-- **A document that refers to nothing it does not declare**: the raw name of each of its
references merges with one that it declares – which it does if the two are the same. -/
def Document.RefersToDeclared (policy : NamingPolicy) (d : Document) : Prop :=
  ∀ p ∈ typeMarkers, ∀ raw, raw ≠ "" → p.reference raw ∈ d.lookups →
    ∃ s ∈ d.sections, ∃ declared, some declared ∈ s.names ∧ policy.Merges raw declared

end Schema

/-- **A reference is written as a declaration is exactly if their raw names merge**, wherever
the reference stands: as the type of a field, as the base of a simple type or as the base of a
complex type. So if all references of a document name something that the document declares,
then every type name in its declarations is that of one of its declarations. -/
theorem reference_written_as_declared (policy : NamingPolicy) :
    (∀ p ∈ typeMarkers, ∀ name, name ≠ "" → ∀ raw declaration, policy.Declares raw declaration →
        (∀ (owner : String) (f : Field), f.type = some (p.reference name) →
          ((valueOf (f.member policy owner)).type.text = declaration.name
            ↔ policy.Merges name raw))
        ∧ (∀ t : SimpleType, t.base = some (p.reference name) →
          ((valueOf (t.body policy)).text = declaration.name ↔ policy.Merges name raw))
        ∧ ∀ fields : List Field, ∃ parent,
          valueOf (Shape.parent policy (.content (some (p.reference name)) fields)) = some parent
            ∧ (parent = declaration.name ↔ policy.Merges name raw))
      ∧ ∀ d : Document, d.RefersToDeclared policy → ∀ declaration ∈ d.declared policy,
        ∀ name ∈ declaration.references, ∃ other ∈ d.declared policy, other.name = name := by
  constructor
  · intro p hp name hname raw declaration hdeclares
    have hmerges := policy.apply_eq_iff (a := name) (b := raw)
    rw [hdeclares.name_eq]
    refine ⟨fun owner f htype => ?_, fun t hbase => ?_, fun fields => ?_⟩
    · rw [Field.type_member_reference policy hp hname htype]
      exact hmerges
    · rw [SimpleType.body_reference policy hp hname hbase]
      exact hmerges
    · exact ⟨policy.apply name, Shape.parent_reference policy hp hname fields, hmerges⟩
  · intro d hd declaration hdeclared name hname
    obtain ⟨token, htoken, p, hp, raw, hraw, rfl, rfl⟩ :=
      Document.refersBy_of_mem hdeclared hname
    obtain ⟨s, hs, declared, hnames, hmerges⟩ := hd p hp raw hraw htoken
    rw [policy.apply_eq_iff.mpr hmerges]
    exact Document.exists_declared_of_mem_names hs hnames

/-- Capitals of two letters and reserved words: both references name the element, the one by
a letter whose capital it is spelled with, the other by a word that has to be avoided. -/
theorem reference_written_as_declared_capitalized :
    let f : Field := { name := some "f", type := some "mns_ßate_" }
    let g : Field := { name := some "g", type := some "tns_date" }
    let e : Element := ⟨some "SSate_", [f, g]⟩
    let t : SimpleType := { name := some "Date_", base := some "string" }
    let d : Document := ⟨[{ simpleTypes := [t], elements := [e] }]⟩
    (valueOf (f.member .capitalize "e")).type.text = (valueOf (e.declaration .capitalize)).name
      ∧ (valueOf (g.member .capitalize "e")).type.text
        = (valueOf (t.declaration .capitalize)).name
      ∧ ∀ declaration ∈ d.declared .capitalize, ∀ name ∈ declaration.references,
        ∃ other ∈ d.declared .capitalize, other.name = name := by
  intro f g e t d
  obtain ⟨hplaces, hdocuments⟩ := reference_written_as_declared .capitalize
  have hletters : NamingPolicy.capitalize.Merges "ßate_" "SSate_" := .inl (by decide)
  have hword : NamingPolicy.capitalize.Merges "date" "Date_" :=
    .inr ⟨"Date", by decide, .inl ⟨by decide, by decide⟩⟩
  have hf := (hplaces .mns (by decide) "ßate_" (by decide) "SSate_" _ (.element (e := e) rfl)).1
  have hg := (hplaces .tns (by decide) "date" (by decide) "Date_" _ (.simpleType (t := t) rfl)).1
  refine ⟨(hf "e" f rfl).mpr hletters, (hg "e" g rfl).mpr hword, hdocuments d ?_⟩
  intro p hp raw _ hmem
  have hlookups : d.lookups.filterMap afterMarker? = ["ßate_", "date"] := by decide
  have hraw : raw ∈ d.lookups.filterMap afterMarker? :=
    List.mem_filterMap.mpr ⟨_, hmem, afterMarker?_reference hp raw⟩
  rw [hlookups, List.mem_pair] at hraw
  rcases hraw with rfl | rfl
  · exact ⟨_, List.mem_singleton_self _, "SSate_", by decide, hletters⟩
  · exact ⟨_, List.mem_singleton_self _, "Date_", by decide, hword⟩

end SchemaTypings
