import Mathlib.Data.List.Forall2
import SchemaTypings.Proofs.Naming.Policy
import SchemaTypings.Proofs.Typings.Accounting
import SchemaTypings.Proofs.Typings.Spelling

/-!
# Placeholders and the notes of them

A declaration file says `any` for two reasons: the schema asks for it, by the token `anyType`,
or nothing better is known. In the second case `any` is a placeholder, as the empty name of a
member is, and a reader who looks at the notes should be able to tell.

`Document.placeholders_noted` goes through the text of a file and says of every `any` and of
every empty name where it comes from. Each member accounts for itself: its placeholders are in
the notes, so a file without notes has none. An alias does so only if it has a base. A simple
type without one – a list or a union – becomes `any` and leaves no note
(`Document.unnoted_placeholder`).
-/

namespace SchemaTypings

open Schema

/-! ## Where `any` is written -/

/-- **The type of a token is written `any`** if the token asks for it or nothing is known of the
token, and in no other case: no declared type is named so. -/
theorem TypeExpr.text_ofToken_eq_any_iff (policy : NamingPolicy) (token : String) :
    (valueOf (ofToken policy token)).text = "any" ↔ token = "anyType" ∨ Unknown token := by
  rcases token_cases token with ⟨t, ht⟩ | ⟨p, hp, name, hname, rfl⟩ | hunknown
  · have hentries : ∀ entry ∈ builtins, (entry.2.text = "any" ↔ entry.1 = "anyType") := by decide
    rw [ofToken_of_builtin? policy ht, valueOf_pure, or_iff_left (not_unknown_of_builtin? ht)]
    exact hentries _ (mem_builtins_of_builtin? ht)
  · rw [ofToken_reference policy hp hname, valueOf_pure]
    have hknown := not_unknown_reference hp hname
    refine iff_of_false (fun hany => ?_) (not_or.mpr ⟨fun hany => ?_, hknown⟩)
    · -- `any` is a reserved word, and no policy makes one of a name
      have hfree := policy.isReserved_apply name
      change policy.apply name = "any" at hany
      rw [hany] at hfree
      exact absurd hfree (by decide)
    · have hnone := builtin?_reference hp name
      rw [hany] at hnone
      cases hnone
  · rw [ofToken_of_unknown policy hunknown]
    exact iff_of_true rfl (.inr hunknown)

/-- A union of literals begins with a quote, so it is not written `any`. -/
theorem AliasBody.text_literals_ne_any {values : List String} (h : values ≠ []) :
    (AliasBody.literals values).text ≠ "any" := by
  intro hany
  obtain ⟨value, values, rfl⟩ := List.exists_cons_of_ne_nil h
  have hchars := toList_text_literals value values
  rw [hany, Naming.toList_quote] at hchars
  exact absurd (List.cons_eq_cons.mp hchars).1 (by decide)

namespace Schema

/-- **An alias is written `any`** if the simple type has no base, or if the type of its base is
written so. -/
theorem SimpleType.text_body_eq_any_iff (policy : NamingPolicy) (t : SimpleType) :
    (valueOf (t.body policy)).text = "any"
      ↔ t.base = none
        ∨ ∃ token, t.base = some token ∧ (token = "anyType" ∨ TypeExpr.Unknown token) := by
  unfold SimpleType.body
  cases t.base with
  | none => exact iff_of_true rfl (.inl rfl)
  | some base =>
    have hbase : (some base = none
        ∨ ∃ token, some base = some token ∧ (token = "anyType" ∨ TypeExpr.Unknown token))
          ↔ base = "anyType" ∨ TypeExpr.Unknown base := by
      simp
    rw [hbase]
    by_cases hstring : base = "string"
    · subst hstring
      refine iff_of_false ?_ (by decide)
      simp only [if_true, valueOf_pure]
      split
      · decide
      · rename_i hvalues
        exact AliasBody.text_literals_ne_any fun hnil => hvalues (List.isEmpty_iff.mpr hnil)
    · simp only [if_neg hstring]
      exact TypeExpr.text_ofToken_eq_any_iff policy base

/-! ## Sources -/

/-- **What a declaration is made of.** -/
inductive Source where
  /-- A simple type becomes an alias. -/
  | simpleType (t : SimpleType)
  /-- A complex type becomes an interface. -/
  | complexType (t : ComplexType)
  /-- An element becomes an interface. -/
  | element (e : Element)
deriving DecidableEq, Repr

namespace Source

/-- What a source declares. -/
def declaration (policy : NamingPolicy) : Source → StateM Diagnostics Declaration
  | .simpleType t => t.declaration policy
  | .complexType t => t.declaration policy
  | .element e => e.declaration policy

/-- What the fields of a source lack. -/
def gaps (policy : NamingPolicy) : Source → List FieldFault
  | .simpleType _ => []
  | .complexType t => t.gaps policy
  | .element e => e.gaps policy

/-- The tokens that a source looks up. -/
def lookups : Source → List String
  | .simpleType t => t.lookups
  | .complexType t => t.lookups
  | .element e => e.lookups

end Source

/-- **A declaration corresponds to its source**: an alias to a simple type, an interface to a
complex type or an element, with a member for each field. What an alias stands for and what a
member holds is compared as the two relations say; that of members knows whose they are. -/
inductive Source.Corresponds (ofAlias : SimpleType → AliasBody → Prop)
    (ofMember : String → Field → Member → Prop) : Source → Declaration → Prop where
  /-- An alias. -/
  | simpleType {t : SimpleType} {name : String} {body : AliasBody} (h : ofAlias t body) :
      Corresponds ofAlias ofMember (.simpleType t) (.typeAlias name body)
  /-- The interface of a complex type. -/
  | complexType {t : ComplexType} {name : String} {parent : Option String} {members : List Member}
      (h : List.Forall₂ (ofMember name) t.shape.fields members) :
      Corresponds ofAlias ofMember (.complexType t) (.interface name parent members)
  /-- The interface of an element. -/
  | element {e : Element} {name : String} {members : List Member}
      (h : List.Forall₂ (ofMember name) e.fields members) :
      Corresponds ofAlias ofMember (.element e) (.interface name none members)

/-- A correspondence can be weakened alias by alias and member by member. -/
theorem Source.Corresponds.imp {ofAlias ofAlias' : SimpleType → AliasBody → Prop}
    {ofMember ofMember' : String → Field → Member → Prop} {source : Source}
    {declaration : Declaration} (h : source.Corresponds ofAlias ofMember declaration)
    (halias : ∀ t body, ofAlias t body → ofAlias' t body)
    (hmember : ∀ owner f m, ofMember owner f m → ofMember' owner f m) :
    source.Corresponds ofAlias' ofMember' declaration := by
  cases h with
  | simpleType h => exact .simpleType (halias _ _ h)
  | complexType h => exact .complexType (h.imp (hmember _))
  | element h => exact .element (h.imp (hmember _))

/-- The sources of a section: simple types, complex types, elements. -/
def Section.sources (s : Section) : List Source :=
  s.simpleTypes.map .simpleType ++ s.complexTypes.map .complexType ++ s.elements.map .element

/-- **The sources of a document**, in the order of its declarations. -/
def Document.sources (d : Document) : List Source :=
  d.sections.flatMap Section.sources

/-- **A document declares what its sources declare**, one declaration for each. -/
theorem Document.declared_eq_map_sources (policy : NamingPolicy) (d : Document) :
    d.declared policy = d.sources.map fun source => valueOf (source.declaration policy) := by
  simp only [declared_eq, sources, Section.sources, Section.valueOf_declarations,
    List.map_flatMap, List.map_append, List.map_map, Function.comp_def, Source.declaration]

/-- What the fields of a document lack is what those of its sources lack. -/
theorem Document.gaps_eq_flatMap_sources (policy : NamingPolicy) (d : Document) :
    d.gaps policy = d.sources.flatMap (Source.gaps policy) := by
  have hnone : ∀ l : List SimpleType, (l.flatMap fun _ => ([] : List FieldFault)) = [] :=
    fun l => List.flatMap_eq_nil_iff.mpr fun _ _ => rfl
  simp only [gaps, sources, Section.sources, List.flatMap_assoc, List.flatMap_append,
    List.flatMap_map, Source.gaps, hnone, List.nil_append]
  rfl

/-- The tokens that a document looks up are those that its sources look up. -/
theorem Document.lookups_eq_flatMap_sources (d : Document) :
    d.lookups = d.sources.flatMap Source.lookups := by
  simp only [lookups, sources, Section.sources, List.flatMap_assoc, List.flatMap_append,
    List.flatMap_map, Source.lookups, List.append_assoc]
  rfl

end Schema

/-! ## Notes that cover a stretch -/

/-- **Notes cover a stretch of a document** if what its fields lack is among them, and of the
tokens it looks up exactly those that nothing is known of. -/
structure Diagnostics.Covers (notes : Diagnostics) (gaps : List FieldFault)
    (lookups : List String) : Prop where
  /-- What is lacking is noted. -/
  faults : ∀ gap ∈ gaps, gap ∈ notes.faults
  /-- What nothing is known of is noted, and only that. -/
  fallbacks : ∀ token ∈ lookups, token ∈ notes.fallbacks ↔ TypeExpr.Unknown token

/-- The notes of a stretch cover it. -/
theorem Diagnostics.covers_ofStretch (gaps : List FieldFault) (lookups : List String) :
    (ofStretch gaps lookups).Covers gaps lookups := by
  refine ⟨fun gap hgap => hgap, fun token htoken => ?_⟩
  show token ∈ TypeExpr.unknownAmong lookups ↔ _
  rw [TypeExpr.unknownAmong, List.mem_filter, decide_eq_true_iff, and_iff_right htoken]

/-- Notes that cover a stretch cover each part of it. -/
theorem Diagnostics.Covers.mono {notes : Diagnostics} {gaps gaps' : List FieldFault}
    {lookups lookups' : List String} (h : notes.Covers gaps lookups) (hgaps : gaps' ⊆ gaps)
    (hlookups : lookups' ⊆ lookups) : notes.Covers gaps' lookups' :=
  ⟨fun gap hgap => h.faults gap (hgaps hgap),
    fun token htoken => h.fallbacks token (hlookups htoken)⟩

/-- Notes that cover what a list of items lacks and looks up cover each item. -/
theorem Diagnostics.Covers.of_mem {α : Type} {notes : Diagnostics} {gaps : α → List FieldFault}
    {lookups : α → List String} {l : List α}
    (h : notes.Covers (l.flatMap gaps) (l.flatMap lookups)) {a : α} (ha : a ∈ l) :
    notes.Covers (gaps a) (lookups a) :=
  h.mono (fun _ hgap => List.mem_flatMap.mpr ⟨a, ha, hgap⟩)
    (fun _ htoken => List.mem_flatMap.mpr ⟨a, ha, htoken⟩)

namespace Schema

/-- **The notes of a document cover each of its sources.** -/
theorem Document.covers_typings (d : Document) (options : OutputOptions) {source : Source}
    (h : source ∈ d.sources) :
    (d.typings options).diagnostics.Covers (source.gaps options.naming) source.lookups := by
  have hnotes : (d.typings options).diagnostics
      = .ofStretch (d.gaps options.naming) d.lookups := d.notesOf_declarations options.naming
  have hcovers := Diagnostics.covers_ofStretch (d.gaps options.naming) d.lookups
  rw [gaps_eq_flatMap_sources, lookups_eq_flatMap_sources] at hcovers
  rw [hnotes, gaps_eq_flatMap_sources, lookups_eq_flatMap_sources]
  exact hcovers.of_mem h

/-! ## Placeholders that are noted -/

/-- **The placeholders of a member are noted**: its name is empty exactly if the field goes by
no name and this is noted; its type is written `any` exactly if the token of the field asks for
it, is noted as unknown, or is missing, which then is noted. -/
structure Field.Noted (notes : Diagnostics) (owner : String) (f : Field) (m : Member) : Prop where
  /-- Where an empty name comes from. -/
  name : m.name = "" ↔ f.givenName = none ∧ ⟨owner, none, .name⟩ ∈ notes.faults
  /-- Where `any` comes from. -/
  type : m.type.text = "any" ↔ f.type = some "anyType"
    ∨ (∃ token ∈ notes.fallbacks, f.type = some token)
    ∨ (f.type = none ∧ ⟨owner, f.givenName, .type⟩ ∈ notes.faults)

/-- **The placeholder of an alias is noted, but for one**: it is written `any` exactly if the
token of its base asks for it, is noted as unknown, or is missing – which nothing notes. -/
def SimpleType.Noted (notes : Diagnostics) (t : SimpleType) (body : AliasBody) : Prop :=
  body.text = "any" ↔ t.base = some "anyType"
    ∨ (∃ token ∈ notes.fallbacks, t.base = some token) ∨ t.base = none

variable {notes : Diagnostics} {policy : NamingPolicy}

theorem Field.givenName_eq_none_iff (f : Field) :
    f.givenName = none ↔ f.name = none ∨ f.name = some "" := by
  rw [Field.givenName, Option.filter_eq_none_iff]
  cases f.name with
  | none => simp
  | some name => simp

/-- A member has no name if its field goes by none. -/
theorem Field.name_member_eq_empty_iff (owner : String) (f : Field) :
    (valueOf (f.member policy owner)).name = "" ↔ f.givenName = none := by
  rw [Field.valueOf_member]
  show f.givenName.getD "" = "" ↔ _
  constructor
  · intro hempty
    by_contra hgiven
    obtain ⟨name, hname⟩ := Option.ne_none_iff_exists'.mp hgiven
    have hne : name ≠ "" := of_decide_eq_true (Option.filter_eq_some_iff.mp hname).2
    rw [hname] at hempty
    exact hne hempty
  · intro hnone
    rw [hnone]
    rfl

/-- **Notes that cover a field note the placeholders of its member.** -/
theorem Field.noted_of_covers {owner : String} {f : Field}
    (h : notes.Covers (f.gaps owner) f.lookups) :
    f.Noted notes owner (valueOf (f.member policy owner)) := by
  constructor
  · rw [Field.name_member_eq_empty_iff, iff_self_and]
    intro hnone
    refine h.faults _ (List.mem_append_left _ ?_)
    rw [if_pos (f.givenName_eq_none_iff.mp hnone)]
    exact List.mem_singleton_self _
  · rw [Field.valueOf_member]
    show (valueOf (f.typeExpr policy owner)).text = "any" ↔ _
    unfold Field.typeExpr
    cases htype : f.type with
    | none =>
      have hgap : (⟨owner, f.givenName, .type⟩ : FieldFault) ∈ f.gaps owner := by
        refine List.mem_append_right _ ?_
        rw [if_pos htype]
        exact List.mem_singleton_self _
      exact iff_of_true rfl (.inr (.inr ⟨rfl, h.faults _ hgap⟩))
    | some token =>
      have hlookup : token ∈ f.lookups := by
        rw [Field.lookups, htype]
        exact List.mem_singleton_self token
      have hnoted := h.fallbacks token hlookup
      refine (TypeExpr.text_ofToken_eq_any_iff policy token).trans ?_
      rw [← hnoted]
      simp

/-- **Notes that cover a simple type note the placeholder of its alias**, if it has a base. -/
theorem SimpleType.noted_of_covers {t : SimpleType} (h : notes.Covers [] t.lookups) :
    t.Noted notes (valueOf (t.body policy)) := by
  refine (t.text_body_eq_any_iff policy).trans ?_
  cases hbase : t.base with
  | none => exact iff_of_true (.inl rfl) (.inr (.inr rfl))
  | some base =>
    have hlookup : base ∈ t.lookups := by
      rw [SimpleType.lookups, hbase]
      exact List.mem_singleton_self base
    have hnoted := h.fallbacks base hlookup
    simp [hnoted]

/-- Notes that cover all fields of a record note the placeholders of all members. -/
theorem Field.forall₂_noted_of_covers {owner : String} {fields : List Field}
    (h : notes.Covers (fields.flatMap (Field.gaps owner)) (fields.flatMap Field.lookups)) :
    List.Forall₂ (Field.Noted notes owner) fields
      (fields.map fun f => valueOf (f.member policy owner)) := by
  rw [List.forall₂_map_right_iff, List.forall₂_same]
  exact fun f hf => Field.noted_of_covers (h.of_mem hf)

/-- **Notes that cover a source note the placeholders of its declaration.** -/
theorem Source.noted_of_covers {source : Source}
    (h : notes.Covers (source.gaps policy) source.lookups) :
    source.Corresponds (SimpleType.Noted notes) (Field.Noted notes)
      (valueOf (source.declaration policy)) := by
  cases source with
  | simpleType t => exact .simpleType (SimpleType.noted_of_covers h)
  | complexType t =>
    have hfields := h.mono (List.Subset.refl _) (List.subset_append_right _ _)
    rw [declaration, ComplexType.valueOf_declaration]
    exact .complexType (Field.forall₂_noted_of_covers hfields)
  | element e =>
    rw [declaration, Element.valueOf_declaration]
    exact .element (Field.forall₂_noted_of_covers h)

/-! ## Files without notes -/

/-- **A member without placeholders**: it has a name, and its type is written `any` exactly if
the token of the field asks for it. -/
def Field.Plain (f : Field) (m : Member) : Prop :=
  m.name ≠ "" ∧ (m.type.text = "any" ↔ f.type = some "anyType")

/-- **An alias without a placeholder**, but for that of a simple type without a base: it is
written `any` exactly if the token of the base asks for it, or is missing. -/
def SimpleType.Plain (t : SimpleType) (body : AliasBody) : Prop :=
  body.text = "any" ↔ t.base = some "anyType" ∨ t.base = none

/-- A member whose placeholders are noted has none if there are no notes. -/
theorem Field.Noted.plain {owner : String} {f : Field} {m : Member} (h : f.Noted {} owner m) :
    f.Plain m := by
  obtain ⟨hname, htype⟩ := h
  exact ⟨fun hempty => List.not_mem_nil (hname.mp hempty).2, by simpa using htype⟩

/-- An alias whose placeholder is noted has none if there are no notes. -/
theorem SimpleType.Noted.plain {t : SimpleType} {body : AliasBody} (h : t.Noted {} body) :
    t.Plain body := by
  simpa [SimpleType.Noted, SimpleType.Plain] using h

/-- **Every placeholder of a file is noted, but for the aliases of simple types without a
base.** The declarations that a file spells stand for the sources of its document, one for each;
in each of them, `any` and empty names come from what the notes tell of, from the token
`anyType`, or from a base that a simple type lacks. So if nothing was noted, every member has a
name, and every `any` was asked for, but in those aliases. -/
theorem Document.placeholders_noted (d : Document) (options : OutputOptions) :
    ∃ declarations : List Declaration,
      (d.typings options).text
          = (if options.header then lintDirectives else "")
            ++ declarationsText options.indent declarations
        ∧ List.Forall₂
          (Source.Corresponds (SimpleType.Noted (d.typings options).diagnostics)
            (Field.Noted (d.typings options).diagnostics)) d.sources declarations
        ∧ ((d.typings options).diagnostics.isClean = true →
          List.Forall₂ (Source.Corresponds SimpleType.Plain fun _ => Field.Plain) d.sources
            declarations) := by
  have hnoted : List.Forall₂
      (Source.Corresponds (SimpleType.Noted (d.typings options).diagnostics)
        (Field.Noted (d.typings options).diagnostics)) d.sources (d.declared options.naming) := by
    rw [Document.declared_eq_map_sources, List.forall₂_map_right_iff, List.forall₂_same]
    exact fun source hsource => Source.noted_of_covers (d.covers_typings options hsource)
  refine ⟨d.declared options.naming, d.text_typings options, hnoted, fun hclean => ?_⟩
  obtain ⟨hfaults, hfallbacks⟩ := (Diagnostics.isClean_iff _).mp hclean
  -- without notes, what is noted is nothing
  have hempty : (d.typings options).diagnostics = {} := Diagnostics.ext hfaults hfallbacks
  rw [hempty] at hnoted
  exact hnoted.imp fun _ _ h => h.imp (fun _ _ h => h.plain) (fun _ _ _ h => h.plain)

/-- Both kinds of `any` that leave no note: one that a token asks for, in an alias and in a
member, and one that stands for a base. -/
theorem Document.placeholders_noted_anyType :
    let any : SimpleType := { name := some "Anything", base := some "anyType" }
    let ids : SimpleType := { name := some "Ids" }
    let e : Element := ⟨some "Request", [{ name := some "body", type := some "anyType" }]⟩
    let d : Document := ⟨[{ simpleTypes := [any, ids], elements := [e] }]⟩
    (d.typings { header := false }).diagnostics.isClean = true
      ∧ ∃ declarations : List Declaration,
        (d.typings { header := false }).text = "" ++ declarationsText "\t" declarations
          ∧ List.Forall₂ (Source.Corresponds SimpleType.Plain fun _ => Field.Plain)
            [.simpleType any, .simpleType ids, .element e] declarations := by
  intro any ids e d
  have hclean : (d.typings { header := false }).diagnostics.isClean = true := by decide
  obtain ⟨declarations, htext, -, hplain⟩ := d.placeholders_noted { header := false }
  exact ⟨hclean, declarations, htext, hplain hclean⟩

/-- **An alias of a type without a base is a placeholder that nothing notes**: no token of the
document asks for `any`, and its file is written without a note. -/
theorem Document.unnoted_placeholder :
    let d : Document := ⟨[{ simpleTypes := [{ name := some "Ids" }] }]⟩
    (d.typings { header := false }).text = "export type Ids = any;\n\n"
      ∧ d.lookups = [] ∧ (d.typings { header := false }).diagnostics.isClean = true := by
  decide

end Schema

end SchemaTypings
