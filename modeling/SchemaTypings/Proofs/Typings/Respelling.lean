import SchemaTypings.Proofs.Text.Uppercase
import SchemaTypings.Proofs.Typings.Token

/-!
# Policies respell documents

A naming policy spells a name and then avoids the reserved words. The default policy only does
the second, so any policy can be split into two runs: first the document is respelled
(`Document.spelled`) – the names that it declares, and the names behind the type markers of its
tokens – and then the typings file is written with the default policy. For this to give the
same file, the policy has to reach every name that is respelled, and no other text: no field
name, no listed value, and no token that is a built-in name or that nothing is known of.

`Document.declarations_spelled` says that the two make the same declarations with the same
notes, and `Document.typings_capitalize` says it of whole typings files.
-/

namespace SchemaTypings

open KnownPrefix Schema

/-! ## Names -/

namespace NamingPolicy

/-- A policy spells no name away. -/
theorem spell_eq_empty_iff (policy : NamingPolicy) {name : String} :
    policy.spell name = "" ↔ name = "" := by
  cases policy with
  | reservedSuffix => exact Iff.rfl
  | capitalize => exact Text.capitalized_eq_empty_iff

@[simp] theorem spell_empty (policy : NamingPolicy) : policy.spell "" = "" :=
  policy.spell_eq_empty_iff.mpr rfl

/-- The default policy makes of a spelled name what the policy makes of the name. -/
theorem apply_spell (policy : NamingPolicy) (name : String) :
    reservedSuffix.apply (policy.spell name) = policy.apply name := rfl

/-- A declaration without a name has the same placeholder under every policy. -/
theorem declare_spell (policy : NamingPolicy) (raw : Option String) :
    reservedSuffix.declare (raw.map policy.spell) = policy.declare raw := by
  cases raw with
  | some name => exact policy.apply_spell name
  | none =>
    show reservedSuffix.apply "" = policy.apply ""
    rw [← policy.apply_spell, spell_empty]

end NamingPolicy

/-! ## Tokens -/

namespace KnownPrefix

/-- The type marker that a token carries, and the name behind it. -/
def marked? (token : String) : Option (KnownPrefix × String) :=
  typeMarkers.findSome? fun p =>
    (p.marker.isPrefixOf? token.toList).map fun rest => (p, String.ofList rest)

/-- A token carries the marker of a reference, and no other token carries one. -/
theorem marked?_eq_some_iff {token : String} {p : KnownPrefix} {name : String} :
    marked? token = some (p, name) ↔ p ∈ typeMarkers ∧ token = p.reference name := by
  constructor
  · intro h
    obtain ⟨q, hq, hfound⟩ := List.exists_of_findSome?_eq_some h
    obtain ⟨rest, hrest, heq⟩ := Option.map_eq_some_iff.mp hfound
    obtain ⟨rfl, rfl⟩ := Prod.mk.inj heq
    refine ⟨hq, String.toList_inj.mp ?_⟩
    rw [reference, String.toList_ofList, String.toList_ofList]
    exact eq_append_of_isPrefixOf? hrest
  · rintro ⟨hp, rfl⟩
    rw [marked?, reference, String.toList_ofList,
      findSome?_marker_append (fun q rest => (q, String.ofList rest)) hp, String.ofList_toList]

end KnownPrefix

namespace NamingPolicy

variable (policy : NamingPolicy)

/-- **A token with the name behind its marker spelled**; a token without a marker is kept. -/
def spellToken (token : String) : String :=
  match marked? token with
  | some (p, name) => p.reference (policy.spell name)
  | none => token

theorem spellToken_reference {p : KnownPrefix} (hp : p ∈ typeMarkers) (name : String) :
    policy.spellToken (p.reference name) = p.reference (policy.spell name) := by
  rw [spellToken, marked?_eq_some_iff.mpr ⟨hp, rfl⟩]

example : capitalize.spellToken "mns_ßate" = "mns_SSate" := by decide

/-- **A token that refers to no name is kept.** -/
theorem spellToken_of_forall_ne {token : String}
    (h : ∀ p ∈ typeMarkers, ∀ name, name ≠ "" → token ≠ p.reference name) :
    policy.spellToken token = token := by
  cases hmarked : marked? token with
  | none => rw [spellToken, hmarked]
  | some found =>
    obtain ⟨p, name⟩ := found
    obtain ⟨hp, rfl⟩ := marked?_eq_some_iff.mp hmarked
    have hname : name = "" := Decidable.not_not.mp fun hne => h p hp name hne rfl
    rw [spellToken_reference policy hp, hname, spell_empty]

theorem spellToken_of_builtin? {token : String} {t : TypeExpr}
    (h : TypeExpr.builtin? token = some t) : policy.spellToken token = token := by
  refine policy.spellToken_of_forall_ne fun p hp name _ heq => ?_
  rw [heq, TypeExpr.builtin?_reference hp] at h
  cases h

theorem spellToken_of_unknown {token : String} (h : TypeExpr.Unknown token) :
    policy.spellToken token = token :=
  policy.spellToken_of_forall_ne fun _ hp _ hname heq =>
    TypeExpr.not_unknown_reference hp hname (heq ▸ h)

/-- **Spelling makes no built-in name** of a token that was none. -/
theorem spellToken_eq_iff_of_builtin? {token builtin : String} {t : TypeExpr}
    (h : TypeExpr.builtin? builtin = some t) :
    policy.spellToken token = builtin ↔ token = builtin := by
  rcases TypeExpr.token_cases token with ⟨_, htoken⟩ | ⟨p, hp, name, -, rfl⟩ | hunknown
  · rw [policy.spellToken_of_builtin? htoken]
  · have hne : ∀ name, p.reference name ≠ builtin := by
      rintro name rfl
      rw [TypeExpr.builtin?_reference hp] at h
      cases h
    rw [policy.spellToken_reference hp]
    exact iff_of_false (hne _) (hne _)
  · rw [policy.spellToken_of_unknown hunknown]

end NamingPolicy

namespace TypeExpr

variable (policy : NamingPolicy)

/-- **The type of a token** is that of the spelled token under the default policy, and the same
is noted of both. -/
theorem ofToken_spellToken (token : String) :
    ofToken .reservedSuffix (policy.spellToken token) = ofToken policy token := by
  rcases token_cases token with ⟨t, ht⟩ | ⟨p, hp, name, hname, rfl⟩ | hunknown
  · rw [policy.spellToken_of_builtin? ht, ofToken_of_builtin? _ ht, ofToken_of_builtin? _ ht]
  · have hspelled : policy.spell name ≠ "" := mt policy.spell_eq_empty_iff.mp hname
    rw [policy.spellToken_reference hp, ofToken_reference _ hp hspelled,
      ofToken_reference _ hp hname, policy.apply_spell]
  · rw [policy.spellToken_of_unknown hunknown, ofToken_of_unknown _ hunknown,
      ofToken_of_unknown _ hunknown]

/-- **The parent of a record** is that of the spelled base under the default policy, and the
same is noted of both. -/
theorem baseName_spellToken (base : Option String) :
    baseName .reservedSuffix (base.map policy.spellToken) = baseName policy base := by
  cases base with
  | none => rfl
  | some token =>
    rw [Option.map_some]
    rcases token_cases token with ⟨t, ht⟩ | ⟨p, hp, name, hname, rfl⟩ | hunknown
    · have hne : token ≠ "" := by
        rintro rfl
        cases ht
      rw [policy.spellToken_of_builtin? ht, baseName_of_builtin? _ ht hne,
        baseName_of_builtin? _ ht hne]
    · have hspelled : policy.spell name ≠ "" := mt policy.spell_eq_empty_iff.mp hname
      rw [policy.spellToken_reference hp, baseName_reference _ hp hspelled,
        baseName_reference _ hp hname, policy.apply_spell]
    · -- the empty base is unknown as a token, but it is not looked up
      rw [policy.spellToken_of_unknown hunknown]
      by_cases hempty : token = ""
      · subst hempty
        rfl
      · rw [baseName_of_unknown _ hunknown hempty, baseName_of_unknown _ hunknown hempty]

end TypeExpr

namespace Schema

/-! ## Documents -/

/-- A field with its type token spelled; its name is kept. -/
def Field.spelled (policy : NamingPolicy) (f : Field) : Field :=
  { f with type := f.type.map policy.spellToken }

/-- A simple type with its name and the token of its base spelled; listed values are kept. -/
def SimpleType.spelled (policy : NamingPolicy) (t : SimpleType) : SimpleType :=
  { t with name := t.name.map policy.spell, base := t.base.map policy.spellToken }

/-- A shape with the token of its base and those of its fields spelled. -/
def Shape.spelled (policy : NamingPolicy) : Shape → Shape
  | .sequence fields => .sequence (fields.map (Field.spelled policy))
  | .content base fields =>
    .content (base.map policy.spellToken) (fields.map (Field.spelled policy))

/-- A complex type with its name and the tokens of its shape spelled. -/
def ComplexType.spelled (policy : NamingPolicy) (t : ComplexType) : ComplexType :=
  ⟨t.name.map policy.spell, t.shape.spelled policy⟩

/-- An element with its name and the tokens of its fields spelled. -/
def Element.spelled (policy : NamingPolicy) (e : Element) : Element :=
  ⟨e.name.map policy.spell, e.fields.map (Field.spelled policy)⟩

/-- A section with all that it declares spelled. -/
def Section.spelled (policy : NamingPolicy) (s : Section) : Section :=
  ⟨s.simpleTypes.map (SimpleType.spelled policy), s.complexTypes.map (ComplexType.spelled policy),
    s.elements.map (Element.spelled policy)⟩

/-- **A document spelled by a policy**: the names of its declarations are spelled, and so are
the names behind the type markers of its tokens. -/
def Document.spelled (policy : NamingPolicy) (d : Document) : Document :=
  ⟨d.sections.map (Section.spelled policy)⟩

/-! ## Declarations -/

/-- Two walks are the same if each step of one is the step of the other on a spelled item. -/
theorem mapM_map_of_forall {α β γ : Type} {spell : α → β} {step : β → StateM Diagnostics γ}
    {step' : α → StateM Diagnostics γ} (h : ∀ a, step (spell a) = step' a) (l : List α) :
    (l.map spell).mapM step = l.mapM step' := by
  rw [List.mapM_map]
  exact congrArg (l.mapM ·) (funext h)

variable (policy : NamingPolicy)

theorem Field.typeExpr_spelled (owner : String) (f : Field) :
    (f.spelled policy).typeExpr .reservedSuffix owner = f.typeExpr policy owner := by
  obtain ⟨name, type⟩ := f
  cases type with
  | none => rfl
  | some token => exact TypeExpr.ofToken_spellToken policy token

/-- **A field becomes the same member.** -/
theorem Field.member_spelled (owner : String) (f : Field) :
    (f.spelled policy).member .reservedSuffix owner = f.member policy owner := by
  unfold Field.member
  rw [f.typeExpr_spelled policy owner]
  rfl

/-- The fields of a record become the same members. -/
theorem Field.mapM_member_spelled (owner : String) (fields : List Field) :
    (fields.map (Field.spelled policy)).mapM (Field.member .reservedSuffix owner)
      = fields.mapM (Field.member policy owner) :=
  mapM_map_of_forall (Field.member_spelled policy owner) fields

/-- **A simple type stands for the same.** The spelled base names texts exactly if the base
does. -/
theorem SimpleType.body_spelled (t : SimpleType) :
    (t.spelled policy).body .reservedSuffix = t.body policy := by
  obtain ⟨name, base, enumerations⟩ := t
  cases base with
  | none => rfl
  | some base =>
    have hstring : policy.spellToken base = "string" ↔ base = "string" :=
      policy.spellToken_eq_iff_of_builtin? (t := .string) rfl
    show (if policy.spellToken base = "string" then _ else
      AliasBody.scalar <$> TypeExpr.ofToken .reservedSuffix (policy.spellToken base)) = _
    rw [TypeExpr.ofToken_spellToken]
    exact if_congr hstring rfl rfl

/-- A simple type becomes the same alias. -/
theorem SimpleType.declaration_spelled (t : SimpleType) :
    (t.spelled policy).declaration .reservedSuffix = t.declaration policy := by
  unfold SimpleType.declaration
  rw [t.body_spelled policy]
  exact congrArg (fun name => Declaration.typeAlias name <$> t.body policy)
    (policy.declare_spell t.name)

theorem Shape.parent_spelled (shape : Shape) :
    (shape.spelled policy).parent .reservedSuffix = shape.parent policy := by
  cases shape with
  | sequence fields => rfl
  | content base fields => exact TypeExpr.baseName_spellToken policy base

theorem Shape.fields_spelled (shape : Shape) :
    (shape.spelled policy).fields = shape.fields.map (Field.spelled policy) := by
  cases shape with
  | sequence fields => rfl
  | content base fields => rfl

/-- A complex type becomes the same interface. -/
theorem ComplexType.declaration_spelled (t : ComplexType) :
    (t.spelled policy).declaration .reservedSuffix = t.declaration policy := by
  have hname : NamingPolicy.reservedSuffix.declare (t.spelled policy).name
      = policy.declare t.name := policy.declare_spell t.name
  unfold ComplexType.declaration
  rw [hname, ComplexType.spelled, t.shape.parent_spelled policy, t.shape.fields_spelled policy]
  simp only [Field.mapM_member_spelled]

/-- An element becomes the same interface. -/
theorem Element.declaration_spelled (e : Element) :
    (e.spelled policy).declaration .reservedSuffix = e.declaration policy := by
  have hname : NamingPolicy.reservedSuffix.declare (e.spelled policy).name
      = policy.declare e.name := policy.declare_spell e.name
  unfold Element.declaration
  rw [hname, Element.spelled]
  simp only [Field.mapM_member_spelled]

/-- A section makes the same declarations. -/
theorem Section.declarations_spelled (s : Section) :
    (s.spelled policy).declarations .reservedSuffix = s.declarations policy := by
  unfold Section.declarations Section.spelled
  rw [mapM_map_of_forall (SimpleType.declaration_spelled policy),
    mapM_map_of_forall (ComplexType.declaration_spelled policy),
    mapM_map_of_forall (Element.declaration_spelled policy)]

/-- **Every policy makes the declarations that the default policy makes of the spelled
document**, and notes the same. -/
theorem Document.declarations_spelled (d : Document) :
    (d.spelled policy).declarations .reservedSuffix = d.declarations policy := by
  unfold Document.declarations Document.spelled
  rw [mapM_map_of_forall (Section.declarations_spelled policy)]

theorem Section.declarationCount_spelled (s : Section) :
    (s.spelled policy).declarationCount = s.declarationCount := by
  simp only [Section.declarationCount, Section.spelled, List.length_map]

theorem Document.declarationCount_spelled (d : Document) :
    (d.spelled policy).declarationCount = d.declarationCount := by
  simp only [Document.declarationCount, Document.spelled, List.foldr_map,
    Section.declarationCount_spelled]

/-- **Capitalizing is the default on a capitalized document.** With all other options alike, the
typings file that the capitalizing policy writes for a document is the one that the default
policy writes for the document with its declared names and the names of its references
capitalized: the same text, as many declarations, and the same notes in the same order, the
owners of faulty fields and the tokens nothing is known of included. -/
theorem Document.typings_capitalize (d : Document) (options : OutputOptions) :
    d.typings { options with naming := .capitalize }
      = (d.spelled .capitalize).typings { options with naming := .reservedSuffix } := by
  unfold Document.typings
  rw [Document.declarations_spelled, Document.declarationCount_spelled]

end Schema

end SchemaTypings
