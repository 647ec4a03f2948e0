import SchemaTypings.Proofs.Naming.Policy
import SchemaTypings.Proofs.Typings.Noting
import SchemaTypings.Proofs.Typings.Spelling

/-!
# Files that say what they declare

Two schema documents may differ in much that is never written: a field without a type and a
field of type `anyType`, an absent name and an empty one, a token nothing is known of. What is
written determines what is declared (`Document.declared_eq_of_text_eq`), as long as types are
named by identifiers, in the documents and in the tokens that refer to them.
-/

namespace SchemaTypings

open Naming

/-- **A marked token refers by an identifier**, or by nothing at all; other tokens are free. -/
def ClearToken (token : String) : Prop :=
  ∀ rest, KnownPrefix.afterMarker? token = some rest → rest = "" ∨ isIdentifier rest = true

namespace Schema

/-! ## Names and tokens of a document -/

/-- The type tokens of a field. -/
def Field.tokens (f : Field) : List String :=
  f.type.toList

/-- The type tokens of a shape: the base, if there is one, and those of the fields. -/
def Shape.tokens : Shape → List String
  | .sequence fields => fields.flatMap Field.tokens
  | .content base fields => base.toList ++ fields.flatMap Field.tokens

/-- The type tokens of a section. -/
def Section.tokens (s : Section) : List String :=
  s.simpleTypes.flatMap (fun t => t.base.toList)
    ++ (s.complexTypes.flatMap (fun t => t.shape.tokens)
      ++ s.elements.flatMap (fun e => e.fields.flatMap Field.tokens))

/-- The raw names of the declarations of a section, each of which may be absent. -/
def Section.names (s : Section) : List (Option String) :=
  s.simpleTypes.map (·.name) ++ (s.complexTypes.map (·.name) ++ s.elements.map (·.name))

/-- **A document whose types are named by identifiers**, where they are declared and where they
are referred to. -/
structure Document.ClearNames (d : Document) : Prop where
  /-- Every declaration has a name, which is an identifier. -/
  names : ∀ s ∈ d.sections, ∀ name ∈ s.names, ∃ n, name = some n ∧ isIdentifier n = true
  /-- Every token that refers to a declaration refers to an identifier. -/
  tokens : ∀ s ∈ d.sections, ∀ token ∈ s.tokens, ClearToken token

end Schema

/-! ## What is declared is clear -/

/-- Built-in types have no names of their own. -/
theorem TypeExpr.clear_of_builtin? {token : String} {t : TypeExpr}
    (h : builtin? token = some t) : t.Clear := by
  have hall : ∀ p ∈ builtins, p.2.Clear := by simp [builtins, Clear]
  exact hall _ (mem_builtins_of_builtin? h)

/-- The name that a policy gives to an identifier is one, and is not reserved. -/
theorem NamingPolicy.clear_named_apply (policy : NamingPolicy) {raw : String}
    (h : isIdentifier raw = true) : (TypeExpr.named (policy.apply raw)).Clear :=
  ⟨policy.isIdentifier_apply h, policy.isReserved_apply raw⟩

/-- The type that a clear token names has a clear name. -/
theorem TypeExpr.clear_ofToken (policy : NamingPolicy) {token : String} (h : ClearToken token) :
    (valueOf (ofToken policy token)).Clear := by
  unfold ofToken
  split
  · rename_i t hbuiltin
    exact clear_of_builtin? hbuiltin
  · split
    · rename_i name hname
      obtain ⟨hmarked, hne⟩ := Option.filter_eq_some_iff.mp hname
      exact policy.clear_named_apply ((h name hmarked).resolve_left (of_decide_eq_true hne))
    · trivial

/-- The name that a record extends is an identifier, if its base is clear. -/
theorem TypeExpr.isIdentifier_baseName (policy : NamingPolicy) {base : Option String}
    (h : ∀ token ∈ base, ClearToken token) :
    ∀ name ∈ valueOf (baseName policy base), isIdentifier name = true := by
  unfold baseName
  split
  · exact fun _ hname => nomatch hname
  · rename_i token htoken
    have hbase : token ∈ base := (Option.filter_eq_some_iff.mp htoken).1
    split
    · exact fun _ hname => nomatch hname
    · split
      · rename_i rest hrest
        by_cases hempty : rest = ""
        · rw [if_pos hempty]
          exact fun _ hname => nomatch hname
        · rw [if_neg hempty]
          rintro name hname
          cases hname
          exact policy.isIdentifier_apply ((h token hbase rest hrest).resolve_left hempty)
      · exact fun _ hname => nomatch hname

namespace Schema

/-- The type of a field has a clear name, if its token is clear. -/
theorem Field.clear_typeExpr (policy : NamingPolicy) (owner : String) {f : Field}
    (h : ∀ token ∈ f.tokens, ClearToken token) :
    (valueOf (f.typeExpr policy owner)).Clear := by
  unfold Field.typeExpr
  split
  · rename_i token htype
    exact TypeExpr.clear_ofToken policy (h token (by simp [tokens, htype]))
  · trivial

/-- The members of an interface have types with clear names, if the tokens of the fields are
clear. -/
theorem Field.clear_members (policy : NamingPolicy) (owner : String) {fields : List Field}
    (h : ∀ token ∈ fields.flatMap Field.tokens, ClearToken token) :
    ∀ m ∈ fields.map fun f => valueOf (f.member policy owner), m.type.Clear := by
  rw [List.forall_mem_flatMap] at h
  refine List.forall_mem_map.mpr fun f hf => ?_
  rw [Field.valueOf_member]
  exact f.clear_typeExpr policy owner (h f hf)

/-- What a simple type stands for is clear, if its base is. -/
theorem SimpleType.clear_body (policy : NamingPolicy) {t : SimpleType}
    (h : ∀ token ∈ t.base, ClearToken token) : (valueOf (t.body policy)).Clear := by
  unfold SimpleType.body
  split
  · trivial
  · rename_i base hbase
    by_cases hstring : base = "string"
    · rw [if_pos hstring, valueOf_pure]
      by_cases hempty : t.enumerations.isEmpty = true
      · rw [if_pos hempty]
        trivial
      · rw [if_neg hempty]
        exact fun hnil => hempty (List.isEmpty_iff.mpr hnil)
    · rw [if_neg hstring]
      exact TypeExpr.clear_ofToken policy (h base hbase)

/-- **What a section declares is clear**, if its names and tokens are. -/
theorem Section.clear_declarations (policy : NamingPolicy) {s : Section}
    (hnames : ∀ name ∈ s.names, ∃ n, name = some n ∧ isIdentifier n = true)
    (htokens : ∀ token ∈ s.tokens, ClearToken token) :
    ∀ d ∈ valueOf (s.declarations policy), d.Clear := by
  have hdeclared : ∀ name ∈ s.names, isIdentifier (policy.declare name) = true := by
    intro name hname
    obtain ⟨n, rfl, hn⟩ := hnames name hname
    exact policy.isIdentifier_apply hn
  simp only [Section.names, List.forall_mem_append, List.forall_mem_map] at hdeclared
  simp only [Section.tokens, List.forall_mem_append, List.forall_mem_flatMap] at htokens
  obtain ⟨hsimple, hcomplex, helement⟩ := hdeclared
  obtain ⟨hbases, hshapes, hfields⟩ := htokens
  rw [Section.valueOf_declarations, List.forall_mem_append, List.forall_mem_append,
    List.forall_mem_map, List.forall_mem_map, List.forall_mem_map]
  refine ⟨⟨fun t ht => ?_, fun t ht => ?_⟩, fun e he => ?_⟩
  · rw [SimpleType.valueOf_declaration]
    exact ⟨hsimple t ht,
      t.clear_body policy fun token htoken => hbases t ht token (Option.mem_toList.mpr htoken)⟩
  · rw [ComplexType.valueOf_declaration]
    have htokens := hshapes t ht
    cases hshape : t.shape with
    | sequence fields =>
      rw [hshape] at htokens
      exact ⟨hcomplex t ht, (fun _ hname => nomatch hname),
        Field.clear_members policy _ htokens⟩
    | content base fields =>
      rw [hshape] at htokens
      obtain ⟨hbase, hfields⟩ := List.forall_mem_append.mp htokens
      exact ⟨hcomplex t ht,
        TypeExpr.isIdentifier_baseName policy fun token htoken =>
          hbase token (Option.mem_toList.mpr htoken),
        Field.clear_members policy _ hfields⟩
  · rw [Element.valueOf_declaration]
    exact ⟨helement e he, (fun _ hname => nomatch hname),
      Field.clear_members policy _ (List.forall_mem_flatMap.mpr (hfields e he))⟩

/-- What a document with clear names declares is clear. -/
theorem Document.clear_declared (policy : NamingPolicy) {d : Document} (h : d.ClearNames) :
    ∀ declaration ∈ d.declared policy, declaration.Clear := by
  rw [Document.declared_eq, List.forall_mem_flatMap]
  exact fun s hs => Section.clear_declarations policy (h.names s hs) (h.tokens s hs)

/-- **Files with the same text declare the same.** If two documents are written with the same
indentation and both with the directives or both without, under whatever naming policies, and
the texts agree, then the declarations agree: in their number and order, each in its kind and
name, an alias in its literals or its type, an interface in its parent and its members, and
each member in its name, its mark and its type. -/
theorem Document.declared_eq_of_text_eq {d e : Document} {options options' : OutputOptions}
    (hd : d.ClearNames) (he : e.ClearNames) (hindent : IsIndent options.indent)
    (hsame : options.indent = options'.indent) (hheader : options.header = options'.header)
    (h : (d.typings options).text = (e.typings options').text) :
    d.declared options.naming = e.declared options'.naming := by
  rw [Document.text_typings, Document.text_typings, ← hsame, ← hheader] at h
  exact eq_of_declarationsText_eq hindent (d.clear_declared options.naming hd)
    (e.clear_declared options'.naming he) (String.append_right_inj _ |>.mp h)

/-- Different documents, written alike under different policies: a name and its capitalized
form, a field without a name and one with an empty name, no type and the type of anything. -/
theorem Document.declared_eq_of_text_eq_capitalized :
    let d : Document := ⟨[{ elements := [⟨some "a", [{ type := some "anyType" }]⟩] }]⟩
    let e : Document := ⟨[{ elements := [⟨some "A", [{ name := some "" }]⟩] }]⟩
    (d.typings { naming := .capitalize, indent := "" }).text = (e.typings { indent := "" }).text
      ∧ d.declared .capitalize = e.declared .reservedSuffix := by
  intro d e
  have hclear : ∀ (name : String) (f : Field), isIdentifier name = true →
      (∀ token ∈ f.type, ClearToken token) →
      Document.ClearNames ⟨[{ elements := [⟨some name, [f]⟩] }]⟩ := by
    intro name f hname htype
    exact ⟨by simpa [Section.names] using hname,
      by simpa [Section.tokens, Field.tokens] using htype⟩
  have htoken : ClearToken "anyType" := fun rest hrest => nomatch hrest
  have hd : d.ClearNames := hclear "a" _ (by decide) (by simpa using htoken)
  have he : e.ClearNames := hclear "A" _ (by decide) (by simp)
  have htext : (d.typings { naming := .capitalize, indent := "" }).text
      = (e.typings { indent := "" }).text := by
    decide +kernel
  exact ⟨htext, @declared_eq_of_text_eq d e { naming := .capitalize, indent := "" }
    { indent := "" } hd he (List.forall_mem_nil _) rfl rfl htext⟩

end Schema

end SchemaTypings
