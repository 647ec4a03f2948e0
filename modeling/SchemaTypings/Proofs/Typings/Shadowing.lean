import SchemaTypings.Proofs.Typings.References

/-!
# Names that shadow nothing

A schema may name a type as it likes, `string` or `Date` as well, and the declarations that are
made of it refer to types of these names that no schema declares. The reserved words keep the two
apart: the predefined types are written as reserved words, and no policy makes one of any name.

So what a token or a declaration is named by is never the text of a predefined type, and types
that differ are written differently (`NamingPolicy.names_shadow_nothing`). Names can be passed
through the policy again without harm.
-/

namespace SchemaTypings

open Schema

/-- No reserved word is a type name. -/
theorem NamingPolicy.apply_not_mem_reservedWords (policy : NamingPolicy) (raw : String) :
    policy.apply raw ∉ Naming.reservedWords := by
  intro hmem
  have hreserved : Naming.isReserved (policy.apply raw) = true :=
    List.contains_iff_mem.mpr hmem
  rw [policy.isReserved_apply] at hreserved
  cases hreserved

/-- A name that is not reserved is written like no predefined type. -/
theorem TypeExpr.ne_text_of_mem_predefined {name : String} (h : name ∉ Naming.reservedWords)
    {t : TypeExpr} (ht : t ∈ predefined) : name ≠ t.text := by
  rintro rfl
  exact h (List.contains_iff_mem.mp (isReserved_text_of_mem_predefined ht))

namespace TypeExpr

theorem named_not_mem_predefined (name : String) : named name ∉ predefined := by
  simp [predefined]

/-- The built-in types are predefined. -/
theorem mem_predefined_of_builtin? {token : String} {t : TypeExpr} (h : builtin? token = some t) :
    t ∈ predefined := by
  have hall : ∀ entry ∈ builtins, entry.2 ∈ predefined := by decide
  exact hall _ (mem_builtins_of_builtin? h)

/-- **What a token names** is predefined, or it has a name that the policy made. -/
theorem ofToken_cases (policy : NamingPolicy) (token : String) :
    valueOf (ofToken policy token) ∈ predefined
      ∨ ∃ raw, valueOf (ofToken policy token) = .named (policy.apply raw) := by
  rcases token_cases token with ⟨t, ht⟩ | ⟨p, hp, raw, hraw, rfl⟩ | hunknown
  · rw [ofToken_of_builtin? policy ht]
    exact .inl (mem_predefined_of_builtin? ht)
  · rw [ofToken_reference policy hp hraw]
    exact .inr ⟨raw, rfl⟩
  · rw [ofToken_of_unknown policy hunknown]
    exact .inl (show any ∈ predefined by decide)

/-- What was noted before does not change what a token names. -/
theorem run_ofToken_fst (policy : NamingPolicy) (token : String) (noted : Diagnostics) :
    ((ofToken policy token).run noted).1 = valueOf (ofToken policy token) := by
  rw [onlyNotes_ofToken policy token noted]

/-- No token names a type by a reserved word. -/
theorem unreserved_ofToken (policy : NamingPolicy) (token : String) :
    (valueOf (ofToken policy token)).Unreserved := by
  rcases ofToken_cases policy token with hpredefined | ⟨raw, hnamed⟩
  · have hall : ∀ t ∈ predefined, t.Unreserved := by
      intro t ht
      cases t with
      | named name => exact absurd ht (named_not_mem_predefined name)
      | boolean | string | date | number | any => trivial
    exact hall _ hpredefined
  · rw [hnamed]
    exact policy.isReserved_apply raw

end TypeExpr

/-- Whatever is declared has a name that the policy made. -/
theorem Schema.Document.exists_name_eq_apply {policy : NamingPolicy} {d : Document}
    {declaration : Declaration} (h : declaration ∈ d.declared policy) :
    ∃ raw, declaration.name = policy.apply raw := by
  rw [Document.declared_eq, List.mem_flatMap] at h
  obtain ⟨s, -, h⟩ := h
  have hname := List.mem_map_of_mem (f := Declaration.name) h
  rw [Section.map_name_declarations] at hname
  obtain ⟨raw, -, hraw⟩ := List.mem_map.mp hname
  exact ⟨raw.getD "", hraw.symm⟩

/-- **Names shadow nothing, and stay as they are.** What a policy makes of a name is not reserved,
and the policy leaves it as it is. So no type that a token names, and nothing that a document
declares, has the name of a predefined type; and whatever was noted before, tokens that name
different types are written differently. -/
theorem NamingPolicy.names_shadow_nothing (policy : NamingPolicy) :
    (∀ raw, policy.apply raw ∉ Naming.reservedWords
        ∧ policy.apply (policy.apply raw) = policy.apply raw)
      ∧ (∀ token noted name, ((TypeExpr.ofToken policy token).run noted).1 = .named name →
        ∀ t ∈ TypeExpr.predefined, name ≠ t.text)
      ∧ (∀ d : Document, ∀ declaration ∈ d.declared policy, ∀ t ∈ TypeExpr.predefined,
        declaration.name ≠ t.text)
      ∧ ∀ a b noted noted', ((TypeExpr.ofToken policy a).run noted).1
          ≠ ((TypeExpr.ofToken policy b).run noted').1 →
        ((TypeExpr.ofToken policy a).run noted).1.text
          ≠ ((TypeExpr.ofToken policy b).run noted').1.text := by
  refine ⟨fun raw => ⟨policy.apply_not_mem_reservedWords raw, policy.apply_apply raw⟩, ?_, ?_, ?_⟩
  · intro token noted name hnamed t ht
    rw [TypeExpr.run_ofToken_fst] at hnamed
    rcases TypeExpr.ofToken_cases policy token with hpredefined | ⟨raw, happlied⟩
    · rw [hnamed] at hpredefined
      exact absurd hpredefined (TypeExpr.named_not_mem_predefined name)
    · obtain rfl : policy.apply raw = name := TypeExpr.named.inj (happlied.symm.trans hnamed)
      exact TypeExpr.ne_text_of_mem_predefined (policy.apply_not_mem_reservedWords raw) ht
  · intro d declaration hdeclared t ht
    obtain ⟨raw, hname⟩ := Document.exists_name_eq_apply hdeclared
    rw [hname]
    exact TypeExpr.ne_text_of_mem_predefined (policy.apply_not_mem_reservedWords raw) ht
  · intro a b noted noted' hne htext
    rw [TypeExpr.run_ofToken_fst, TypeExpr.run_ofToken_fst] at hne htext
    exact hne (TypeExpr.eq_of_text_eq (TypeExpr.unreserved_ofToken policy a)
      (TypeExpr.unreserved_ofToken policy b) htext)

/-- A declared type that a schema calls `date`, and the built-in type of that name, under the
policy that capitalizes: the one is written `Date_`, the other `Date`. -/
theorem NamingPolicy.names_shadow_nothing_date :
    let declared := ((TypeExpr.ofToken .capitalize "tns_date").run {}).1
    let builtin := ((TypeExpr.ofToken .capitalize "date").run {}).1
    declared = .named "Date_" ∧ "Date_" ≠ TypeExpr.date.text
      ∧ NamingPolicy.capitalize.apply "Date_" = "Date_"
      ∧ declared ≠ builtin ∧ declared.text ≠ builtin.text := by
  intro declared builtin
  obtain ⟨hstable, htokens, -, htexts⟩ := NamingPolicy.capitalize.names_shadow_nothing
  have hdeclared : declared = .named "Date_" := by decide
  have hne : declared ≠ builtin := by decide
  refine ⟨hdeclared, ?_, ?_, hne, htexts _ _ _ _ hne⟩
  · exact htokens "tns_date" {} "Date_" hdeclared .date (by decide)
  · exact (show NamingPolicy.capitalize.apply "date" = "Date_" by decide) ▸ (hstable "date").2

end SchemaTypings
