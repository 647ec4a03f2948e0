import SchemaTypings.Naming.Policy
import SchemaTypings.Proofs.Naming.Literal
import SchemaTypings.Proofs.Text.Uppercase

/-!
# Type names

What a naming policy makes of a name: never a reserved word, and of an identifier another
one. A type name is therefore told from the predefined types, which are reserved, and can be
written without quotes. A policy leaves the names that it made as they are
(`NamingPolicy.apply_apply`). It takes out no line terminator and puts in none
(`NamingPolicy.noBreak_apply_iff`).
-/

namespace SchemaTypings

namespace Naming

/-- No reserved word ends in an underscore. -/
theorem getLast?_ne_of_mem_reservedWords :
    ∀ word ∈ reservedWords, word.toList.getLast? ≠ some '_' := by
  decide +kernel

/-- A name that ends in an underscore is not reserved. -/
theorem isReserved_append_underscore (name : String) : isReserved (name ++ "_") = false := by
  by_contra hmarked
  have hmem : name ++ "_" ∈ reservedWords :=
    List.contains_iff_mem.mp (Bool.not_eq_false _ ▸ hmarked)
  have hlast : (name ++ "_").toList.getLast? = some '_' := by
    rw [String.toList_append]
    exact List.getLast?_concat
  exact getLast?_ne_of_mem_reservedWords _ hmem hlast

theorem avoidReserved_of_mem {name : String} (h : name ∈ reservedWords) :
    avoidReserved name = name ++ "_" :=
  if_pos (List.contains_iff_mem.mpr h)

theorem avoidReserved_of_not_mem {name : String} (h : name ∉ reservedWords) :
    avoidReserved name = name :=
  if_neg fun hreserved => h (List.contains_iff_mem.mp hreserved)

theorem avoidReserved_append_underscore (name : String) :
    avoidReserved (name ++ "_") = name ++ "_" :=
  if_neg (isReserved_append_underscore name ▸ Bool.false_ne_true)

/-- **The result of avoiding reserved words is not reserved.** -/
theorem isReserved_avoidReserved (name : String) : isReserved (avoidReserved name) = false := by
  by_cases h : name ∈ reservedWords
  · rw [avoidReserved_of_mem h]
    exact isReserved_append_underscore name
  · rw [avoidReserved_of_not_mem h]
    exact Bool.not_eq_true _ ▸ fun hreserved => h (List.contains_iff_mem.mp hreserved)

/-- **Avoiding reserved words merges** a reserved word and that word with an underscore, and no
other names. -/
theorem avoidReserved_eq_iff {a b : String} :
    avoidReserved a = avoidReserved b
      ↔ a = b ∨ ∃ word ∈ reservedWords,
        (a = word ∧ b = word ++ "_") ∨ (b = word ∧ a = word ++ "_") := by
  constructor
  · intro h
    by_cases ha : a ∈ reservedWords
    · by_cases hb : b ∈ reservedWords
      · rw [avoidReserved_of_mem ha, avoidReserved_of_mem hb] at h
        exact .inl ((String.append_left_inj _).mp h)
      · rw [avoidReserved_of_mem ha, avoidReserved_of_not_mem hb] at h
        exact .inr ⟨a, ha, .inl ⟨rfl, h.symm⟩⟩
    · by_cases hb : b ∈ reservedWords
      · rw [avoidReserved_of_not_mem ha, avoidReserved_of_mem hb] at h
        exact .inr ⟨b, hb, .inr ⟨rfl, h⟩⟩
      · rw [avoidReserved_of_not_mem ha, avoidReserved_of_not_mem hb] at h
        exact .inl h
  · rintro (rfl | ⟨word, hword, ⟨rfl, rfl⟩ | ⟨rfl, rfl⟩⟩)
    · rfl
    · rw [avoidReserved_of_mem hword, avoidReserved_append_underscore]
    · rw [avoidReserved_of_mem hword, avoidReserved_append_underscore]

/-- Avoiding reserved words makes an identifier of an identifier. -/
theorem isIdentifier_avoidReserved {name : String} (h : isIdentifier name = true) :
    isIdentifier (avoidReserved name) = true := by
  unfold avoidReserved
  by_cases hreserved : isReserved name = true
  · obtain ⟨c, cs, hname, hstart, hparts⟩ := exists_cons_of_isIdentifier h
    rw [if_pos hreserved, isIdentifier, String.toList_append, hname]
    show (isIdentifierStart c && (cs ++ ['_']).all isIdentifierPart) = true
    rw [hstart, Bool.true_and, List.all_append, Bool.and_eq_true]
    exact ⟨List.all_eq_true.mpr hparts, by decide⟩
  · rw [if_neg hreserved]
    exact h

/-- What can begin an identifier is an ASCII character. -/
theorem toNat_lt_of_isIdentifierStart {c : Char} (h : isIdentifierStart c = true) :
    c.toNat < 128 := by
  unfold isIdentifierStart Char.isAlpha Char.isUpper Char.isLower at h
  simp only [Bool.or_eq_true, Bool.and_eq_true, decide_eq_true_eq, beq_iff_eq,
    UInt32.le_iff_toNat_le, ge_iff_le] at h
  rcases h with ((⟨-, hupper⟩ | ⟨-, hlower⟩) | rfl) | rfl
  · exact Nat.lt_of_le_of_lt hupper (by decide)
  · exact Nat.lt_of_le_of_lt hlower (by decide)
  · decide
  · decide

theorem noBreak_avoidReserved_iff {name : String} : NoBreak (avoidReserved name) ↔ NoBreak name := by
  unfold avoidReserved
  split
  · rw [noBreak_append]
    exact and_iff_left (by decide)
  · exact Iff.rfl

end Naming

/-- Line terminators are no letters, so they have no case. -/
theorem uncased_of_mem_lineTerminators : ∀ c ∈ lineTerminators, Text.Uncased c.toNat := by
  decide +kernel

/-- The capital of what can begin an identifier is one character that can begin one. -/
theorem Text.exists_upper_eq_of_isIdentifierStart {c : Char}
    (h : Naming.isIdentifierStart c = true) :
    ∃ d, Text.upper c = [d] ∧ Naming.isIdentifierStart d = true := by
  have hall : ∀ code < 128, Naming.isIdentifierStart (Char.ofNat code) = true →
      (Text.upper (Char.ofNat code)).length = 1
        ∧ (Text.upper (Char.ofNat code)).all Naming.isIdentifierStart = true := by
    decide +kernel
  have hc := hall c.toNat (Naming.toNat_lt_of_isIdentifierStart h)
  rw [Char.ofNat_toNat] at hc
  obtain ⟨hlength, hstart⟩ := hc h
  obtain ⟨d, hd⟩ := List.length_eq_one_iff.mp hlength
  rw [hd] at hstart
  exact ⟨d, hd, by simpa using hstart⟩

/-- Capitalizing makes an identifier of an identifier. -/
theorem Text.isIdentifier_capitalized {name : String} (h : Naming.isIdentifier name = true) :
    Naming.isIdentifier (Text.capitalized name) = true := by
  obtain ⟨c, cs, hname, hstart, hparts⟩ := Naming.exists_cons_of_isIdentifier h
  obtain ⟨d, hd, hdstart⟩ := Text.exists_upper_eq_of_isIdentifierStart hstart
  rw [Text.capitalized, hname]
  show Naming.isIdentifier (String.ofList (Text.upper c ++ cs)) = true
  rw [hd, Naming.isIdentifier, String.toList_ofList]
  show (Naming.isIdentifierStart d && cs.all Naming.isIdentifierPart) = true
  rw [hdstart, Bool.true_and, List.all_eq_true]
  exact hparts

namespace NamingPolicy

/-- **A policy makes an identifier of an identifier.** -/
theorem isIdentifier_apply (policy : NamingPolicy) {raw : String}
    (h : Naming.isIdentifier raw = true) : Naming.isIdentifier (policy.apply raw) = true := by
  refine Naming.isIdentifier_avoidReserved ?_
  cases policy with
  | reservedSuffix => exact h
  | capitalize => exact Text.isIdentifier_capitalized h

/-- **A policy makes no reserved word of any name.** -/
theorem isReserved_apply (policy : NamingPolicy) (raw : String) :
    Naming.isReserved (policy.apply raw) = false :=
  Naming.isReserved_avoidReserved _

/-- A policy spells names from their beginning. -/
theorem spell_append (policy : NamingPolicy) {name : String} (h : name ≠ "") (rest : String) :
    policy.spell (name ++ rest) = policy.spell name ++ rest := by
  cases policy with
  | reservedSuffix => rfl
  | capitalize => exact Text.capitalized_append h rest

/-- A policy spells what it has spelled the same. -/
theorem spell_spell (policy : NamingPolicy) (name : String) :
    policy.spell (policy.spell name) = policy.spell name := by
  cases policy with
  | reservedSuffix => rfl
  | capitalize => exact Text.capitalized_capitalized name

/-- **A policy leaves the names that it made as they are.** An underscore at the end stays, and no
second one is put there. -/
theorem apply_apply (policy : NamingPolicy) (raw : String) :
    policy.apply (policy.apply raw) = policy.apply raw := by
  unfold apply
  by_cases h : policy.spell raw ∈ Naming.reservedWords
  · have hne : policy.spell raw ≠ "" := fun hempty => absurd (hempty ▸ h) (by decide)
    rw [Naming.avoidReserved_of_mem h, policy.spell_append hne, policy.spell_spell,
      Naming.avoidReserved_append_underscore]
  · rw [Naming.avoidReserved_of_not_mem h, policy.spell_spell, Naming.avoidReserved_of_not_mem h]

/-- **A type name breaks the line exactly if the raw name does.** -/
theorem noBreak_apply_iff (policy : NamingPolicy) {raw : String} :
    NoBreak (policy.apply raw) ↔ NoBreak raw := by
  refine Naming.noBreak_avoidReserved_iff.trans ?_
  cases policy with
  | reservedSuffix => exact Iff.rfl
  | capitalize =>
    refine forall₂_congr fun c hc => not_congr ?_
    exact Text.mem_capitalized_iff (uncased_of_mem_lineTerminators c hc) raw

/-- **Two raw names merge** under a policy if it spells them alike, or one as a reserved word and
the other as that word with an underscore. -/
def Merges (policy : NamingPolicy) (a b : String) : Prop :=
  policy.spell a = policy.spell b
    ∨ ∃ word ∈ Naming.reservedWords,
      (policy.spell a = word ∧ policy.spell b = word ++ "_")
        ∨ (policy.spell b = word ∧ policy.spell a = word ++ "_")

/-- **A policy gives two raw names one type name exactly if they merge.** -/
theorem apply_eq_iff (policy : NamingPolicy) {a b : String} :
    policy.apply a = policy.apply b ↔ policy.Merges a b :=
  Naming.avoidReserved_eq_iff

end NamingPolicy

end SchemaTypings
