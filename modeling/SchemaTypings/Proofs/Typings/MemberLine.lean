import SchemaTypings.Proofs.Naming.Policy
import SchemaTypings.Proofs.Typings.Token

/-!
# Members and their lines

The member of a field is meant to take one line. The field's name cannot break it, since a name
is written bare only if it is an identifier, and inside a literal every line terminator is
escaped (`Naming.noBreak_memberKey`). The type can: of a reference, the name behind the type
marker is written as it stands, whatever characters it has – a reserved word is told apart, and
a first letter may be capitalized, but no line terminator is taken out or put in
(`NamingPolicy.noBreak_apply_iff`).

`Field.isLine_member_iff` puts the two together: a member takes one line exactly if its type is
no reference to a name with a line terminator in it.
-/

namespace SchemaTypings

open KnownPrefix Schema

/-! ## Types -/

namespace KnownPrefix

/-- A reference tells the name that it refers to. -/
theorem eq_of_reference_eq {p q : KnownPrefix} (hp : p ∈ typeMarkers) (hq : q ∈ typeMarkers)
    {name name' : String} (h : p.reference name = q.reference name') : name = name' := by
  have hname := afterMarker?_reference hp name
  rw [h, afterMarker?_reference hq] at hname
  exact (Option.some.inj hname).symm

end KnownPrefix

/-- **A token refers to nothing that breaks the line**: it is no reference to a name with a line
terminator. -/
def RefersInLine (token : String) : Prop :=
  ∀ p ∈ typeMarkers, ∀ name, token = p.reference name → NoBreak name

theorem refersInLine_reference {p : KnownPrefix} (hp : p ∈ typeMarkers) {name : String} :
    RefersInLine (p.reference name) ↔ NoBreak name :=
  ⟨fun h => h p hp name rfl, fun h _ hq _ heq => eq_of_reference_eq hp hq heq ▸ h⟩

/-- **The type of a token breaks the line exactly if the token refers to a name that does.** -/
theorem TypeExpr.noBreak_text_ofToken_iff (policy : NamingPolicy) (token : String) :
    NoBreak (valueOf (ofToken policy token)).text ↔ RefersInLine token := by
  rcases token_cases token with ⟨t, ht⟩ | ⟨p, hp, name, hname, rfl⟩ | hunknown
  · have hentries : ∀ entry ∈ builtins, NoBreak entry.2.text := by decide
    rw [ofToken_of_builtin? policy ht, valueOf_pure]
    have hplain := hentries _ (mem_builtins_of_builtin? ht)
    refine iff_of_true hplain fun p hp name heq => ?_
    rw [heq, builtin?_reference hp] at ht
    cases ht
  · rw [ofToken_reference policy hp hname, valueOf_pure]
    exact policy.noBreak_apply_iff.trans (refersInLine_reference hp).symm
  · have hany : NoBreak TypeExpr.any.text := by decide
    rw [ofToken_of_unknown policy hunknown]
    refine iff_of_true hany fun p hp name heq => ?_
    have hempty : name = "" :=
      Decidable.not_not.mp fun hne => not_unknown_reference hp hne (heq ▸ hunknown)
    rw [hempty]
    decide

/-! ## Members -/

theorem Member.noBreak_typeText_iff {m : Member} : NoBreak m.typeText ↔ NoBreak m.type.text := by
  have hbar : NoBreak " | " := by decide
  have hlist : NoBreak "[]" := by decide
  unfold Member.typeText
  split
  · simp only [noBreak_append, hbar, hlist, and_true, and_self]
  · exact Iff.rfl

/-- **A member takes one line exactly if its type does not break it**: its name never does. -/
theorem Member.isLine_text_iff {indent : String} (hindent : NoBreak indent) {m : Member} :
    IsLine (m.text indent) ↔ NoBreak m.type.text := by
  have hkey := Naming.noBreak_memberKey m.name
  have hmark : NoBreak (if m.optional then "?" else "") := by
    split <;> decide
  have hcolon : NoBreak ": " := by decide
  have hsemicolon : NoBreak ";" := by decide
  have htext : m.text indent = indent ++ Naming.memberKey m.name
      ++ (if m.optional then "?" else "") ++ ": " ++ m.typeText ++ ";" ++ "\n" := by
    rw [String.append_assoc]
    rfl
  rw [htext, isLine_append_newline]
  simp only [noBreak_append, Member.noBreak_typeText_iff, hindent, hkey, hmark, hcolon, hsemicolon,
    true_and, and_true]

/-- **A field takes one line exactly if it refers to no name that breaks it.** Whatever its
attributes hold, whatever owns it and whatever was noted before, the text of its member is one
line – if the indentation does not break it – unless the token of its type is a type marker
with a line terminator somewhere behind it. Of all that a field holds, this is the one text that
can get out of its line. -/
theorem Schema.Field.isLine_member_iff (policy : NamingPolicy) (owner : String) (f : Field)
    (noted : Diagnostics) {indent : String} (hindent : NoBreak indent) :
    IsLine (((f.member policy owner).run noted).1.text indent)
      ↔ ∀ token, f.type = some token → RefersInLine token := by
  have hmember : ((f.member policy owner).run noted).1 = valueOf (f.member policy owner) := by
    rw [f.onlyNotes_member policy owner noted]
  rw [hmember, Member.isLine_text_iff hindent, Field.valueOf_member]
  show NoBreak (valueOf (f.typeExpr policy owner)).text ↔ _
  unfold Field.typeExpr
  cases f.type with
  | none =>
    have hany : NoBreak TypeExpr.any.text := by decide
    exact iff_of_true hany fun token htoken => nomatch htoken
  | some token =>
    refine (TypeExpr.noBreak_text_ofToken_iff policy token).trans ?_
    exact ⟨fun h _ heq => Option.some.inj heq ▸ h, fun h => h token rfl⟩

/-- All line terminators in a name, and a type written twice, still take one line. -/
theorem Schema.Field.isLine_member_iff_repeated :
    let f : Field :=
      { name := some "a\nb\r\u2028\u2029", type := some "tns_Foo", maxOccurs := some "unbounded" }
    NoBreak "\t" ∧ IsLine (((f.member .capitalize "T").run {}).1.text "\t") := by
  intro f
  have hindent : NoBreak "\t" := by decide
  have hfoo : RefersInLine (KnownPrefix.tns.reference "Foo") :=
    (refersInLine_reference (by decide)).mpr (by decide)
  refine ⟨hindent, (f.isLine_member_iff .capitalize "T" {} hindent).mpr fun token htoken => ?_⟩
  exact Option.some.inj htoken ▸ hfoo

/-- **A type token that breaks its line**: the name behind the marker is written as it stands,
and the line feed in it ends the line before the type does. -/
theorem Schema.Field.member_breaks_line :
    let f : Field := { name := some "x", type := some "tns_Foo\nBar" }
    ((f.member .reservedSuffix "T").run {}).1.text "\t" = "\tx: Foo\nBar;\n"
      ∧ ¬ IsLine (((f.member .reservedSuffix "T").run {}).1.text "\t") := by
  intro f
  have htext : ((f.member .reservedSuffix "T").run {}).1.text "\t"
      = "\tx: Foo\nBar;" ++ "\n" := by
    decide
  rw [htext, isLine_append_newline]
  exact ⟨by decide, by decide⟩

end SchemaTypings
