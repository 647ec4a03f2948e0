import SchemaTypings.Proofs.Naming.Literal

/-!
# Quoting loses nothing

A quoted text is one literal, whatever the text is and whatever follows the literal
(`isLiteralOf_quote`): nothing inside ends it, neither a quote nor a backslash before one nor a
line terminator, and reading it gives the text back and stops behind it. That is more than that
it denotes the text (`IsLiteralOf.denotes`), which looks at the literal alone.

The key of a member is empty, a bare name or such a literal, and which of them is a matter of the
name alone. A bare name begins with no quote, so no two names have the same key
(`memberKey_injective`).
-/

namespace SchemaTypings.Naming

/-! ## Literals -/

/-- **A text is escaped**: a backslash takes the character after it, and a quote stands nowhere
but there. -/
inductive Escaped : List Char → Prop where
  /-- The empty text is. -/
  | nil : Escaped []
  /-- A character that is no quote and no backslash stands for itself. -/
  | plain {c : Char} {cs : List Char} (hquote : c ≠ '\'') (hbackslash : c ≠ '\\')
      (h : Escaped cs) : Escaped (c :: cs)
  /-- A backslash takes any character. -/
  | taken {c : Char} {cs : List Char} (h : Escaped cs) : Escaped ('\\' :: c :: cs)

theorem Escaped.append {cs ds : List Char} (hcs : Escaped cs) (hds : Escaped ds) :
    Escaped (cs ++ ds) := by
  induction hcs with
  | nil => exact hds
  | plain hquote hbackslash _ ih => exact .plain hquote hbackslash ih
  | taken _ ih => exact .taken ih

/-- A text without quotes and backslashes is escaped. -/
theorem escaped_of_not_mem {cs : List Char} (hquote : '\'' ∉ cs) (hbackslash : '\\' ∉ cs) :
    Escaped cs := by
  induction cs with
  | nil => exact .nil
  | cons c cs ih =>
    rw [List.mem_cons, not_or] at hquote hbackslash
    exact .plain (Ne.symm hquote.1) (Ne.symm hbackslash.1) (ih hquote.2 hbackslash.2)

theorem escaped_quoteChar (c : Char) : Escaped (quoteChar c) := by
  by_cases hspecial : c ∈ ['\\', '\'', '\n', '\r', '\u2028', '\u2029']
  · simp only [List.mem_cons, List.not_mem_nil, or_false] at hspecial
    rcases hspecial with rfl | rfl | rfl | rfl | rfl | rfl <;>
      exact .taken (escaped_of_not_mem (by decide) (by decide))
  · rw [quoteChar_of_not_mem hspecial]
    simp only [List.mem_cons, not_or] at hspecial
    exact .plain hspecial.2.1 hspecial.1 .nil

/-- **A text is one literal for a value**: it stands between quotes, nothing inside ends it or the
line, and whatever follows it, reading stops behind it and gives the value. -/
structure IsLiteralOf (literal value : String) : Prop where
  /-- Between its quotes everything is escaped. -/
  quoted : ∃ inside, literal.toList = '\'' :: (inside ++ ['\'']) ∧ Escaped inside
  /-- It holds no line terminator. -/
  noBreak : NoBreak literal
  /-- It is read to its last character, and no further. -/
  read : ∀ rest, readLiteral? (literal.toList ++ rest) = some (value, rest)

/-- **One literal for a value denotes it.** -/
theorem IsLiteralOf.denotes {literal value : String} (h : IsLiteralOf literal value) :
    Denotes literal value :=
  .of_read h.read

/-- **A quoted text is one literal for the text.** -/
theorem isLiteralOf_quote (value : String) : IsLiteralOf (quote value) value := by
  refine ⟨⟨_, toList_quote value, ?_⟩, noBreak_quote value, readLiteral?_quote_append value⟩
  induction value.toList with
  | nil => exact .nil
  | cons c cs ih =>
    rw [List.flatMap_cons]
    exact (escaped_quoteChar c).append ih

/-! ## Keys -/

/-- **A name that needs no quotes**: a letter from A to Z in either case, `_` or `$`, and behind it
any number of these and of digits. -/
def IsBare (name : String) : Prop :=
  ∃ first rest, name.toList = first :: rest ∧ letter first
    ∧ ∀ c ∈ rest, letter c ∨ '0' ≤ c ∧ c ≤ '9'
where
  /-- What may begin such a name. -/
  letter (c : Char) : Prop :=
    'A' ≤ c ∧ c ≤ 'Z' ∨ 'a' ≤ c ∧ c ≤ 'z' ∨ c = '_' ∨ c = '$'

theorem isIdentifierStart_iff {c : Char} : isIdentifierStart c = true ↔ IsBare.letter c := by
  unfold isIdentifierStart Char.isAlpha Char.isUpper Char.isLower
  simp only [Bool.or_eq_true, Bool.and_eq_true, decide_eq_true_eq, beq_iff_eq, IsBare.letter,
    or_assoc]
  rfl

theorem isIdentifierPart_iff {c : Char} :
    isIdentifierPart c = true ↔ IsBare.letter c ∨ '0' ≤ c ∧ c ≤ '9' := by
  rw [isIdentifierPart, Bool.or_eq_true, isIdentifierStart_iff]
  simp only [Char.isDigit, Bool.and_eq_true, decide_eq_true_eq]
  rfl

/-- **The names that need no quotes are the identifiers.** -/
theorem isIdentifier_iff {name : String} : isIdentifier name = true ↔ IsBare name := by
  constructor
  · intro h
    obtain ⟨first, rest, hname, hfirst, hrest⟩ := exists_cons_of_isIdentifier h
    exact ⟨first, rest, hname, isIdentifierStart_iff.mp hfirst,
      fun c hc => isIdentifierPart_iff.mp (hrest c hc)⟩
  · rintro ⟨first, rest, hname, hfirst, hrest⟩
    rw [isIdentifier, hname]
    exact Bool.and_eq_true_iff.mpr ⟨isIdentifierStart_iff.mpr hfirst,
      List.all_eq_true.mpr fun c hc => isIdentifierPart_iff.mpr (hrest c hc)⟩

/-- **Different names have different keys.** -/
theorem memberKey_injective : Function.Injective memberKey := by
  intro a b h
  have hcolon : (memberKey a).toList ++ ':' :: [] = (memberKey b).toList ++ ':' :: [] := by rw [h]
  exact (memberKey_append_cons_inj (by decide) (by decide) (by decide) (by decide) hcolon).1

/-- **Quoting loses nothing, and keys never collide.** A quoted text is one literal for the text.
The key of a member is empty if the name is, the name itself if that needs no quotes, and otherwise
one literal for it, and different names have different keys. -/
theorem quote_and_memberKey_lossless :
    (∀ value, IsLiteralOf (quote value) value)
      ∧ Function.Injective memberKey
      ∧ ∀ name, name = "" ∧ memberKey name = ""
        ∨ IsBare name ∧ memberKey name = name
        ∨ name ≠ "" ∧ ¬ IsBare name ∧ IsLiteralOf (memberKey name) name := by
  refine ⟨isLiteralOf_quote, memberKey_injective, fun name => ?_⟩
  by_cases hempty : name = ""
  · exact .inl ⟨hempty, by rw [hempty]; rfl⟩
  · by_cases hbare : isIdentifier name = true
    · refine .inr (.inl ⟨isIdentifier_iff.mp hbare, ?_⟩)
      rw [memberKey, hbare, Bool.or_true, if_pos rfl]
    · have hquoted : memberKey name = quote name := by
        rw [memberKey, if_neg]
        rw [Bool.or_eq_true, decide_eq_true_iff]
        exact not_or.mpr ⟨hempty, hbare⟩
      refine .inr (.inr ⟨hempty, fun h => hbare (isIdentifier_iff.mpr h), ?_⟩)
      rw [hquoted]
      exact isLiteralOf_quote name

end SchemaTypings.Naming
