import Mathlib.Logic.Basic

/-!
# Texts and lines

A text that holds no line terminator stays in the line that it is written in, whatever stands
around it. This is a matter of its characters alone, so it holds of texts put one after another
exactly if it holds of each (`noBreak_append`).
-/

namespace SchemaTypings

-- A property of the characters of a list is decided along the list, not over all characters.
instance (priority := high) decidableForallMem {p : Char → Prop} [DecidablePred p]
    (cs : List Char) : Decidable (∀ c ∈ cs, p c) :=
  List.decidableBAll p cs

/-- **The characters that end a line**: line feed, carriage return, and the separators of lines
and paragraphs. -/
def lineTerminators : List Char :=
  ['\n', '\r', '\u2028', '\u2029']

/-- **A text does not break the line** that it is written in. -/
def NoBreak (text : String) : Prop :=
  ∀ c ∈ lineTerminators, c ∉ text.toList

instance : DecidablePred NoBreak :=
  fun text => inferInstanceAs (Decidable (∀ c ∈ lineTerminators, c ∉ text.toList))

/-- **A text is one line**: no line ends in it, but that it ends with a line feed. -/
def IsLine (text : String) : Prop :=
  ∃ line, text = line ++ "\n" ∧ NoBreak line

@[simp] theorem noBreak_append {a b : String} : NoBreak (a ++ b) ↔ NoBreak a ∧ NoBreak b := by
  simp only [NoBreak, String.toList_append, List.mem_append, not_or]
  exact forall₂_and

theorem isLine_append_newline {line : String} : IsLine (line ++ "\n") ↔ NoBreak line := by
  constructor
  · rintro ⟨other, heq, hother⟩
    rwa [(String.append_left_inj _).mp heq]
  · exact fun h => ⟨line, rfl, h⟩

end SchemaTypings
