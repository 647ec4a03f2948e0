import SchemaTypings.Proofs.Conversion

/-!
# Wider limits

Limits refuse, and that is all they do: a document that is not refused is converted to the same
file under wider limits, and a document that is no schema, or not well-formed, fails with the
same error there (`convert_of_le`). So limits can be raised without a second look at what was
converted before.

Both runs take the same steps, and a step compares as a whole: its result under narrow limits is
kept by its result under wider ones, unless it is a refusal (`KeptBy`). What is kept step by step
is kept by a sequence of steps, so nothing has to be known of the events of a document, nor of
what has been built when one of them fails.
-/

namespace SchemaTypings

open Markup

/-- **Wider limits** allow at least as much, whatever is bounded. -/
instance : LE Limits where
  le limits wider := ∀ bound, limits.maximum bound ≤ wider.maximum bound

/-- **How a result fares under wider limits**: a success is kept, and so are the errors that a
document itself is to blame for. A refusal may give way to anything. -/
inductive KeptBy {α : Type} : Except Error α → Except Error α → Prop where
  /-- A success is kept. -/
  | ok (a : α) : KeptBy (.ok a) (.ok a)
  /-- A document that is not well-formed stays so. -/
  | markup (cause : Markup.Fault) : KeptBy (.error (.markup cause)) (.error (.markup cause))
  /-- A document that is no schema stays so. -/
  | structural (cause : Schema.Fault) :
      KeptBy (.error (.structural cause)) (.error (.structural cause))
  /-- A refusal promises nothing. -/
  | refused (e : LimitExceeded) (y : Except Error α) : KeptBy (.error (.limit e)) y

namespace KeptBy

variable {α β : Type}

/-- **What each step keeps, a sequence of steps keeps.** -/
theorem bind {x y : Except Error α} {f g : α → Except Error β} (h : KeptBy x y)
    (hnext : ∀ a, KeptBy (f a) (g a)) : KeptBy (x >>= f) (y >>= g) := by
  cases h with
  | ok a => exact hnext a
  | markup cause => exact .markup cause
  | structural cause => exact .structural cause
  | refused e y => exact .refused e _

/-- A step that looks at no limit, and fails for the markup if it fails, is kept. -/
theorem mapError_markup (x : Except Markup.Fault α) :
    KeptBy (x.mapError Error.markup) (x.mapError Error.markup) := by
  cases x with
  | error cause => exact .markup cause
  | ok a => exact .ok a

/-- A step that looks at no limit, and fails for the schema if it fails, is kept. -/
theorem mapError_structural (x : Except Schema.Fault α) :
    KeptBy (x.mapError Error.structural) (x.mapError Error.structural) := by
  cases x with
  | error cause => exact .structural cause
  | ok a => exact .ok a

/-- A walk over a list is kept if each of its steps is. -/
theorem foldlM {f g : β → α → Except Error β} (h : ∀ b a, KeptBy (f b a) (g b a)) (l : List α)
    (b : β) : KeptBy (l.foldlM f b) (l.foldlM g b) := by
  induction l generalizing b with
  | nil => exact .ok b
  | cons a l ih =>
    rw [List.foldlM_cons, List.foldlM_cons]
    exact (h b a).bind ih

end KeptBy

/-- Whether anything is left open has nothing to do with limits. -/
theorem Markup.Builder.keptBy_finish (b : Builder) : KeptBy b.finish b.finish := by
  unfold finish
  split
  · exact .ok _
  · exact .markup _

section Stages

variable {limits wider : Limits} (hle : limits ≤ wider)
include hle

/-- **A check refuses less under wider limits.** -/
theorem Limits.keptBy_require (bound : Bound) (value : Nat) :
    KeptBy (limits.require bound value) (wider.require bound value) := by
  unfold Limits.require Limits.check
  by_cases h : limits.maximum bound < value
  · rw [if_pos h]
    exact .refused _ _
  · rw [if_neg h, if_neg fun hwider => h (Nat.lt_of_le_of_lt (hle bound) hwider)]
    exact .ok ()

namespace Markup

theorem Builder.keptBy_element (around : Nat) (content : List Char) :
    KeptBy (element limits around content) (element wider around content) :=
  (Limits.keptBy_require hle .depth _).bind fun _ =>
    (KeptBy.mapError_markup (tagAttributes content)).bind fun _ =>
      (Limits.keptBy_require hle .attributes _).bind fun _ => .ok _

/-- The events come from the text alone, so both runs meet the same one. -/
theorem Builder.keptBy_step (b : Builder) (e : Event) :
    KeptBy (step limits b e) (step wider b e) := by
  cases e with
  | startTag content => exact (keptBy_element hle _ content).bind fun _ => .ok _
  | emptyTag content => exact (keptBy_element hle _ content).bind fun _ => .ok _
  | endTag written position =>
    rw [step, step, close]
    split
    · exact .markup _
    · dsimp only
      split
      · exact .ok _
      · exact .markup _
  | fault cause position => exact .markup _

theorem keptBy_parse (text : String) : KeptBy (parse limits text) (parse wider text) :=
  (KeptBy.foldlM (Builder.keptBy_step hle) (events text) {}).bind fun b => b.keptBy_finish

end Markup

theorem Schema.Document.keptBy_ofText (text : String) :
    KeptBy (Schema.Document.ofText limits text) (Schema.Document.ofText wider text) := by
  refine (Markup.keptBy_parse hle (replacePrefixes text)).bind fun root => ?_
  cases root with
  | none => exact .structural _
  | some root => exact .mapError_structural (Schema.Document.ofRoot root)

theorem keptBy_convert (options : OutputOptions) (text : String) :
    KeptBy (convert options limits text) (convert options wider text) :=
  (Schema.Document.keptBy_ofText hle text).bind fun d =>
    (Limits.keptBy_require hle .declarations d.declarationCount).bind fun _ => .ok _

end Stages

/-- **Limits only refuse.** Unless a document is refused for a limit, wider limits change nothing:
it is converted to the same file, or it fails with the same error, which then is a fault of its
markup or of its structure. -/
theorem convert_of_le (text : String) (options : OutputOptions) {limits wider : Limits}
    (hle : limits ≤ wider) (h : ∀ e, convert options limits text ≠ .error (.limit e)) :
    convert options wider text = convert options limits text
      ∧ ((∃ file, convert options limits text = .ok file)
        ∨ (∃ cause, convert options limits text = .error (.markup cause))
        ∨ ∃ cause, convert options limits text = .error (.structural cause)) := by
  have hkept := keptBy_convert hle options text
  generalize convert options limits text = narrow at hkept h
  generalize convert options wider text = wide at hkept
  cases hkept with
  | ok file => exact ⟨rfl, .inl ⟨file, rfl⟩⟩
  | markup cause => exact ⟨rfl, .inr (.inl ⟨cause, rfl⟩)⟩
  | structural cause => exact ⟨rfl, .inr (.inr ⟨cause, rfl⟩)⟩
  | refused e => exact absurd rfl (h e)

/-- A document that just fits, and a text that is none. -/
theorem convert_of_le_tight :
    let tight : Limits := { maxDepth := 2, maxAttributes := 1, maxDeclarations := 1 }
    tight ≤ .default
      ∧ (∃ file, convert {} tight "<schema><simpleType name=\"A\"/></schema>" = .ok file
        ∧ convert {} .default "<schema><simpleType name=\"A\"/></schema>" = .ok file)
      ∧ ∃ cause, convert {} tight "</schema>" = .error (.markup cause)
        ∧ convert {} .default "</schema>" = .error (.markup cause) := by
  intro tight
  have hle : tight ≤ .default := fun bound => by cases bound <;> decide
  let t : Tree := ⟨"schema", [], [⟨"simpleType", [⟨"name", "A"⟩], []⟩]⟩
  have hwritten : Written [t] "<schema><simpleType name=\"A\"/></schema>".toList :=
    .element (by decide) (.empty (by decide) .nil) .nil
  have hdocument : Schema.Document.ofText tight "<schema><simpleType name=\"A\"/></schema>"
      = .ok ⟨[{ simpleTypes := [{ name := some "A" }] }]⟩ := by
    rw [Schema.Document.ofText, replacePrefixes_eq_self (by decide),
      parse_written_of_within hwritten (by unfold Tree.Within; decide)]
    rfl
  have hfile := convert_of_ofText {} hdocument (by decide)
  have hfault : ∃ cause, convert {} tight "</schema>" = .error (.markup cause) := by
    obtain ⟨position, next, hevents⟩ :=
      eventsFrom_endText (show isName "schema" = true by decide) 0 []
    refine ⟨.reading position (.mismatchedEnd "" "schema"), ?_⟩
    rw [convert, Schema.Document.ofText, replacePrefixes_eq_self (by decide), parse, events,
      show dropByteOrderMark "</schema>".toList = endText "schema" ++ [] from rfl, hevents]
    rfl
  obtain ⟨cause, hfault⟩ := hfault
  obtain ⟨hkept, -⟩ := convert_of_le _ {} hle fun e h => by cases hfile.symm.trans h
  obtain ⟨hfails, -⟩ := convert_of_le _ {} hle fun e h => by cases hfault.symm.trans h
  exact ⟨hle, ⟨_, hfile, hkept.trans hfile⟩, cause, hfault, hfails.trans hfault⟩

end SchemaTypings
