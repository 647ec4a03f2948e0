import SchemaTypings.Proofs.Markup.TreeReading

/-!
# Building, step by step

What is known of every document, well-formed or not, is known first of one step of building,
and from there of every run. A step that succeeds does one of three things, and `Moves` lists
them: it opens an element, it places one that is complete, or it closes the innermost open one.
So nothing that is said of all documents has to look into the reader again, and what each move
keeps a whole run keeps (`run_induction`).
-/

namespace SchemaTypings

/-- A bound that was checked holds. -/
theorem Limits.le_maximum_of_require {limits : Limits} {bound : Bound} {value : Nat}
    (h : limits.require bound value = .ok ()) : value ≤ limits.maximum bound := by
  rw [Markup.require_eq_refuse] at h
  rw [← Limits.excess?_eq_none_iff]
  cases hexcess : limits.excess? bound value with
  | none => rfl
  | some e =>
    rw [hexcess] at h
    cases h

namespace Markup.Builder

variable {limits : Limits}

/-- **The element of a tag that is accepted** lies within the limits, is named as the tag says
and has nothing inside it yet. -/
theorem of_element_eq_ok {around : Nat} {content : List Char} {n : Node}
    (h : element limits around content = .ok n) :
    around + 1 ≤ limits.maxDepth ∧ n.attributes.length ≤ limits.maxAttributes
      ∧ n.tag = String.ofList (tagName content) ∧ n.groups = [] := by
  obtain ⟨_, hdepth, h⟩ := exists_of_bind_eq_ok h
  obtain ⟨attributes, -, h⟩ := exists_of_bind_eq_ok h
  obtain ⟨_, hattributes, h⟩ := exists_of_bind_eq_ok h
  cases h
  exact ⟨Limits.le_maximum_of_require hdepth, Limits.le_maximum_of_require hattributes, rfl, rfl⟩

/-- **The moves of building**: what a step that succeeds does with an event. -/
inductive Moves (limits : Limits) (b : Builder) : Event → Builder → Prop where
  /-- A start tag opens an element. -/
  | start {content : List Char} {n : Node} (h : element limits b.stack.length content = .ok n) :
      Moves limits b (.startTag content) { b with stack := n :: b.stack }
  /-- An empty-element tag places an element that is complete. -/
  | empty {content : List Char} {n : Node} (h : element limits b.stack.length content = .ok n) :
      Moves limits b (.emptyTag content) (b.attach n)
  /-- An end tag closes the innermost open element, which it names, and places it. -/
  | close {written : List Char} {position : Nat} {n : Node} {outer : List Node}
      (hstack : b.stack = n :: outer) (hname : n.tag = String.ofList (endName written)) :
      Moves limits b (.endTag written position) (({ b with stack := outer } : Builder).attach n)

/-- **A step that succeeds is a move.** -/
theorem moves_of_step {b next : Builder} {e : Event} (h : step limits b e = .ok next) :
    Moves limits b e next := by
  cases e with
  | startTag content =>
    obtain ⟨n, hn, h⟩ := exists_of_bind_eq_ok h
    cases h
    exact .start hn
  | emptyTag content =>
    obtain ⟨n, hn, h⟩ := exists_of_bind_eq_ok h
    cases h
    exact .empty hn
  | endTag written position =>
    rw [step, close] at h
    split at h
    · cases h
    · rename_i n outer hstack
      dsimp only at h
      split at h
      · rename_i hname
        cases h
        exact .close hstack hname
      · cases h
  | fault cause position => cases h

/-- **What every move keeps, every run keeps.** The events that were read so far may be spoken
of along with what was built from them. -/
theorem run_induction {motive : List Event → Builder → Prop} (start : motive [] {})
    (move : ∀ {es : List Event} {b : Builder} {e : Event} {next : Builder},
      motive es b → Moves limits b e next → motive (es ++ [e]) next)
    {es : List Event} {b : Builder} (h : es.foldlM (step limits) {} = .ok b) : motive es b := by
  -- from the end, since the last event is the one that was met after all the others
  induction es using List.reverseRec generalizing b with
  | nil =>
    cases h
    exact start
  | append_singleton es e ih =>
    rw [List.foldlM_append] at h
    obtain ⟨middle, hes, h⟩ := exists_of_bind_eq_ok h
    rw [List.foldlM_cons] at h
    obtain ⟨last, hlast, h⟩ := exists_of_bind_eq_ok h
    cases h
    exact move (ih hes) (moves_of_step hlast)

end Builder

/-- **A document that is read has been read to its end**, with nothing left open. -/
theorem run_of_parse {limits : Limits} {text : String} {root : Option Node}
    (h : parse limits text = .ok root) :
    (events text).foldlM (Builder.step limits) {} = .ok ⟨[], root⟩ := by
  obtain ⟨⟨stack, last⟩, hrun, h⟩ := exists_of_bind_eq_ok h
  cases stack with
  | nil =>
    cases h
    exact hrun
  | cons n outer => cases h

end SchemaTypings.Markup
