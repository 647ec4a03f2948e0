import SchemaTypings.Proofs.Markup.Spelling

/-!
# Balanced tags

A sequence of tags need not be the tags of a document: an end tag may come too early, or name
the wrong element, or not come at all. A sequence is balanced if it can be taken apart into
elements that lie side by side or inside one another (`Balanced`), which says nothing of an order
in which anything is read.

Read from the left, the same is seen in what is open (`leftOpen`): every end tag has to name the
innermost element that is open, and in the end nothing may be (`balanced_iff_leftOpen`). So there
are two ways to be unbalanced, and no third (`not_balanced_iff`).
-/

namespace SchemaTypings.Markup

/-- **A tag.** -/
inductive Tag where
  /-- A start tag. -/
  | opening (name : String) (attributes : List Attribute)
  /-- A tag that is an element by itself. -/
  | empty (name : String) (attributes : List Attribute)
  /-- An end tag. -/
  | closing (name : String)

namespace Tag

/-- A tag as it is written. -/
def text : Tag → List Char
  | .opening name attributes => startText name attributes
  | .empty name attributes => emptyText name attributes
  | .closing name => endText name

/-- **A tag that can be written**: it has a name, and its attributes have names of their own
each. -/
def Proper : Tag → Prop
  | .opening name attributes => Writable name attributes
  | .empty name attributes => Writable name attributes
  | .closing name => isName name = true

instance : DecidablePred Proper
  | .opening name attributes => inferInstanceAs (Decidable (Writable name attributes))
  | .empty name attributes => inferInstanceAs (Decidable (Writable name attributes))
  | .closing name => inferInstanceAs (Decidable (isName name = true))

/-- **Tags as they are written**, one directly after the other. -/
def textAll (tags : List Tag) : List Char :=
  tags.flatMap text

@[simp] theorem textAll_nil : textAll [] = [] := rfl

@[simp] theorem textAll_cons (t : Tag) (tags : List Tag) :
    textAll (t :: tags) = t.text ++ textAll tags :=
  List.flatMap_cons ..

end Tag

/-! ## Two ways to say it -/

/-- **Balanced tags**: elements side by side, each of one tag, or of a start tag and an end tag of
its name with balanced tags between them. -/
inductive Balanced : List Tag → Prop where
  /-- No tags. -/
  | nil : Balanced []
  /-- An element of one tag comes first. -/
  | empty {name : String} {attributes : List Attribute} {tags : List Tag} (h : Balanced tags) :
      Balanced (.empty name attributes :: tags)
  /-- An element of two tags comes first. -/
  | element {name : String} {attributes : List Attribute} {inside tags : List Tag}
      (hinside : Balanced inside) (h : Balanced tags) :
      Balanced (.opening name attributes :: (inside ++ .closing name :: tags))

/-- What stays open after an end tag: it has to name the innermost element. -/
def closed (name : String) : List String → Option (List String)
  | [] => none
  | innermost :: outer => if innermost = name then some outer else none

/-- **What tags leave open**, the innermost element first, if `opened` was open before them;
nothing can be said once an end tag names another element than the innermost. -/
def leftOpen : List String → List Tag → Option (List String)
  | opened, [] => some opened
  | opened, .opening name _ :: tags => leftOpen (name :: opened) tags
  | opened, .empty _ _ :: tags => leftOpen opened tags
  | opened, .closing name :: tags => (closed name opened).bind fun outer => leftOpen outer tags

theorem closed_eq_some_iff {name : String} {opened outer : List String} :
    closed name opened = some outer ↔ opened = name :: outer := by
  cases opened with
  | nil => simp [closed]
  | cons innermost rest => simp [closed]

theorem closed_eq_none_iff {name : String} {opened : List String} :
    closed name opened = none ↔ opened.head? ≠ some name := by
  cases opened with
  | nil => simp [closed]
  | cons innermost rest => simp [closed]

/-- Tags are met one after another. -/
theorem leftOpen_append (opened : List String) (first second : List Tag) :
    leftOpen opened (first ++ second)
      = (leftOpen opened first).bind fun middle => leftOpen middle second := by
  induction first generalizing opened with
  | nil => rfl
  | cons t first ih =>
    cases t with
    | opening name attributes => exact ih (name :: opened)
    | empty name attributes => exact ih opened
    | closing name =>
      rw [List.cons_append, leftOpen, leftOpen, Option.bind_assoc]
      exact congrArg _ (funext ih)

/-- **Balanced tags leave open what was open.** -/
theorem Balanced.leftOpen_eq {tags : List Tag} (h : Balanced tags) (opened : List String) :
    leftOpen opened tags = some opened := by
  induction h generalizing opened with
  | nil => rfl
  | empty _ ih => exact ih opened
  | @element name _ inside tags _ _ ihinside ih =>
    rw [leftOpen, leftOpen_append, ihinside, Option.bind_some, leftOpen,
      closed_eq_some_iff.mpr rfl, Option.bind_some, ih]

/-- Balanced tags may follow one another. -/
theorem Balanced.append {first second : List Tag} (hfirst : Balanced first)
    (hsecond : Balanced second) : Balanced (first ++ second) := by
  induction hfirst with
  | nil => exact hsecond
  | empty _ ih => exact .empty ih
  | @element name attributes inside tags hinside _ _ ih =>
    rw [List.cons_append, List.append_assoc, List.cons_append]
    exact .element hinside ih

/-- **Tags that close what is open**: for each element in turn its end tag, with balanced tags
before it, and balanced tags at the end. -/
inductive Closes : List String → List Tag → Prop where
  /-- Nothing is left to close. -/
  | nil {tags : List Tag} (h : Balanced tags) : Closes [] tags
  /-- The innermost element is closed first. -/
  | cons {name : String} {opened : List String} {inside after : List Tag}
      (hinside : Balanced inside) (h : Closes opened after) :
      Closes (name :: opened) (inside ++ .closing name :: after)

/-- Balanced tags may come first. -/
theorem Closes.append_left {front tags : List Tag} {opened : List String} (hfront : Balanced front)
    (h : Closes opened tags) : Closes opened (front ++ tags) := by
  cases h with
  | nil h => exact .nil (hfront.append h)
  | cons hinside h =>
    rw [← List.append_assoc]
    exact .cons (hfront.append hinside) h

/-- **What leaves nothing open has closed all that was open.** -/
theorem closes_of_leftOpen {opened : List String} {tags : List Tag}
    (h : leftOpen opened tags = some []) : Closes opened tags := by
  induction tags generalizing opened with
  | nil =>
    cases h
    exact .nil .nil
  | cons t tags ih =>
    cases t with
    | opening name attributes =>
      -- the element is closed before anything that was open, so it stands in front as a whole
      cases ih h with
      | @cons _ _ inside after hinside hafter =>
        have helement : Balanced (.opening name attributes :: (inside ++ [.closing name])) :=
          .element hinside .nil
        have hcloses := hafter.append_left helement
        rwa [List.cons_append, List.append_assoc, List.singleton_append] at hcloses
    | empty name attributes => exact (ih h).append_left (.empty .nil)
    | closing name =>
      obtain ⟨outer, hclosed, hrest⟩ := Option.bind_eq_some_iff.mp h
      cases closed_eq_some_iff.mp hclosed
      exact .cons .nil (ih hrest)

/-- **Tags are balanced exactly if they leave nothing open.** -/
theorem balanced_iff_leftOpen {tags : List Tag} :
    Balanced tags ↔ leftOpen [] tags = some [] := by
  refine ⟨fun h => h.leftOpen_eq [], fun h => ?_⟩
  cases closes_of_leftOpen h with
  | nil h => exact h

instance : DecidablePred Balanced :=
  fun _ => decidable_of_iff _ balanced_iff_leftOpen.symm

/-- Tags that do not match: some end tag names another element than the innermost, or comes when
nothing is open. -/
theorem leftOpen_eq_none_iff {opened : List String} {tags : List Tag} :
    leftOpen opened tags = none ↔ ∃ before name after inner,
      tags = before ++ .closing name :: after ∧ leftOpen opened before = some inner
        ∧ inner.head? ≠ some name := by
  constructor
  · intro h
    induction tags generalizing opened with
    | nil => cases h
    | cons t tags ih =>
      cases t with
      | opening name attributes =>
        obtain ⟨before, wrong, after, inner, rfl, hbefore, hwrong⟩ := ih h
        exact ⟨.opening name attributes :: before, wrong, after, inner, rfl, hbefore, hwrong⟩
      | empty name attributes =>
        obtain ⟨before, wrong, after, inner, rfl, hbefore, hwrong⟩ := ih h
        exact ⟨.empty name attributes :: before, wrong, after, inner, rfl, hbefore, hwrong⟩
      | closing name =>
        rw [leftOpen] at h
        cases hclosed : closed name opened with
        | none => exact ⟨[], name, tags, opened, rfl, rfl, closed_eq_none_iff.mp hclosed⟩
        | some outer =>
          rw [hclosed, Option.bind_some] at h
          obtain ⟨before, wrong, after, inner, rfl, hbefore, hwrong⟩ := ih h
          refine ⟨.closing name :: before, wrong, after, inner, rfl, ?_, hwrong⟩
          rw [leftOpen, hclosed, Option.bind_some, hbefore]
  · rintro ⟨before, name, after, inner, rfl, hbefore, hwrong⟩
    rw [leftOpen_append, hbefore, Option.bind_some, leftOpen, closed_eq_none_iff.mpr hwrong,
      Option.bind_none]

/-- **The ways to be unbalanced**: an end tag that does not match the element opened last and not
closed, or comes when nothing is open, or an element that is never closed. -/
theorem not_balanced_iff {tags : List Tag} :
    ¬ Balanced tags ↔
      (∃ before name after inner, tags = before ++ .closing name :: after
        ∧ leftOpen [] before = some inner ∧ inner.head? ≠ some name)
      ∨ ∃ name outer, leftOpen [] tags = some (name :: outer) := by
  rw [balanced_iff_leftOpen, ← leftOpen_eq_none_iff]
  cases leftOpen [] tags with
  | none => simp
  | some opened =>
    cases opened with
    | nil => simp
    | cons name outer => simp

end SchemaTypings.Markup
