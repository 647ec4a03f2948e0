import SchemaTypings.Proofs.Markup.Balance
import SchemaTypings.Proofs.Markup.Building

/-!
# Reading tags that need not match

A document is refused if its tags are not balanced, wherever that shows and whatever stands
before it (`parse_of_not_balanced`); a tree is built of balanced tags, and of no others
(`parse_tags`). The open elements of the builder are the elements that the tags leave open
(`Builder.foldlM_step_tags`), so the builder fails exactly where the tags cease to match or where
an element is still open at the end.

End tags can also be checked before anything is built, by a reader with a list of its own. The
builder may then take every end tag for a good one, and even let one pass that comes when nothing
is open: the two lists are the same at every moment, so that nothing slips through between them
(`parse_eq_checked`).
-/

namespace SchemaTypings.Markup

/-! ## The elements that tags begin -/

/-- **The elements that tags begin**, each with its depth and without what stands inside it, if
`opened` was open before them. Behind an end tag that does not match there are no depths. -/
def begun : List String → List Tag → List (Nat × Tree)
  | _, [] => []
  | opened, .opening name attributes :: tags =>
    (opened.length + 1, ⟨name, attributes, []⟩) :: begun (name :: opened) tags
  | opened, .empty name attributes :: tags =>
    (opened.length + 1, ⟨name, attributes, []⟩) :: begun opened tags
  | opened, .closing name :: tags =>
    match closed name opened with
    | none => []
    | some outer => begun outer tags

/-- **Tags within limits**: none of the elements that they begin lies too deep, and none has too
many attributes. -/
def TagsWithin (limits : Limits) (tags : List Tag) : Prop :=
  ∀ p ∈ begun [] tags, p.1 ≤ limits.maxDepth ∧ p.2.attributes.length ≤ limits.maxAttributes

instance (limits : Limits) : DecidablePred (TagsWithin limits) :=
  fun tags => inferInstanceAs (Decidable (∀ p ∈ begun [] tags, _))

/-- The first bound that the elements of tags pass, in their order. -/
def firstExcessOf? (limits : Limits) (opened : List String) (tags : List Tag) :
    Option LimitExceeded :=
  (begun opened tags).findSome? fun p => p.2.excess? limits p.1

theorem firstExcessOf?_eq_none_iff {limits : Limits} {tags : List Tag} :
    firstExcessOf? limits [] tags = none ↔ TagsWithin limits tags := by
  rw [firstExcessOf?, List.findSome?_eq_none_iff]
  exact forall₂_congr fun p _ => Tree.excess?_eq_none_iff limits p.1 p.2

theorem firstExcessOf?_opening (limits : Limits) (opened : List String) (name : String)
    (attributes : List Attribute) (tags : List Tag) :
    firstExcessOf? limits opened (.opening name attributes :: tags)
      = (Tree.excess? limits (opened.length + 1) ⟨name, attributes, []⟩).or
        (firstExcessOf? limits (name :: opened) tags) := by
  rw [firstExcessOf?, begun, ← List.singleton_append, List.findSome?_append,
    List.findSome?_singleton, firstExcessOf?]

theorem firstExcessOf?_empty (limits : Limits) (opened : List String) (name : String)
    (attributes : List Attribute) (tags : List Tag) :
    firstExcessOf? limits opened (.empty name attributes :: tags)
      = (Tree.excess? limits (opened.length + 1) ⟨name, attributes, []⟩).or
        (firstExcessOf? limits opened tags) := by
  rw [firstExcessOf?, begun, ← List.singleton_append, List.findSome?_append,
    List.findSome?_singleton, firstExcessOf?]

/-! ## Building from tags -/

namespace Builder

variable (limits : Limits)

/-- What the open elements are called, the innermost first. -/
def openNames (b : Builder) : List String :=
  b.stack.map (·.tag)

/-- Placing an element keeps what the open ones are called. -/
@[simp] theorem openNames_attach (b : Builder) (n : Node) :
    (b.attach n).openNames = b.openNames := by
  obtain ⟨stack, root⟩ := b
  cases stack with
  | nil => rfl
  | cons parent outer => rfl

theorem length_openNames (b : Builder) : b.openNames.length = b.stack.length :=
  List.length_map ..

/-- **An end tag is taken** if it names the innermost open element, and otherwise the markup is at
fault. -/
theorem step_closing {name : String} (h : isName name = true) (b : Builder) (position : Nat) :
    ∃ outcome : Except Fault Builder,
      step limits b (.endTag name.toList position) = outcome.mapError Error.markup
        ∧ outcome.toOption.map openNames = closed name b.openNames := by
  obtain ⟨stack, root⟩ := b
  cases stack with
  | nil => exact ⟨.error _, rfl, rfl⟩
  | cons n outer =>
    rw [openNames, List.map_cons, closed]
    by_cases hname : n.tag = name
    · refine ⟨.ok ((⟨outer, root⟩ : Builder).attach n),
        step_endTag limits (endName_of_isName h) position hname outer root, ?_⟩
      rw [if_pos hname]
      exact congrArg some (openNames_attach ⟨outer, root⟩ n)
    · refine ⟨.error (.reading position (.mismatchedEnd n.tag name)), ?_, (if_neg hname).symm⟩
      rw [step, close]
      simp only [endName_of_isName h, String.ofList_toList, if_neg hname]
      rfl

/-- **The run of written tags.** The first bound that their elements pass refuses them. Within the
limits the builder goes wrong exactly if the tags do not match, and otherwise has open what they
leave open. -/
theorem foldlM_step_tags {tags : List Tag} (h : ∀ t ∈ tags, t.Proper) (b : Builder)
    (offset : Nat) :
    ∃ outcome : Except Fault Builder,
      (eventsFrom ⟨offset, Tag.textAll tags⟩).foldlM (step limits) b
          = (do
              refuse (firstExcessOf? limits b.openNames tags)
              outcome.mapError Error.markup)
        ∧ outcome.toOption.map openNames = leftOpen b.openNames tags := by
  induction tags generalizing b offset with
  | nil =>
    refine ⟨.ok b, ?_, rfl⟩
    rw [Tag.textAll_nil, eventsFrom_nil]
    rfl
  | cons t tags ih =>
    obtain ⟨ht, htags⟩ := List.forall_mem_cons.mp h
    rw [Tag.textAll_cons]
    cases t with
    | opening name attributes =>
      obtain ⟨next, hevents⟩ := eventsFrom_startText ht offset (Tag.textAll tags)
      obtain ⟨outcome, hrun, hopen⟩ :=
        ih htags { b with stack := ⟨name, attributes, []⟩ :: b.stack } next
      refine ⟨outcome, ?_, hopen⟩
      rw [Tag.text, hevents, List.foldlM_cons, step, element_tagText limits ht _ [],
        firstExcessOf?_opening, refuse_or, length_openNames]
      simp only [bind_assoc, pure_bind]
      exact bind_congr fun _ => hrun
    | empty name attributes =>
      obtain ⟨next, hevents⟩ := eventsFrom_emptyText ht offset (Tag.textAll tags)
      obtain ⟨outcome, hrun, hopen⟩ := ih htags (b.attach ⟨name, attributes, []⟩) next
      rw [openNames_attach] at hrun hopen
      refine ⟨outcome, ?_, hopen⟩
      rw [Tag.text, hevents, List.foldlM_cons, step, element_tagText limits ht _ [],
        firstExcessOf?_empty, refuse_or, length_openNames]
      simp only [bind_assoc, pure_bind]
      exact bind_congr fun _ => hrun
    | closing name =>
      obtain ⟨position, next, hevents⟩ := eventsFrom_endText ht offset (Tag.textAll tags)
      obtain ⟨taken, hstep, hclosed⟩ := step_closing limits ht b position
      rw [Tag.text, hevents, List.foldlM_cons, hstep, firstExcessOf?, begun, leftOpen, ← hclosed]
      cases taken with
      -- an end tag that does not match ends the run, whatever tags follow it
      | error cause => exact ⟨.error cause, rfl, rfl⟩
      | ok after => exact ih htags after next

end Builder

/-- The text of tags begins with a bracket, so it has no byte order mark to lose. -/
theorem dropByteOrderMark_textAll (tags : List Tag) :
    dropByteOrderMark (Tag.textAll tags) = Tag.textAll tags := by
  cases tags with
  | nil => rfl
  | cons t tags => cases t <;> rfl

/-- **Reading tags.** The first bound that their elements pass refuses them. Within the limits they
are read without a fault exactly if they are balanced. -/
theorem parse_tags {tags : List Tag} (h : ∀ t ∈ tags, t.Proper) (limits : Limits) :
    ∃ outcome : Except Fault (Option Node),
      parse limits (String.ofList (Tag.textAll tags))
          = (do
              refuse (firstExcessOf? limits [] tags)
              outcome.mapError Error.markup)
        ∧ (outcome.toOption.isSome ↔ Balanced tags) := by
  obtain ⟨outcome, hrun, hopen⟩ := Builder.foldlM_step_tags limits h {} 0
  have hparse : parse limits (String.ofList (Tag.textAll tags))
      = (do
          refuse (firstExcessOf? limits [] tags)
          let b ← outcome.mapError Error.markup
          b.finish) := by
    rw [parse, events, String.toList_ofList, dropByteOrderMark_textAll, hrun, bind_assoc]
    rfl
  rw [balanced_iff_leftOpen, ← show Builder.openNames {} = [] from rfl, ← hopen]
  cases outcome with
  | error cause => exact ⟨.error cause, hparse, by simp [Except.toOption]⟩
  | ok b =>
    obtain ⟨stack, root⟩ := b
    cases stack with
    | nil => exact ⟨.ok root, hparse, by simp [Except.toOption, Builder.openNames]⟩
    | cons n outer =>
      exact ⟨.error (.unclosed n.tag), hparse, by simp [Except.toOption, Builder.openNames]⟩

/-- **Unbalanced tags are refused**, under all limits, and no document is made of a part of them
that is balanced. It is the markup that is at fault if no element passes a limit, and the limit
otherwise. -/
theorem parse_of_not_balanced {tags : List Tag} (hproper : ∀ t ∈ tags, t.Proper)
    (h : ¬ Balanced tags) (limits : Limits) :
    ∃ e, parse limits (String.ofList (Tag.textAll tags)) = .error e
      ∧ (TagsWithin limits tags → e.kind = .markup)
      ∧ (¬ TagsWithin limits tags → e.kind = .limit) := by
  obtain ⟨outcome, hparse, hbalanced⟩ := parse_tags hproper limits
  rw [hparse, ← firstExcessOf?_eq_none_iff]
  cases firstExcessOf? limits [] tags with
  | some excess => exact ⟨.limit excess, rfl, nofun, fun _ => rfl⟩
  | none =>
    cases outcome with
    | ok root => exact absurd (hbalanced.mp rfl) h
    | error cause => exact ⟨.markup cause, rfl, fun _ => rfl, fun hnot => absurd rfl hnot⟩

/-- Elements that cross, and one that is never closed behind them. -/
theorem parse_of_not_balanced_crossing :
    ∃ e, parse .default "<a><b x=\"1\"></a></b><c>" = .error e ∧ e.kind = .markup := by
  let tags : List Tag :=
    [.opening "a" [], .opening "b" [⟨"x", "1"⟩], .closing "a", .closing "b", .opening "c" []]
  have hproper : ∀ t ∈ tags, t.Proper := by decide
  have hcrossing : ¬ Balanced tags := by decide
  obtain ⟨e, hparse, hmarkup, -⟩ := parse_of_not_balanced hproper hcrossing .default
  exact ⟨e, hparse, hmarkup (by decide)⟩

/-! ## Checking end tags beforehand -/

/-- **Events with their end tags checked** by a list of the names that are open. An end tag that
does not match is a fault, and ends the events. -/
def checkEnds : List String → List Event → List Event
  | _, [] => []
  | opened, .startTag content :: es =>
    .startTag content :: checkEnds (String.ofList (tagName content) :: opened) es
  | opened, .emptyTag content :: es => .emptyTag content :: checkEnds opened es
  | [], .endTag written position :: _ =>
    [.fault (.mismatchedEnd "" (String.ofList written)) position]
  | innermost :: outer, .endTag written position :: es =>
    if innermost = String.ofList (Builder.endName written) then
      .endTag written position :: checkEnds outer es
    else
      [.fault (.mismatchedEnd innermost (String.ofList (Builder.endName written))) position]
  | _, .fault cause position :: _ => [.fault cause position]

namespace Builder

variable (limits : Limits)

/-- **A step that checks no end tag**: one that comes while nothing is open is passed over. -/
def uncheckedStep (b : Builder) : Event → Except Error Builder
  | .startTag content => b.step limits (.startTag content)
  | .emptyTag content => b.step limits (.emptyTag content)
  | .endTag _ _ =>
    match b.stack with
    | [] => .ok b
    | n :: outer => .ok (({ b with stack := outer } : Builder).attach n)
  | .fault cause position => b.step limits (.fault cause position)

/-- **Both lists are one.** What is open according to the reader is open in the builder, at every
moment, so checking beforehand finds what the builder would find. -/
theorem foldlM_uncheckedStep_checkEnds (es : List Event) (b : Builder) :
    (checkEnds b.openNames es).foldlM (uncheckedStep limits) b = es.foldlM (step limits) b := by
  induction es generalizing b with
  | nil => rfl
  | cons e es ih =>
    rw [List.foldlM_cons]
    cases e with
    | startTag content =>
      rw [checkEnds, List.foldlM_cons, uncheckedStep, step]
      cases helement : element limits b.stack.length content with
      | error cause => rfl
      | ok n =>
        obtain ⟨-, -, htag, -⟩ := of_element_eq_ok helement
        rw [← htag]
        exact ih { b with stack := n :: b.stack }
    | emptyTag content =>
      rw [checkEnds, List.foldlM_cons, uncheckedStep, step]
      cases element limits b.stack.length content with
      | error cause => rfl
      | ok n =>
        rw [← openNames_attach b n]
        exact ih (b.attach n)
    | endTag written position =>
      obtain ⟨stack, root⟩ := b
      cases stack with
      | nil => rfl
      | cons n outer =>
        rw [openNames, List.map_cons, checkEnds, step, close]
        dsimp only
        by_cases hname : n.tag = String.ofList (endName written)
        · rw [if_pos hname, if_pos hname, List.foldlM_cons]
          have hplaced := ih ((⟨outer, root⟩ : Builder).attach n)
          rw [openNames_attach] at hplaced
          exact hplaced
        · rw [if_neg hname, if_neg hname]
          rfl
    | fault cause position => rfl

end Builder

/-- **Checking end tags beforehand** changes nothing: a document is read as if its events were
checked by a list of their own and then built without a look at the names. -/
theorem parse_eq_checked (limits : Limits) (text : String) :
    parse limits text
      = (do
          let b ← (checkEnds [] (events text)).foldlM (Builder.uncheckedStep limits) {}
          b.finish) := by
  rw [parse, ← Builder.foldlM_uncheckedStep_checkEnds]
  rfl

end SchemaTypings.Markup
