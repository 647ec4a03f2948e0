import SchemaTypings.Proofs.Markup.TagReading
import SchemaTypings.Proofs.Markup.Tree

/-!
# Reading written trees

A tree can be written in many ways: an element without children as one tag or as two, and any
character data between tags. `Written` holds of trees and the texts that write them. Reading
such a text gives the node of the tree or, beyond the limits, the first bound that the tree
passes in the order of the document – nothing else of the text matters
(`parse_of_written`).

The reader keeps the open elements on a stack and attaches an element when its end tag is
met, while `Tree.node` is a recursion. What connects them is `foldlM_step_written`: reading
the text of some trees checks their bounds and attaches their nodes to whatever is open, and
leaves the reader where the text ends.
-/

namespace SchemaTypings.Markup

/-- **The texts that write trees**, one after another. -/
inductive Written : List Tree → List Char → Prop where
  /-- No trees, and no text. -/
  | nil : Written [] []
  /-- Character data stands before what follows. -/
  | data {ts : List Tree} {c : Char} {w : List Char} (hc : c ≠ '<') (h : Written ts w) :
      Written ts (c :: w)
  /-- An element without children is written as one tag. -/
  | empty {tag : String} {attributes : List Attribute} {ts : List Tree} {w : List Char}
      (htag : Writable tag attributes) (h : Written ts w) :
      Written (⟨tag, attributes, []⟩ :: ts) (emptyText tag attributes ++ w)
  /-- An element is written as a start tag, its children and an end tag. -/
  | element {tag : String} {attributes : List Attribute} {children ts : List Tree}
      {inside w : List Char} (htag : Writable tag attributes) (hinside : Written children inside)
      (h : Written ts w) :
      Written (⟨tag, attributes, children⟩ :: ts)
        (startText tag attributes ++ (inside ++ (endText tag ++ w)))

/-- A byte order mark in front is character data, and may be dropped. -/
theorem Written.dropByteOrderMark {ts : List Tree} {w : List Char} (h : Written ts w) :
    Written ts (dropByteOrderMark w) := by
  cases h with
  | nil => exact .nil
  | @data _ c w hc h =>
    by_cases hbom : c = '\uFEFF'
    · subst hbom
      exact h
    · rw [Markup.dropByteOrderMark]
      · exact .data hc h
      · rintro cs heq
        cases heq
        exact hbom rfl
  | empty htag h => exact .empty htag h
  | element htag hinside h => exact .element htag hinside h

/-! ## Refusals -/

/-- The error of a bound that is passed. -/
def refuse : Option LimitExceeded → Except Error Unit
  | some e => .error (.limit e)
  | none => .ok ()

/-- Of two bounds the first one passed is reported. -/
theorem refuse_or (a b : Option LimitExceeded) :
    refuse (a.or b) = (do refuse a; refuse b) := by
  cases a with
  | some e => rfl
  | none => rfl

/-- **The check of a bound** refuses exactly a value that passes it. -/
theorem require_eq_refuse (limits : Limits) (bound : Bound) (value : Nat) :
    limits.require bound value = refuse (limits.excess? bound value) := by
  unfold Limits.require Limits.check Limits.excess?
  by_cases h : limits.maximum bound < value
  · rw [if_pos h, if_pos h]
    rfl
  · rw [if_neg h, if_neg h]
    rfl

namespace Builder

variable (limits : Limits)

/-- **The element of a written tag**: its bounds are checked, and its attributes are those that
were written. -/
theorem element_tagText {tag : String} {attributes : List Attribute}
    (h : Writable tag attributes) (around : Nat) (children : List Tree) :
    element limits around (tagText tag attributes)
      = (do
          refuse (Tree.excess? limits (around + 1) ⟨tag, attributes, children⟩)
          return ⟨tag, attributes, []⟩) := by
  rw [element, tagAttributes_tagText h, tagName_tagText h, String.ofList_toList, Tree.excess?,
    refuse_or, require_eq_refuse]
  cases limits.excess? .depth (around + 1) with
  | some e => rfl
  | none =>
    show (limits.require .attributes attributes.length >>= fun _ => _) = _
    rw [require_eq_refuse]
    rfl

/-- Attaching changes nothing about how many elements are open. -/
@[simp] theorem length_stack_attach (b : Builder) (n : Node) :
    (b.attach n).stack.length = b.stack.length := by
  unfold attach
  split
  · rename_i h
    rw [h]
  · rename_i h
    rw [h]
    rfl

/-- What is attached while an element is open becomes its children. -/
theorem foldl_attach (n : Node) (outer : List Node) (root : Option Node) (ns : List Node) :
    ns.foldl attach ⟨n :: outer, root⟩ = ⟨ns.foldl Node.addChild n :: outer, root⟩ := by
  induction ns generalizing n with
  | nil => rfl
  | cons m ns ih =>
    rw [List.foldl_cons, List.foldl_cons]
    exact ih (n.addChild m)

/-! ## The run of a written text -/

/-- **Reading trees**: the first bound they pass refuses them, and within the limits their
nodes are attached to what is open. -/
def readTrees (b : Builder) (ts : List Tree) : Except Error Builder := do
  refuse (Tree.firstExcessAll? limits (b.stack.length + 1) ts)
  return (Tree.nodes ts).foldl attach b

/-- Trees are read one after another. -/
theorem readTrees_cons (b : Builder) (t : Tree) (ts : List Tree) :
    b.readTrees limits (t :: ts)
      = (do
          refuse (t.firstExcess? limits (b.stack.length + 1))
          (b.attach t.node).readTrees limits ts) := by
  rw [readTrees, readTrees, Tree.firstExcessAll?_cons, refuse_or, length_stack_attach]
  cases t.firstExcess? limits (b.stack.length + 1) with
  | some e => rfl
  | none => rfl

/-- **The end tag of an element closes it.** -/
theorem step_endTag {tag : String} {written : List Char} (h : endName written = tag.toList)
    (position : Nat) {n : Node} (hn : n.tag = tag) (outer : List Node) (root : Option Node) :
    step limits ⟨n :: outer, root⟩ (.endTag written position)
      = .ok ((⟨outer, root⟩ : Builder).attach n) := by
  rw [step, close]
  simp only [h, String.ofList_toList, hn, if_true]

/-- **The run of a written text.** The reader checks the bounds of the trees, attaches their
nodes to what is open, and goes on with what follows the text. -/
theorem foldlM_step_written {ts : List Tree} {w : List Char} (h : Written ts w) (b : Builder)
    (offset : Nat) (rest : List Char) :
    ∃ next, (eventsFrom ⟨offset, w ++ rest⟩).foldlM (step limits) b
      = (do
          let after ← b.readTrees limits ts
          (eventsFrom ⟨next, rest⟩).foldlM (step limits) after) := by
  -- along the writing; the builder is arbitrary, since children are read inside an open element
  induction h generalizing b offset rest with
  | nil => exact ⟨offset, rfl⟩
  | data hc _ ih =>
    obtain ⟨next, hevents⟩ := eventsFrom_cons_of_ne hc offset (_ ++ rest)
    rw [List.cons_append, hevents]
    exact ih b next rest
  | @empty tag attributes ts w htag _ ih =>
    obtain ⟨next, hevents⟩ := eventsFrom_emptyText htag offset (w ++ rest)
    obtain ⟨last, hrest⟩ := ih (b.attach ⟨tag, attributes, []⟩) next rest
    refine ⟨last, ?_⟩
    rw [List.append_assoc, hevents, List.foldlM_cons, step, element_tagText limits htag _ [],
      readTrees_cons, Tree.firstExcess?_eq, Tree.firstExcessAll?_nil, Option.or_none]
    simp only [bind_assoc, pure_bind]
    exact bind_congr fun _ => hrest
  | @element tag attributes children ts inside w htag _ _ ihinside ih =>
    let opened : Builder := { b with stack := ⟨tag, attributes, []⟩ :: b.stack }
    obtain ⟨next, hevents⟩ :=
      eventsFrom_startText htag offset (inside ++ (endText tag ++ w) ++ rest)
    obtain ⟨afterInside, hinside⟩ := ihinside opened next (endText tag ++ (w ++ rest))
    obtain ⟨position, afterEnd, hend⟩ :=
      eventsFrom_endText htag.isName_tag afterInside (w ++ rest)
    obtain ⟨last, hrest⟩ := ih (b.attach (Tree.node ⟨tag, attributes, children⟩)) afterEnd rest
    -- once the children are attached, what is open is the node of the tree
    have hchildren : (Tree.nodes children).foldl attach opened
        = ⟨Tree.node ⟨tag, attributes, children⟩ :: b.stack, b.root⟩ := by
      rw [foldl_attach, Node.foldl_addChild, Tree.node]
    refine ⟨last, ?_⟩
    -- both sides refuse the element itself before anything inside it is looked at
    rw [List.append_assoc, hevents, List.foldlM_cons, step,
      element_tagText limits htag _ children, readTrees_cons, Tree.firstExcess?_eq, refuse_or]
    simp only [bind_assoc, pure_bind]
    refine bind_congr fun _ => ?_
    rw [show inside ++ (endText tag ++ w) ++ rest = inside ++ (endText tag ++ (w ++ rest)) from
      by simp only [List.append_assoc], hinside, readTrees, hchildren]
    simp only [bind_assoc, pure_bind]
    refine bind_congr fun _ => ?_
    rw [hend, List.foldlM_cons, step_endTag limits (endName_of_isName htag.isName_tag)
      position (Tree.tag_node _)]
    exact hrest

end Builder

/-- With nothing open, each element becomes the root in place of the one before it, so the last
one is left. -/
theorem Builder.foldl_attach_top (root : Option Node) (ns : List Node) :
    ns.foldl attach ⟨[], root⟩ = ⟨[], ns.getLast?.or root⟩ := by
  induction ns generalizing root with
  | nil => rfl
  | cons n ns ih =>
    rw [List.foldl_cons, List.getLast?_cons]
    refine (ih (some n)).trans ?_
    cases ns.getLast? with
    | some last => rfl
    | none => rfl

/-- **Reading a text that writes trees** checks the bounds of all of them, in the order of the
text, and gives the node of the last one. -/
theorem parse_written_trees (limits : Limits) {ts : List Tree} {text : String}
    (h : Written ts text.toList) :
    parse limits text
      = (do
          refuse (Tree.firstExcessAll? limits 1 ts)
          return ts.getLast?.map Tree.node) := by
  obtain ⟨next, hrun⟩ := Builder.foldlM_step_written limits h.dropByteOrderMark {} 0 []
  rw [List.append_nil] at hrun
  rw [parse, events, hrun, Builder.readTrees, Builder.foldl_attach_top, Tree.nodes_eq_map,
    List.getLast?_map, Option.or_none]
  simp only [bind_assoc, pure_bind]
  refine bind_congr fun _ => ?_
  rw [eventsFrom_nil]
  rfl

/-- **Reading a written tree**: the first bound it passes refuses it, and within the limits
its node is the root. -/
theorem parse_written (limits : Limits) {t : Tree} {text : String}
    (h : Written [t] text.toList) :
    parse limits text
      = (do
          refuse (t.firstExcess? limits 1)
          return some t.node) := by
  rw [parse_written_trees limits h, Tree.firstExcessAll?_cons, Tree.firstExcessAll?_nil,
    Option.or_none]
  rfl

/-- A written tree is read if it is within the limits. -/
theorem parse_written_of_within {limits : Limits} {t : Tree} {text : String}
    (h : Written [t] text.toList) (hwithin : t.Within limits 1) :
    parse limits text = .ok (some t.node) := by
  rw [parse_written limits h, (Tree.firstExcess?_eq_none_iff limits 1 t).mpr hwithin]
  rfl

/-- **Reading a document is reading its tree.** Within the limits the root is the node of the
tree, however the tree is written. Beyond them the reading fails at the first element, in the
order of the document, that passes a bound: for its depth, or else for its attributes. -/
theorem parse_of_written {t : Tree} {text : String} (h : Written [t] text.toList)
    (limits : Limits) :
    (t.Within limits 1 → parse limits text = .ok (some t.node))
      ∧ (¬ t.Within limits 1 → ∃ before depth e after,
        t.elements 1 = before ++ (depth, e) :: after
          ∧ (∀ p ∈ before,
            p.1 ≤ limits.maxDepth ∧ p.2.attributes.length ≤ limits.maxAttributes)
          ∧ ((limits.maxDepth < depth
              ∧ parse limits text = .error (.limit ⟨.depth, depth, limits.maxDepth⟩))
            ∨ (depth ≤ limits.maxDepth ∧ limits.maxAttributes < e.attributes.length
              ∧ parse limits text
                = .error (.limit ⟨.attributes, e.attributes.length, limits.maxAttributes⟩)))) := by
  rw [parse_written limits h]
  refine ⟨fun hwithin => ?_, fun hbeyond => ?_⟩
  · rw [(Tree.firstExcess?_eq_none_iff limits 1 t).mpr hwithin]
    rfl
  · rw [← Tree.firstExcess?_eq_none_iff, ← ne_eq, Option.ne_none_iff_exists'] at hbeyond
    obtain ⟨excess, hfirst⟩ := hbeyond
    obtain ⟨before, ⟨depth, e⟩, after, helements, he, hbefore⟩ :=
      List.findSome?_eq_some_iff.mp hfirst
    refine ⟨before, depth, e, after, helements,
      fun p hp => (Tree.excess?_eq_none_iff limits p.1 p.2).mp (hbefore p hp), ?_⟩
    rw [hfirst]
    rcases (Tree.excess?_eq_some_iff limits depth e excess).mp he with
      ⟨hdepth, rfl⟩ | ⟨hdepth, hattributes, rfl⟩
    · exact .inl ⟨hdepth, rfl⟩
    · exact .inr ⟨hdepth, hattributes, rfl⟩

/-- A list with a note between two items, within the limits and beyond them. -/
theorem parse_of_written_list :
    parse .default "<l>1.<i t=\"a&amp;b\"/> <n></n>2.<i/></l>"
        = .ok (some ⟨"l", [],
          [("i", .many [⟨"i", [⟨"t", "a&b"⟩], []⟩, ⟨"i", [], []⟩]), ("n", .one ⟨"n", [], []⟩)]⟩)
      ∧ ∃ e, parse { maxAttributes := 0 } "<l>1.<i t=\"a&amp;b\"/> <n></n>2.<i/></l>"
        = .error (.limit e) := by
  let t : Tree := ⟨"l", [], [⟨"i", [⟨"t", "a&b"⟩], []⟩, ⟨"n", [], []⟩, ⟨"i", [], []⟩]⟩
  have hn : Writable "n" [] := ⟨by decide, by decide, by decide⟩
  have hi : Writable "i" [] := ⟨by decide, by decide, by decide⟩
  have hitem : Writable "i" [⟨"t", "a&b"⟩] := ⟨by decide, by decide, by decide⟩
  have hwritten : Written [t] "<l>1.<i t=\"a&amp;b\"/> <n></n>2.<i/></l>".toList :=
    .element ⟨by decide, by decide, by decide⟩
      (.data (by decide) (.data (by decide) (.empty hitem (.data (by decide)
        (.element hn .nil (.data (by decide) (.data (by decide) (.empty hi .nil))))))))
      .nil
  refine ⟨(parse_of_written hwritten .default).1 (by unfold Tree.Within; decide), ?_⟩
  obtain ⟨-, depth, e, -, -, -, h | h⟩ :=
    (parse_of_written hwritten { maxAttributes := 0 }).2 (by unfold Tree.Within; decide)
  · exact ⟨_, h.2⟩
  · exact ⟨_, h.2.2⟩

end SchemaTypings.Markup
