import SchemaTypings.Proofs.Markup.Building
import SchemaTypings.Proofs.Markup.Measures
import SchemaTypings.Proofs.Markup.TreeReading

/-!
# Top-level elements

A document has one root, but nothing in the reading of a text asks for that. An element that is
closed with nothing around it becomes the root, and it takes the place of the root before it. So
the tree of a text is that of its last top-level element, and it holds one node for each tag of
that element (`parse_count`): all tags of the text if there is no other top-level element, and
fewer if there is one. The text is not refused for it (`parse_written_trees`).

Which tags are whose is a matter of counting (`Tally`), for which no tree is needed. While the
tags are counted the tree is built, and the two agree after every event.
-/

namespace SchemaTypings.Markup

/-! ## Counting tags -/

/-- Whether an event begins an element. -/
def Event.isTag : Event → Bool
  | .startTag _ => true
  | .emptyTag _ => true
  | .endTag _ _ => false
  | .fault _ _ => false

/-- **A tally of tags**, kept without building anything. -/
structure Tally where
  /-- How many elements are open. -/
  depth : Nat := 0
  /-- How many top-level elements have begun. -/
  roots : Nat := 0
  /-- How many tags begin elements of those top-level elements that another one follows. -/
  earlier : Nat := 0
  /-- How many tags begin elements of the last top-level element. -/
  last : Nat := 0
deriving DecidableEq, Repr

namespace Tally

/-- One more tag that begins an element. With nothing open, that is a top-level element. -/
def begin (t : Tally) : Tally :=
  if t.depth = 0 then { t with roots := t.roots + 1, earlier := t.earlier + t.last, last := 1 }
  else { t with last := t.last + 1 }

/-- **One more event.** -/
def step (t : Tally) : Event → Tally
  | .startTag _ => { t.begin with depth := t.depth + 1 }
  | .emptyTag _ => t.begin
  | .endTag _ _ => { t with depth := t.depth - 1 }
  | .fault _ _ => t

@[simp] theorem depth_begin (t : Tally) : t.begin.depth = t.depth := by
  unfold begin
  split <;> rfl

theorem begin_of_depth_eq_zero {t : Tally} (h : t.depth = 0) :
    t.begin = { t with roots := t.roots + 1, earlier := t.earlier + t.last, last := 1 } :=
  if_pos h

theorem begin_of_depth_ne_zero {t : Tally} (h : t.depth ≠ 0) :
    t.begin = { t with last := t.last + 1 } :=
  if_neg h

/-- The element that begins is one of those of the last top-level element. -/
theorem one_le_last_begin (t : Tally) : 1 ≤ t.begin.last := by
  unfold begin
  split
  · exact Nat.le_refl 1
  · exact Nat.le_add_left 1 _

/-- Its tag is counted once. -/
theorem earlier_add_last_begin (t : Tally) :
    t.begin.earlier + t.begin.last = t.earlier + t.last + 1 := by
  unfold begin
  split
  · rfl
  · exact (Nat.add_assoc ..).symm

end Tally

/-- **The tally of some events.** -/
def tally (es : List Event) : Tally :=
  es.foldl Tally.step {}

theorem tally_append_singleton (es : List Event) (e : Event) :
    tally (es ++ [e]) = (tally es).step e := by
  rw [tally, List.foldl_append]
  rfl

namespace Tally

/-- **A tally that adds up**: a top-level element begins with a tag, so there are earlier tags
exactly if there are several of them. -/
structure Sound (t : Tally) : Prop where
  /-- Where no element has begun, none is open and none has tags. -/
  of_no_root : t.roots = 0 → t.depth = 0 ∧ t.last = 0
  /-- The last top-level element begins with a tag of its own. -/
  one_le_last : t.roots ≠ 0 → 1 ≤ t.last
  /-- There are earlier tags exactly if there are several top-level elements. -/
  earlier_eq_zero_iff : t.earlier = 0 ↔ t.roots ≤ 1

/-- A tag that begins an element keeps a tally sound. -/
theorem Sound.begin {t : Tally} (h : t.Sound) : t.begin.Sound := by
  obtain ⟨hnone, hone, hearlier⟩ := h
  have hlast := t.one_le_last_begin
  by_cases hdepth : t.depth = 0
  · rw [begin_of_depth_eq_zero hdepth] at hlast ⊢
    refine ⟨fun hroots => absurd hroots (Nat.succ_ne_zero _), fun _ => hlast, ?_⟩
    show t.earlier + t.last = 0 ↔ t.roots + 1 ≤ 1
    omega
  · rw [begin_of_depth_ne_zero hdepth] at hlast ⊢
    exact ⟨fun hroots => absurd (hnone hroots).1 hdepth, fun _ => hlast, hearlier⟩

/-- **Every tally is sound.** -/
theorem sound_tally (es : List Event) : (tally es).Sound := by
  induction es using List.reverseRec with
  | nil => exact ⟨fun _ => ⟨rfl, rfl⟩, fun h => absurd rfl h, by decide⟩
  | append_singleton es e ih =>
    rw [tally_append_singleton]
    cases e with
    | startTag content =>
      obtain ⟨hnone, hone, hearlier⟩ := ih.begin
      refine ⟨fun hroots => ?_, hone, hearlier⟩
      -- a tag has just begun an element, so there is a root
      have hlast := (tally es).one_le_last_begin
      have hzero := (hnone hroots).2
      omega
    | emptyTag content => exact ih.begin
    | endTag written position =>
      refine ⟨fun hroots => ?_, ih.one_le_last, ih.earlier_eq_zero_iff⟩
      obtain ⟨hdepth, hlast⟩ := ih.of_no_root hroots
      exact ⟨by show (tally es).depth - 1 = 0; omega, hlast⟩
    | fault cause position => exact ih

/-- **No tag is left out of a tally.** -/
theorem earlier_add_last_tally (es : List Event) :
    (tally es).earlier + (tally es).last = es.countP Event.isTag := by
  induction es using List.reverseRec with
  | nil => rfl
  | append_singleton es e ih =>
    rw [tally_append_singleton, List.countP_append, ← ih]
    cases e with
    | startTag content => exact (tally es).earlier_add_last_begin
    | emptyTag content => exact (tally es).earlier_add_last_begin
    | endTag written position => rfl
    | fault cause position => rfl

end Tally

/-! ## Nodes and tags -/

/-- The nodes of a tree that may be absent. -/
def nodeCount (root : Option Node) : Nat :=
  (root.toList.flatMap Node.nodes).length

namespace Builder

/-- **The nodes of the top-level element that is being read**, or was read last if none is open. -/
def current (b : Builder) : List Node :=
  match b.stack with
  | [] => b.root.toList.flatMap Node.nodes
  | n :: outer => (n :: outer).flatMap Node.nodes

/-- Placing an element adds its nodes to those around it. -/
theorem length_current_attach (b : Builder) (n : Node) :
    (b.attach n).current.length = (b.stack.flatMap Node.nodes).length + n.nodes.length := by
  obtain ⟨stack, root⟩ := b
  cases stack with
  | nil =>
    show ([n].flatMap Node.nodes).length = 0 + n.nodes.length
    rw [List.flatMap_singleton, Nat.zero_add]
  | cons parent outer =>
    show ((parent.addChild n :: outer).flatMap Node.nodes).length
      = ((parent :: outer).flatMap Node.nodes).length + n.nodes.length
    have hinside := (Node.inside_addChild_perm parent n).length_eq
    rw [List.length_append] at hinside
    rw [List.flatMap_cons, List.flatMap_cons, Node.nodes_eq, Node.nodes_eq parent,
      List.length_append, List.length_append, List.length_cons, List.length_cons, hinside]
    omega

/-- **The tree keeps up with the tally.** -/
structure Counted (es : List Event) (b : Builder) : Prop where
  /-- As many elements are open as are counted. -/
  depth_eq : (tally es).depth = b.stack.length
  /-- There is one node for each tag of the last top-level element. -/
  last_eq : (tally es).last = b.current.length

/-- A tag brings one node, and a first one if nothing is open. -/
theorem Counted.last_begin {es : List Event} {b : Builder} (h : Counted es b) :
    (tally es).begin.last = (b.stack.flatMap Node.nodes).length + 1 := by
  obtain ⟨stack, root⟩ := b
  obtain ⟨hdepth, hlast⟩ := h
  cases stack with
  | nil => rw [Tally.begin_of_depth_eq_zero hdepth, List.flatMap_nil, List.length_nil]
  | cons n outer =>
    rw [Tally.begin_of_depth_ne_zero (by rw [hdepth]; exact Nat.succ_ne_zero _), hlast]
    rfl

/-- **Every move is counted.** -/
theorem Counted.of_moves {limits : Limits} {es : List Event} {b : Builder} {e : Event}
    {next : Builder} (h : Counted es b) (hmoves : Moves limits b e next) :
    Counted (es ++ [e]) next := by
  have hlast := h.last_begin
  constructor
  · rw [tally_append_singleton]
    cases hmoves with
    | start hn => exact congrArg (· + 1) h.depth_eq
    | empty hn =>
      rw [length_stack_attach, ← h.depth_eq]
      exact (tally es).depth_begin
    | close hstack hname =>
      rw [length_stack_attach, Tally.step, h.depth_eq, hstack]
      rfl
  · rw [tally_append_singleton]
    cases hmoves with
    | @start content n hn =>
      obtain ⟨-, -, -, hgroups⟩ := of_element_eq_ok hn
      show (tally es).begin.last = ((n :: b.stack).flatMap Node.nodes).length
      rw [hlast, List.flatMap_cons, List.length_append, Node.nodes_of_groups_eq_nil hgroups,
        List.length_singleton, Nat.add_comm]
    | @empty content n hn =>
      obtain ⟨-, -, -, hgroups⟩ := of_element_eq_ok hn
      show (tally es).begin.last = (b.attach n).current.length
      rw [hlast, length_current_attach, Node.nodes_of_groups_eq_nil hgroups,
        List.length_singleton]
    | @close written position n outer hstack hname =>
      show (tally es).last = (Builder.attach { b with stack := outer } n).current.length
      rw [length_current_attach, h.last_eq, current, hstack]
      dsimp only
      rw [List.flatMap_cons, List.length_append, Nat.add_comm]

end Builder

/-- **The tree of a text holds one node for each tag of its last top-level element**, and none
for the tags of those before it. So there is one node for each tag of the text exactly if it has
no second top-level element. -/
theorem parse_count {limits : Limits} {text : String} {root : Option Node}
    (h : parse limits text = .ok root) :
    nodeCount root + (tally (events text)).earlier = (events text).countP Event.isTag
      ∧ (nodeCount root = (events text).countP Event.isTag
        ↔ (tally (events text)).roots ≤ 1) := by
  have hcounted : Builder.Counted (events text) ⟨[], root⟩ :=
    Builder.run_induction ⟨rfl, rfl⟩ Builder.Counted.of_moves (run_of_parse h)
  have hlast : (tally (events text)).last = nodeCount root := hcounted.last_eq
  have htotal := Tally.earlier_add_last_tally (events text)
  have hearlier := (Tally.sound_tally (events text)).earlier_eq_zero_iff
  rw [hlast] at htotal
  omega

/-- Three tags are read, and the node of the last one is left. -/
theorem parse_count_two_roots :
    nodeCount (some ⟨"c", [], []⟩) + (tally (events "<a><b/></a><c/>")).earlier
        = (events "<a><b/></a><c/>").countP Event.isTag
      ∧ (nodeCount (some ⟨"c", [], []⟩) = (events "<a><b/></a><c/>").countP Event.isTag
        ↔ (tally (events "<a><b/></a><c/>")).roots ≤ 1) := by
  let ts : List Tree := [⟨"a", [], [⟨"b", [], []⟩]⟩, ⟨"c", [], []⟩]
  have hwritten : Written ts "<a><b/></a><c/>".toList :=
    .element (by decide) (.empty (by decide) .nil) (.empty (by decide) .nil)
  have hparse : parse .default "<a><b/></a><c/>" = .ok (some ⟨"c", [], []⟩) :=
    parse_written_trees .default hwritten
  exact parse_count hparse

/-- **A text with two top-level elements is read as its last one**, and a tag is left without a
node. -/
theorem parse_drops_first_root :
    parse .default "<a/><b/>" = .ok (some ⟨"b", [], []⟩)
      ∧ (tally (events "<a/><b/>")).roots = 2
      ∧ nodeCount (some ⟨"b", [], []⟩) < (events "<a/><b/>").countP Event.isTag := by
  have ha : Writable "a" [] := by decide
  have hb : Writable "b" [] := by decide
  have hevents : events "<a/><b/>" = [.emptyTag (tagText "a" []), .emptyTag (tagText "b" [])] := by
    obtain ⟨next, hfirst⟩ := eventsFrom_emptyText ha 0 (emptyText "b" [])
    obtain ⟨last, hsecond⟩ := eventsFrom_emptyText hb next []
    rw [List.append_nil, eventsFrom_nil] at hsecond
    rw [hsecond] at hfirst
    exact hfirst
  rw [hevents]
  have hwritten : Written [⟨"a", [], []⟩, ⟨"b", [], []⟩] "<a/><b/>".toList :=
    .empty ha (.empty hb .nil)
  exact ⟨parse_written_trees .default hwritten, rfl, by decide⟩

end SchemaTypings.Markup
