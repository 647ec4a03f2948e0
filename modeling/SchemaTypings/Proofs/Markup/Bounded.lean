import SchemaTypings.Proofs.Markup.Building
import SchemaTypings.Proofs.Markup.Measures

/-!
# Building within limits

The limits are checked tag by tag, while the tree grows from the leaves: an element is attached
only when it is closed, and by then everything inside it is attached to it. That the tree stays
within the limits all the same is an invariant of the builder (`Builder.Bounded`). It counts how
many elements stand around an open one together with how high the trees are that are attached to
it, so that closing an element moves height from one part of the sum to the other.

Nothing is asked of the document. Every event that is read keeps the invariant
(`Builder.Bounded.of_moves`), so it holds of everything that is built on the way
(`Builder.bounded_of_run`), also where the reading ends in an error.
-/

namespace SchemaTypings.Markup

/-- **A tree with few attributes**: none of its nodes has more than the limits allow. -/
def Node.AttributesWithin (limits : Limits) (n : Node) : Prop :=
  ∀ m ∈ n.nodes, m.attributes.length ≤ limits.maxAttributes

/-- Adding a child leaves few attributes if both trees have few. -/
theorem Node.AttributesWithin.addChild {limits : Limits} {n child : Node}
    (h : n.AttributesWithin limits) (hchild : child.AttributesWithin limits) :
    (n.addChild child).AttributesWithin limits := by
  intro m hm
  rw [AttributesWithin, nodes_eq, List.forall_mem_cons] at h
  rw [nodes_eq, List.mem_cons, (inside_addChild_perm n child).mem_iff, List.mem_append] at hm
  rcases hm with rfl | hinside | hnew
  · exact h.1
  · exact h.2 m hinside
  · exact hchild m hnew

namespace Builder

variable {limits : Limits}

/-- **A tree under construction within limits.** -/
structure Bounded (limits : Limits) (b : Builder) : Prop where
  /-- No more elements are open than may be nested. -/
  length_stack : b.stack.length ≤ limits.maxDepth
  /-- The place of an open element, counted from the outermost, and the height of what is
  attached to it stay within the depth together. -/
  height_open : ∀ n outer, n :: outer <:+ b.stack →
    outer.length + 1 + n.heightBelow ≤ limits.maxDepth
  /-- The root is not higher than elements may be nested. -/
  height_root : ∀ n ∈ b.root, n.height ≤ limits.maxDepth
  /-- No node that has been built and is there has too many attributes. -/
  attributes : ∀ n ∈ b.stack ++ b.root.toList, n.AttributesWithin limits

namespace Bounded

/-- Nothing is open before anything is read. -/
theorem start : Bounded limits {} where
  length_stack := Nat.zero_le _
  height_open := fun _ _ h => absurd (List.suffix_nil.mp h) (List.cons_ne_nil _ _)
  height_root := fun _ h => absurd h (Option.not_mem_none _)
  attributes := fun _ h => absurd h List.not_mem_nil

/-- **Opening an element**, as deep as the limits allow. -/
theorem push {b : Builder} (h : b.Bounded limits) {n : Node}
    (hdepth : b.stack.length + 1 + n.heightBelow ≤ limits.maxDepth)
    (hattributes : n.AttributesWithin limits) :
    Bounded limits { b with stack := n :: b.stack } where
  length_stack := Nat.le_trans (Nat.le_add_right _ _) hdepth
  height_open := by
    intro m outer hm
    rcases List.suffix_cons_iff.mp hm with heq | hm
    · cases heq
      exact hdepth
    · exact h.height_open m outer hm
  height_root := h.height_root
  attributes := List.forall_mem_cons.mpr ⟨hattributes, h.attributes⟩

/-- Taking the innermost element off. -/
theorem pop {n : Node} {outer : List Node} {root : Option Node}
    (h : Bounded limits ⟨n :: outer, root⟩) : Bounded limits ⟨outer, root⟩ where
  length_stack := Nat.le_trans (Nat.le_succ _) h.length_stack
  height_open := fun m more hm => h.height_open m more (hm.trans (List.suffix_cons n outer))
  height_root := h.height_root
  attributes := (List.forall_mem_cons.mp h.attributes).2

/-- **Placing an element** that fits under those that are open. -/
theorem attach {b : Builder} (h : b.Bounded limits) {n : Node}
    (hheight : b.stack.length + n.height ≤ limits.maxDepth)
    (hattributes : n.AttributesWithin limits) : Bounded limits (b.attach n) := by
  obtain ⟨stack, root⟩ := b
  cases stack with
  | nil =>
    show Bounded limits ⟨[], some n⟩
    refine ⟨h.length_stack, h.height_open, fun m hm => ?_, List.forall_mem_singleton.mpr hattributes⟩
    cases hm
    rwa [List.length_nil, Nat.zero_add] at hheight
  | cons parent outer =>
    have hparent := h.attributes parent List.mem_cons_self
    have hopen := h.height_open parent outer (List.suffix_refl _)
    rw [List.length_cons] at hheight
    -- the parent is opened anew, with the element attached to it
    refine h.pop.push ?_ (hparent.addChild hattributes)
    show outer.length + 1 + (parent.addChild n).heightBelow ≤ limits.maxDepth
    rw [Node.heightBelow_addChild, ← Nat.add_max_add_left]
    exact Nat.max_le.mpr ⟨hopen, hheight⟩

/-- **Every move stays within the limits.** -/
theorem of_moves {b next : Builder} {e : Event} (h : b.Bounded limits)
    (hmoves : Moves limits b e next) : next.Bounded limits := by
  -- the element that a tag begins has nothing inside it
  have hnew : ∀ {content n}, element limits b.stack.length content = .ok n →
      b.stack.length + 1 ≤ limits.maxDepth ∧ n.heightBelow = 0 ∧ n.AttributesWithin limits := by
    intro content n hn
    obtain ⟨hdepth, hattributes, -, hgroups⟩ := of_element_eq_ok hn
    refine ⟨hdepth, by rw [Node.heightBelow, hgroups, Node.heightGroups], ?_⟩
    rw [Node.AttributesWithin, Node.nodes_of_groups_eq_nil hgroups]
    exact List.forall_mem_singleton.mpr hattributes
  cases hmoves with
  | start hn =>
    obtain ⟨hdepth, hbelow, hattributes⟩ := hnew hn
    refine h.push ?_ hattributes
    rwa [hbelow]
  | empty hn =>
    obtain ⟨hdepth, hbelow, hattributes⟩ := hnew hn
    refine h.attach ?_ hattributes
    rwa [Node.height_eq, hbelow]
  | @close _ _ n outer hstack _ =>
    obtain ⟨stack, root⟩ := b
    cases hstack
    have hopen := h.height_open n outer (List.suffix_refl _)
    refine h.pop.attach ?_ (h.attributes n List.mem_cons_self)
    show outer.length + n.height ≤ limits.maxDepth
    rw [Node.height_eq]
    omega

end Bounded

/-- **Whatever is read, what is built is within the limits.** -/
theorem bounded_of_run {es : List Event} {b : Builder}
    (h : es.foldlM (step limits) {} = .ok b) : b.Bounded limits :=
  run_induction (motive := fun _ b => b.Bounded limits) Bounded.start Bounded.of_moves h

end Builder

/-- **A tree that is returned is within the limits.** -/
theorem bounds_of_parse {limits : Limits} {text : String} {root : Node}
    (h : parse limits text = .ok (some root)) :
    root.height ≤ limits.maxDepth ∧ root.AttributesWithin limits := by
  have hbounded := Builder.bounded_of_run (run_of_parse h)
  exact ⟨hbounded.height_root root rfl, hbounded.attributes root List.mem_cons_self⟩

end SchemaTypings.Markup
