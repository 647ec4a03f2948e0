import SchemaTypings.Proofs.Markup.Building
import SchemaTypings.Proofs.Markup.Construction

/-!
# The trees that events describe

A text need not be the writing of anything for its events to describe trees: a start tag and an
end tag of the same name are an element, and what stands between them are its children. This is
a grammar of events (`Describes`), with no stack and no grouping in it, and it keeps the order of
the document, which nodes do not.

Whenever the reading of a text succeeds, its events describe trees, and the root is the node of
the last of them (`describes_of_parse`). So what is read from any text is an index of elements in
the order of the document (`nodes_are_indexes`), as much as a node that is put together by hand.

What connects the two are the elements that are open. Each of them is a tree that lacks the
children still to come (`Open`), and the builder holds the nodes of these trees at every moment
(`Builder.Follows`).
-/

namespace SchemaTypings.Markup

open Text

/-! ## Attributes of a tag -/

/-- The key of an attribute that is read is none of those that came before. -/
theorem lookup_of_nextAttribute {seen : List (List Char × Nat)} {c next : Cursor}
    {raw : RawAttribute} (h : nextAttribute seen c = .ok (some (raw, next))) :
    seen.lookup raw.name = none := by
  unfold nextAttribute at h
  dsimp only at h
  split at h
  · cases h
  · obtain ⟨⟨name, afterKey⟩, -, h⟩ := exists_of_bind_eq_ok h
    dsimp only at h
    split at h
    · cases h
    · rename_i hnew
      obtain ⟨⟨value, after⟩, -, h⟩ := exists_of_bind_eq_ok h
      cases h
      exact hnew

/-- The keys that are read are none of those that came before, and no two of them are the
same. -/
theorem names_of_attributesFrom {seen : List (List Char × Nat)} {c : Cursor}
    {attributes : List Attribute} (h : attributesFrom seen c = .ok attributes) :
    (∀ a ∈ attributes, seen.lookup a.name.toList = none) ∧ (attributes.map (·.name)).Nodup := by
  fun_induction attributesFrom seen c generalizing attributes with
  | case1 => cases h
  | case2 =>
    cases h
    exact ⟨List.forall_mem_nil _, List.nodup_nil⟩
  | case3 => cases h
  | case4 seen c raw next hfound value hvalue ih =>
    obtain ⟨more, hmore, h⟩ := exists_of_bind_eq_ok h
    cases h
    obtain ⟨hseen, hnodup⟩ := ih hmore
    -- a key read later is neither the one just read nor one of those before it
    have hlater : ∀ a ∈ more, a.name.toList ≠ raw.name ∧ seen.lookup a.name.toList = none := by
      intro a ha
      have hnone := hseen a ha
      rw [List.lookup_cons] at hnone
      by_cases heq : a.name.toList = raw.name
      · rw [beq_iff_eq.mpr heq] at hnone
        cases hnone
      · rw [beq_eq_false_iff_ne.mpr heq] at hnone
        exact ⟨heq, hnone⟩
    refine ⟨List.forall_mem_cons.mpr ⟨?_, fun a ha => (hlater a ha).2⟩,
      List.nodup_cons.mpr ⟨fun hmem => ?_, hnodup⟩⟩
    · rw [String.toList_ofList]
      exact lookup_of_nextAttribute hfound
    · obtain ⟨a, ha, hname⟩ := List.mem_map.mp hmem
      refine (hlater a ha).1 ?_
      rw [hname, String.toList_ofList]

/-- **The attributes of a tag have names of their own each.** -/
theorem nodup_tagAttributes {content : List Char} {attributes : List Attribute}
    (h : tagAttributes content = .ok attributes) : (attributes.map (·.name)).Nodup :=
  (names_of_attributesFrom h).2

/-! ## Trees in events -/

/-- **Events describe trees**, one after another, in the order of the document. -/
inductive Describes : List Event → List Tree → Prop where
  /-- No events describe no trees. -/
  | nil : Describes [] []
  /-- An element of one tag comes first. -/
  | empty {content : List Char} {attributes : List Attribute} {es : List Event} {ts : List Tree}
      (hattributes : tagAttributes content = .ok attributes) (h : Describes es ts) :
      Describes (.emptyTag content :: es) (⟨String.ofList (tagName content), attributes, []⟩ :: ts)
  /-- An element of two tags comes first, with its children between them. -/
  | element {content written : List Char} {position : Nat} {attributes : List Attribute}
      {inside es : List Event} {children ts : List Tree}
      (hattributes : tagAttributes content = .ok attributes)
      (hname : String.ofList (tagName content) = String.ofList (Builder.endName written))
      (hinside : Describes inside children) (h : Describes es ts) :
      Describes (.startTag content :: (inside ++ .endTag written position :: es))
        (⟨String.ofList (tagName content), attributes, children⟩ :: ts)

/-- Trees may follow one another. -/
theorem Describes.append {es fs : List Event} {ts us : List Tree} (h : Describes es ts)
    (hmore : Describes fs us) : Describes (es ++ fs) (ts ++ us) := by
  induction h with
  | nil => exact hmore
  | empty hattributes _ ih => exact .empty hattributes ih
  | @element content written position attributes inside es children ts hattributes hname hinside
      _ _ ih =>
    rw [List.cons_append, List.append_assoc, List.cons_append, List.cons_append]
    exact .element hattributes hname hinside ih

/-- **The elements that are described have attributes with names of their own each**, however
deep they lie. -/
theorem Describes.nodup_names {es : List Event} {ts : List Tree} (h : Describes es ts)
    (depth : Nat) : ∀ p ∈ Tree.elementsAll depth ts, (p.2.attributes.map (·.name)).Nodup := by
  induction h generalizing depth with
  | nil => exact List.forall_mem_nil _
  | empty hattributes _ ih =>
    rw [Tree.elementsAll, Tree.elements, Tree.elementsAll]
    exact List.forall_mem_cons.mpr ⟨nodup_tagAttributes hattributes, ih depth⟩
  | element hattributes _ _ _ ihinside ih =>
    rw [Tree.elementsAll, Tree.elements, List.cons_append, List.forall_mem_cons,
      List.forall_mem_append]
    exact ⟨nodup_tagAttributes hattributes, ihinside (depth + 1), ih depth⟩

/-- **Events leave trees open**: after some complete ones there are elements without an end tag,
the innermost first, each with the children that it has so far. -/
inductive Open : List Event → List Tree → List Tree → Prop where
  /-- No element is open. -/
  | top {es : List Event} {ts : List Tree} (h : Describes es ts) : Open es ts []
  /-- One more element is open. -/
  | inside {content : List Char} {attributes : List Attribute} {es inside : List Event}
      {ts opened children : List Tree} (h : Open es ts opened)
      (hattributes : tagAttributes content = .ok attributes) (hinside : Describes inside children) :
      Open (es ++ .startTag content :: inside) ts
        (⟨String.ofList (tagName content), attributes, children⟩ :: opened)

/-! ## Building along the events -/

/-- A node with a child added to it is that of the tree with one more child. -/
theorem Tree.addChild_node (tag : String) (attributes : List Attribute) (children : List Tree)
    (t : Tree) :
    (Tree.node ⟨tag, attributes, children⟩).addChild t.node
      = Tree.node ⟨tag, attributes, children ++ [t]⟩ := by
  rw [Tree.node, Tree.node, Tree.nodes_eq_map, Tree.nodes_eq_map, List.map_append,
    List.map_singleton, Node.addChild_ofChildren]

namespace Builder

variable {limits : Limits}

/-- The element of a tag that is accepted is the node of a tree without children. -/
theorem exists_of_element_eq_ok {around : Nat} {content : List Char} {n : Node}
    (h : element limits around content = .ok n) :
    ∃ attributes, tagAttributes content = .ok attributes
      ∧ n = Tree.node ⟨String.ofList (tagName content), attributes, []⟩ := by
  obtain ⟨_, -, h⟩ := exists_of_bind_eq_ok h
  obtain ⟨attributes, hattributes, h⟩ := exists_of_bind_eq_ok h
  obtain ⟨_, -, h⟩ := exists_of_bind_eq_ok h
  cases h
  refine ⟨attributes, ?_, rfl⟩
  cases hread : tagAttributes content with
  | error cause =>
    rw [hread] at hattributes
    cases hattributes
  | ok read =>
    rw [hread] at hattributes
    cases hattributes
    rfl

/-- **The builder follows the events**: the open elements are the nodes of the trees that are
open, and the root is the node of the last complete one. -/
def Follows (es : List Event) (b : Builder) : Prop :=
  ∃ ts opened, Open es ts opened ∧ b.stack = opened.map Tree.node
    ∧ b.root = ts.getLast?.map Tree.node

/-- **Placing an element**: the events that describe it are behind those before. -/
theorem Follows.attach {es more : List Event} {b : Builder} {t : Tree} (h : b.Follows es)
    (hmore : Describes more [t]) : (b.attach t.node).Follows (es ++ more) := by
  obtain ⟨stack, root⟩ := b
  obtain ⟨ts, opened, hopen, hstack, hroot⟩ := h
  cases hopen with
  | top hdescribes =>
    cases hstack
    refine ⟨ts ++ [t], [], .top (hdescribes.append hmore), rfl, ?_⟩
    rw [List.getLast?_concat]
    rfl
  | @inside content attributes es inside ts opened children hopen hattributes hinside =>
    cases hstack
    refine ⟨ts, ⟨String.ofList (tagName content), attributes, children ++ [t]⟩ :: opened, ?_, ?_,
      hroot⟩
    · rw [List.append_assoc, List.cons_append]
      exact .inside hopen hattributes (hinside.append hmore)
    · rw [List.map_cons, ← Tree.addChild_node]
      rfl

/-- **Every move follows the events.** -/
theorem Follows.of_moves {es : List Event} {b : Builder} {e : Event} {next : Builder}
    (h : b.Follows es) (hmoves : Moves limits b e next) : next.Follows (es ++ [e]) := by
  cases hmoves with
  | @start content n hn =>
    obtain ⟨attributes, hattributes, rfl⟩ := exists_of_element_eq_ok hn
    obtain ⟨ts, opened, hopen, hstack, hroot⟩ := h
    refine ⟨ts, ⟨String.ofList (tagName content), attributes, []⟩ :: opened,
      .inside hopen hattributes .nil, ?_, hroot⟩
    rw [List.map_cons, hstack]
  | @empty content n hn =>
    obtain ⟨attributes, hattributes, rfl⟩ := exists_of_element_eq_ok hn
    exact h.attach (.empty hattributes .nil)
  | @close written position n outer hstack hname =>
    obtain ⟨ts, opened, hopen, hnodes, hroot⟩ := h
    rw [hstack] at hnodes
    cases hopen with
    | top _ => cases hnodes
    | @inside content attributes es inside ts opened children hopen hattributes hinside =>
      obtain ⟨rfl, houter⟩ := List.cons_eq_cons.mp hnodes
      rw [Tree.tag_node] at hname
      -- the element is complete, and is placed behind the events before its start tag
      have hpopped : Follows es { b with stack := outer } := ⟨ts, opened, hopen, houter, hroot⟩
      have helement : Describes (.startTag content :: (inside ++ [.endTag written position]))
          [⟨String.ofList (tagName content), attributes, children⟩] :=
        .element hattributes hname hinside .nil
      rw [List.append_assoc, List.cons_append]
      exact hpopped.attach helement

end Builder

/-- **The events of a text that is read describe trees**, and the root is the node of the last
one. -/
theorem describes_of_parse {limits : Limits} {text : String} {root : Option Node}
    (h : parse limits text = .ok root) :
    ∃ ts, Describes (events text) ts ∧ root = ts.getLast?.map Tree.node := by
  have hfollows : Builder.Follows (events text) ⟨[], root⟩ :=
    Builder.run_induction ⟨[], [], .top .nil, rfl, rfl⟩ Builder.Follows.of_moves (run_of_parse h)
  obtain ⟨ts, opened, hopen, hstack, hroot⟩ := hfollows
  obtain rfl : opened = [] := List.map_eq_nil_iff.mp hstack.symm
  generalize events text = es at hopen
  cases hopen with
  | top hdescribes => exact ⟨ts, hdescribes, hroot⟩

/-! ## Indexes of what is read -/

/-- The nodes inside a node are those of its children. -/
theorem Node.inside_ofChildren_perm (tag : String) (attributes : List Attribute)
    (children : List Node) :
    (ofChildren tag attributes children).inside.Perm (children.flatMap nodes) := by
  induction children using List.reverseRec with
  | nil => exact .refl _
  | append_singleton children child ih =>
    rw [← addChild_ofChildren, List.flatMap_append, List.flatMap_singleton]
    exact (inside_addChild_perm _ child).trans (ih.append_right _)

namespace Tree

/-- **The nodes of a tree are the nodes of its elements.** -/
theorem nodes_node_perm (t : Tree) (depth : Nat) :
    t.node.nodes.Perm ((t.elements depth).map (·.2.node)) := by
  induction t using Tree.induction generalizing depth with
  | element tag attributes children ih =>
    rw [Node.nodes_eq, elements, List.map_cons]
    refine List.Perm.cons _ ?_
    rw [node_eq]
    refine (Node.inside_ofChildren_perm tag attributes _).trans ?_
    rw [elementsAll_eq_flatMap, List.map_flatMap, List.flatMap_map]
    exact List.Perm.flatMap_left children fun child hchild => ih child hchild (depth + 1)

/-- **The node of an element is an index** of its children and attributes, if these have names of
their own each. -/
theorem indexes_node {t : Tree} (h : (t.attributes.map (·.name)).Nodup) :
    t.node.Indexes (t.children.map node) t.attributes := by
  have hindexes := Node.indexes_ofChildren t.tag t.attributes (t.children.map node)
  rwa [Node.settled_of_nodup h, ← node_eq] at hindexes

end Tree

/-- **Nodes are indexes**, however they come about. A node that is put together is an index of
the children that were added to it and of the attributes that were set, and so is every node
inside it. The root that is read from a text is the node of the last tree that the text
describes; it and the nodes inside it are the nodes of that tree's elements, and each of them is
an index of the children and attributes of its element, in the order of the document. -/
theorem nodes_are_indexes :
    (∀ c : Construction, c.node.nodes.Perm ((c :: c.parts).map Construction.node)
      ∧ ∀ part ∈ c :: c.parts, part.node.Indexes (part.added.map Construction.node) part.set)
    ∧ ∀ (limits : Limits) (text : String) (root : Node), parse limits text = .ok (some root) →
      ∃ before t, Describes (events text) (before ++ [t]) ∧ root = t.node
        ∧ root.nodes.Perm ((t.elements 1).map (·.2.node))
        ∧ ∀ p ∈ t.elements 1, p.2.node.Indexes (p.2.children.map Tree.node) p.2.attributes := by
  refine ⟨fun c => ⟨c.nodes_perm, fun part _ => part.indexes⟩, fun limits text root h => ?_⟩
  obtain ⟨ts, hdescribes, hroot⟩ := describes_of_parse h
  obtain ⟨t, hlast, rfl⟩ := Option.map_eq_some_iff.mp hroot.symm
  obtain ⟨before, rfl⟩ := List.getLast?_eq_some_iff.mp hlast
  refine ⟨before, t, hdescribes, rfl, t.nodes_node_perm 1, fun p hp => Tree.indexes_node ?_⟩
  refine hdescribes.nodup_names 1 p ?_
  rw [Tree.elementsAll_eq_flatMap]
  exact List.mem_flatMap.mpr ⟨t, List.mem_append_right _ (List.mem_singleton_self t), hp⟩

/-- A list whose items stand on both sides of a note, put together and read from a text. -/
theorem nodes_are_indexes_list :
    let c : Construction := .setAttribute (.addChild (.addChild (.addChild
      (.setAttribute (.new "l") "a" "1") (.new "i")) (.new "n")) (.new "i")) "a" "2"
    let root : Node := ⟨"l", [⟨"a", "2"⟩],
      [("i", .many [.empty "i", .empty "i"]), ("n", .one (.empty "n"))]⟩
    (c.node = root ∧ root.Indexes [.empty "i", .empty "n", .empty "i"] [⟨"a", "1"⟩, ⟨"a", "2"⟩])
      ∧ parse .default "<l a=\"2\"><i/><n/><i/></l>" = .ok (some root)
      ∧ ∃ before t, Describes (events "<l a=\"2\"><i/><n/><i/></l>") (before ++ [t])
        ∧ root = t.node ∧ root.nodes.Perm ((t.elements 1).map (·.2.node))
        ∧ ∀ p ∈ t.elements 1, p.2.node.Indexes (p.2.children.map Tree.node) p.2.attributes := by
  intro c root
  let t : Tree := ⟨"l", [⟨"a", "2"⟩], [⟨"i", [], []⟩, ⟨"n", [], []⟩, ⟨"i", [], []⟩]⟩
  have hwritten : Written [t] "<l a=\"2\"><i/><n/><i/></l>".toList :=
    .element (by decide) (.empty (by decide) (.empty (by decide) (.empty (by decide) .nil))) .nil
  have hparse : parse .default "<l a=\"2\"><i/><n/><i/></l>" = .ok (some root) :=
    parse_written_of_within hwritten (by unfold Tree.Within; decide)
  exact ⟨⟨rfl, (nodes_are_indexes.1 c).2 c List.mem_cons_self⟩, hparse,
    nodes_are_indexes.2 _ _ _ hparse⟩

end SchemaTypings.Markup
