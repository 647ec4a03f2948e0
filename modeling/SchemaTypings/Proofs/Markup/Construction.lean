import Mathlib.Algebra.GroupWithZero.Nat
import SchemaTypings.Proofs.Markup.Measures
import SchemaTypings.Proofs.Markup.Tree

/-!
# Nodes in the making

A node is made in steps: it begins with a tag alone, and then children are added to it and
attributes are set, in any order. Nothing of that order is stored but what an index of it keeps
(`Node.Indexes`): the children by tag, the tags as they first occurred, and for each attribute
the value that was set last, in the place where it was first set.

The way a group is stored changes while a node is made – there is none, then one child, then
several. Seen from the end that is a matter of grouping a list (`Construction.node_eq`), and so
every node that can be made is an index of the steps it was made in (`Construction.indexes`),
and so are the nodes inside it (`Construction.nodes_perm`).
-/

namespace SchemaTypings.Markup

/-! ## Attributes that are set -/

namespace Node

/-- **Setting attributes one after another**, with none before. -/
def settled (set : List Attribute) : List Attribute :=
  set.foldl (fun attributes a => setIn a.name a.value attributes) []

theorem settled_append_singleton (set : List Attribute) (a : Attribute) :
    settled (set ++ [a]) = setIn a.name a.value (settled set) := by
  rw [settled, List.foldl_append]
  rfl

/-- An attribute that is new comes last. -/
theorem setIn_of_not_mem {name : String} {attributes : List Attribute}
    (h : name ∉ attributes.map (·.name)) (value : String) :
    setIn name value attributes = attributes ++ [⟨name, value⟩] := by
  induction attributes with
  | nil => rfl
  | cons a as ih =>
    obtain ⟨hne, hnot⟩ := not_or.mp (mt List.mem_cons.mpr h)
    rw [setIn, if_neg (Ne.symm hne), ih hnot, List.cons_append]

/-- An attribute that is there keeps its place. -/
theorem map_name_setIn_of_mem {name : String} {attributes : List Attribute}
    (h : name ∈ attributes.map (·.name)) (value : String) :
    (setIn name value attributes).map (·.name) = attributes.map (·.name) := by
  induction attributes with
  | nil => exact absurd h List.not_mem_nil
  | cons a as ih =>
    rw [setIn]
    by_cases heq : a.name = name
    · rw [if_pos heq, List.map_cons, List.map_cons, heq]
    · rw [if_neg heq, List.map_cons, List.map_cons,
        ih ((List.mem_cons.mp h).resolve_left fun h' => heq h'.symm)]

/-- A look-up by name looks at the first attribute, and else at the others. -/
theorem find?_name_cons (a : Attribute) (as : List Attribute) (wanted : String) :
    (a :: as).find? (·.name == wanted)
      = if a.name = wanted then some a else as.find? (·.name == wanted) := by
  by_cases h : a.name = wanted
  · rw [if_pos h, List.find?_cons_of_pos (by simpa using h)]
  · rw [if_neg h, List.find?_cons_of_neg (by simpa using h)]

/-- Setting an attribute changes what is found for its name, and for no other. -/
theorem find?_setIn (name value : String) (attributes : List Attribute) (wanted : String) :
    (setIn name value attributes).find? (·.name == wanted)
      = if name = wanted then some ⟨name, value⟩ else attributes.find? (·.name == wanted) := by
  induction attributes with
  | nil => exact find?_name_cons ⟨name, value⟩ [] wanted
  | cons a as ih =>
    rw [setIn]
    by_cases heq : a.name = name
    · rw [if_pos heq, find?_name_cons, find?_name_cons, heq]
      by_cases h : name = wanted
      · rw [if_pos h, if_pos h]
      · rw [if_neg h, if_neg h, if_neg h]
    · rw [if_neg heq, find?_name_cons, find?_name_cons, ih]
      by_cases h : a.name = wanted
      · rw [if_pos h, if_pos h, if_neg fun h' : name = wanted => heq (h.trans h'.symm)]
      · rw [if_neg h, if_neg h]

/-- **Attributes stand in the order in which they were first set**, each of them once. -/
theorem map_name_settled (set : List Attribute) :
    (settled set).map (·.name) = (set.map (·.name)).eraseDups := by
  induction set using List.reverseRec with
  | nil => rfl
  | append_singleton set a ih =>
    rw [settled_append_singleton, List.map_append, List.map_singleton]
    by_cases h : a.name ∈ set.map (·.name)
    · have hold : a.name ∈ (settled set).map (·.name) := by
        rw [ih]
        exact List.mem_eraseDups.mpr h
      rw [eraseDups_append_of_mem h, map_name_setIn_of_mem hold, ih]
    · have hnew : a.name ∉ (settled set).map (·.name) := by
        rw [ih]
        exact fun h' => h (List.mem_eraseDups.mp h')
      rw [eraseDups_append_of_not_mem h, setIn_of_not_mem hnew, List.map_append, ih,
        List.map_singleton]

/-- **What is found for a name is what was set for it last.** -/
theorem find?_settled (set : List Attribute) (name : String) :
    (settled set).find? (·.name == name) = set.reverse.find? (·.name == name) := by
  induction set using List.reverseRec with
  | nil => rfl
  | append_singleton set a ih =>
    rw [settled_append_singleton, find?_setIn, ih, List.reverse_append, List.reverse_singleton,
      List.singleton_append, find?_name_cons]

/-- Attributes with a name of their own each stay as they are. -/
theorem settled_of_nodup {set : List Attribute} (h : (set.map (·.name)).Nodup) :
    settled set = set := by
  induction set using List.reverseRec with
  | nil => rfl
  | append_singleton set a ih =>
    rw [List.map_append, List.map_singleton, List.nodup_append] at h
    obtain ⟨hset, -, hnew⟩ := h
    rw [settled_append_singleton, ih hset,
      setIn_of_not_mem fun hmem => hnew _ hmem _ (List.mem_singleton_self _) rfl]

/-- An attribute with a name of its own is the one that is found for its name. -/
theorem find?_eq_some_of_nodup {attributes : List Attribute}
    (h : (attributes.map (·.name)).Nodup) {a : Attribute} (ha : a ∈ attributes) :
    attributes.find? (·.name == a.name) = some a := by
  induction attributes with
  | nil => exact absurd ha List.not_mem_nil
  | cons b bs ih =>
    obtain ⟨hnot, hnodup⟩ := List.nodup_cons.mp h
    rcases List.mem_cons.mp ha with rfl | ha
    · rw [find?_name_cons, if_pos rfl]
    · have hne : b.name ≠ a.name := fun heq => hnot (List.mem_map.mpr ⟨a, ha, heq.symm⟩)
      rw [find?_name_cons, if_neg hne, ih hnodup ha]

/-! ## Indexes -/

/-- **A node is an index** of the children that were added to it and of the attributes that were
set. -/
structure Indexes (n : Node) (added : List Node) (set : List Attribute) : Prop where
  /-- There is a group for a tag exactly if a child with that tag was added. -/
  mem_tags_iff : ∀ tag, tag ∈ n.groups.map (·.1) ↔ ∃ child ∈ added, child.tag = tag
  /-- The groups stand in the order in which their tags first occurred, each of them once. -/
  tags_eq : n.groups.map (·.1) = (added.map (·.tag)).eraseDups
  /-- A group is a single child if one was added, and otherwise a list of two or more. -/
  one_or_many : ∀ g ∈ n.groups, (∃ child, g.2 = .one child ∧ withTag g.1 added = [child])
    ∨ ∃ children, g.2 = .many children ∧ withTag g.1 added = children ∧ 2 ≤ children.length
  /-- Every child in a group has the tag of the group. -/
  tag_eq : ∀ g ∈ n.groups, ∀ child ∈ g.2.toList, child.tag = g.1
  /-- The children with a tag are those that were added, in the same order. -/
  children_eq : ∀ tag, n.children tag = withTag tag added
  /-- The first child with a tag is the first that was added. -/
  child?_eq : ∀ tag, n.child? tag = (withTag tag added).head?
  /-- No child is lost, and none is kept twice. -/
  sum_length : (n.groups.map (·.2.toList.length)).sum = added.length
  /-- No two attributes have one name. -/
  nodup_names : (n.attributes.map (·.name)).Nodup
  /-- The attributes stand in the order in which they were first set. -/
  names_eq : n.attributes.map (·.name) = (set.map (·.name)).eraseDups
  /-- An attribute has the value that was set for it last. -/
  set_last : ∀ a ∈ n.attributes, set.reverse.find? (·.name == a.name) = some a
  /-- The value that is read for a name is the one that was set for it last. -/
  attribute?_eq : ∀ name,
    n.attribute? name = (set.reverse.find? (·.name == name)).map (·.value)

/-- A group of some children is a single one or a list of two or more. -/
theorem ofList_cases {children : List Node} (h : children ≠ []) :
    (∃ child, Siblings.ofList children = .one child ∧ children = [child])
      ∨ ∃ many, Siblings.ofList children = .many many ∧ children = many ∧ 2 ≤ many.length := by
  match children with
  | [] => exact absurd rfl h
  | [child] => exact .inl ⟨child, rfl, rfl⟩
  | first :: second :: more => exact .inr ⟨_, rfl, rfl, by simp⟩

/-- A group holds the children of its tag, of which there are some. -/
theorem of_mem_grouped {added : List Node} {g : String × Siblings Node} (h : g ∈ grouped added) :
    g.2 = .ofList (withTag g.1 added) ∧ withTag g.1 added ≠ [] := by
  obtain ⟨tag, htag, rfl⟩ := List.mem_map.mp h
  exact ⟨rfl, Node.mem_tags_iff.mp (List.mem_eraseDups.mp htag)⟩

theorem map_tag_grouped (added : List Node) :
    (grouped added).map (·.1) = (added.map (·.tag)).eraseDups := by
  rw [grouped, List.map_map]
  exact List.map_id _

/-- One more child makes the groups longer by one. -/
theorem sum_length_addTo (child : Node) (groups : List (String × Siblings Node)) :
    ((addTo child groups).map (·.2.toList.length)).sum
      = (groups.map (·.2.toList.length)).sum + 1 := by
  induction groups with
  | nil => rfl
  | cons g groups ih =>
    obtain ⟨tag, siblings⟩ := g
    rw [addTo]
    split
    · rw [List.map_cons, List.map_cons, List.sum_cons, List.sum_cons, Siblings.toList_push,
        List.length_append, List.length_singleton, Nat.add_right_comm]
    · rw [List.map_cons, List.map_cons, List.sum_cons, List.sum_cons, ih, Nat.add_assoc]

theorem sum_length_grouped (added : List Node) :
    ((grouped added).map (·.2.toList.length)).sum = added.length := by
  induction added using List.reverseRec with
  | nil => rfl
  | append_singleton added child ih =>
    rw [grouped_append_singleton, sum_length_addTo, ih, List.length_append, List.length_singleton]

/-- **The node with some children is an index of them**, and of its attributes if these are what
is left of those that were set. -/
theorem indexes_ofChildren (tag : String) (set : List Attribute) (added : List Node) :
    (ofChildren tag (settled set) added).Indexes added set where
  mem_tags_iff wanted := by
    show wanted ∈ (grouped added).map (·.1) ↔ _
    rw [map_tag_grouped, List.mem_eraseDups, List.mem_map]
  tags_eq := map_tag_grouped added
  one_or_many g hg := by
    obtain ⟨hgroup, hsome⟩ := of_mem_grouped hg
    rw [hgroup]
    exact ofList_cases hsome
  tag_eq g hg child hchild := by
    rw [(of_mem_grouped hg).1, Siblings.toList_ofList] at hchild
    exact of_decide_eq_true (List.mem_filter.mp hchild).2
  children_eq := children_ofChildren tag (settled set) added
  child?_eq := child?_ofChildren tag (settled set) added
  sum_length := sum_length_grouped added
  nodup_names := by
    show ((settled set).map (·.name)).Nodup
    rw [map_name_settled]
    exact nodup_eraseDups _
  names_eq := map_name_settled set
  set_last a ha := by
    have hnodup : ((settled set).map (·.name)).Nodup := by
      rw [map_name_settled]
      exact nodup_eraseDups _
    rw [← find?_settled]
    exact find?_eq_some_of_nodup hnodup ha
  attribute?_eq name := by
    rw [attribute?_ofChildren, find?_settled]

end Node

/-! ## Constructions -/

/-- **The making of a node**, step by step; the children that are added are made in the same
way. -/
inductive Construction where
  /-- A node with a tag, and with neither attributes nor children. -/
  | new (tag : String)
  /-- One more child is added. -/
  | addChild (c child : Construction)
  /-- An attribute is set. -/
  | setAttribute (c : Construction) (name value : String)

namespace Construction

/-- **The node that is made.** -/
def node : Construction → Node
  | new tag => .empty tag
  | addChild c child => c.node.addChild child.node
  | setAttribute c name value => c.node.setAttribute name value

/-- The tag that the making began with. -/
def tag : Construction → String
  | new tag => tag
  | addChild c _ => c.tag
  | setAttribute c _ _ => c.tag

/-- **The children that were added**, in their order. -/
def added : Construction → List Construction
  | new _ => []
  | addChild c child => c.added ++ [child]
  | setAttribute c _ _ => c.added

/-- **The attributes that were set**, in their order and with repetitions. -/
def set : Construction → List Attribute
  | new _ => []
  | addChild c _ => c.set
  | setAttribute c name value => c.set ++ [⟨name, value⟩]

/-- **The making of everything inside**: of the children, and of what is inside them. -/
def parts : Construction → List Construction
  | new _ => []
  | addChild c child => c.parts ++ child :: child.parts
  | setAttribute c _ _ => c.parts

/-- **The node that is made depends on the two lists alone**, and not on how adding and setting
alternate. -/
theorem node_eq (c : Construction) :
    c.node = .ofChildren c.tag (Node.settled c.set) (c.added.map node) := by
  induction c with
  | new tag => rfl
  | addChild c child ih _ =>
    rw [node, ih, added, List.map_append, List.map_singleton, Node.addChild_ofChildren]
    rfl
  | setAttribute c name value ih =>
    rw [node, ih, set, Node.settled_append_singleton]
    rfl

/-- **Every node that can be made is an index** of what was added to it and set. -/
theorem indexes (c : Construction) : c.node.Indexes (c.added.map node) c.set := by
  rw [c.node_eq]
  exact Node.indexes_ofChildren c.tag c.set (c.added.map node)

/-- The nodes inside a node are those of its parts. -/
theorem inside_perm (c : Construction) : c.node.inside.Perm (c.parts.map node) := by
  induction c with
  | new tag => exact .refl _
  | addChild c child ih ihchild =>
    rw [node, parts, List.map_append, List.map_cons]
    refine (Node.inside_addChild_perm c.node child.node).trans (ih.append ?_)
    rw [Node.nodes_eq]
    exact ihchild.cons _
  | setAttribute c name value ih => exact ih

/-- **The nodes of a tree are the nodes of its parts**, the tree itself first. -/
theorem nodes_perm (c : Construction) : c.node.nodes.Perm ((c :: c.parts).map node) := by
  rw [Node.nodes_eq, List.map_cons]
  exact c.inside_perm.cons _

end Construction

end SchemaTypings.Markup
