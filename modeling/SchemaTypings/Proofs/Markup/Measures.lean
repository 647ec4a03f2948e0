import SchemaTypings.Markup.Node

/-!
# How many nodes, and how high

Two measures of a tree: its nodes, listed as a walk meets them, and its height. What a document
costs is bounded by them, and what is lost of it shows in them. A tree grows in one way only, by
a child that is added to a node, so each measure comes with one lemma that says what adding does
to it.
-/

namespace SchemaTypings.Markup.Node

/-! ## The nodes of a tree -/

/-- **The nodes of a tree**, the tree itself first. -/
def nodes (n : Node) : List Node :=
  (n.walk 0).map Prod.snd

/-- The nodes of the trees that are attached to a node. -/
def inside (n : Node) : List Node :=
  (walkGroups 0 n.groups).map Prod.snd

mutual

/-- How deep a tree lies says nothing of its nodes. -/
theorem map_snd_walk (depth : Nat) : (n : Node) → (n.walk depth).map Prod.snd = n.nodes
  | ⟨tag, attributes, groups⟩ => by
    rw [nodes, walk, walk, List.map_cons, List.map_cons, map_snd_walkGroups (depth + 1),
      map_snd_walkGroups (0 + 1)]

/-- How deep groups lie says nothing of the nodes below them. -/
theorem map_snd_walkGroups (depth : Nat) :
    (groups : List (String × Siblings Node)) →
      (walkGroups depth groups).map Prod.snd = (walkGroups 0 groups).map Prod.snd
  | [] => rfl
  | (_, .one child) :: groups => by
    rw [walkGroups, walkGroups, List.map_append, List.map_append, map_snd_walk, map_snd_walk,
      map_snd_walkGroups depth groups]
  | (_, .many children) :: groups => by
    rw [walkGroups, walkGroups, List.map_append, List.map_append, map_snd_walkAll,
      map_snd_walkGroups depth groups]

/-- How deep trees lie says nothing of their nodes. -/
theorem map_snd_walkAll (depth : Nat) :
    (ns : List Node) → (walkAll depth ns).map Prod.snd = (walkAll 0 ns).map Prod.snd
  | [] => rfl
  | n :: ns => by
    rw [walkAll, walkAll, List.map_append, List.map_append, map_snd_walk, map_snd_walk,
      map_snd_walkAll depth ns]

end

theorem nodes_eq (n : Node) : n.nodes = n :: n.inside := by
  cases n
  rw [nodes, walk, List.map_cons, map_snd_walkGroups]
  rfl

/-- A node without children is its only node. -/
theorem nodes_of_groups_eq_nil {n : Node} (h : n.groups = []) : n.nodes = [n] := by
  rw [nodes_eq, inside, h]
  rfl

theorem walkAll_append (depth : Nat) (ns ms : List Node) :
    walkAll depth (ns ++ ms) = walkAll depth ns ++ walkAll depth ms := by
  induction ns with
  | nil => rfl
  | cons n ns ih => rw [List.cons_append, walkAll, ih, walkAll, List.append_assoc]

/-- A walk does not tell a single child from a list of one. -/
theorem walkGroups_cons (depth : Nat) (tag : String) (siblings : Siblings Node)
    (groups : List (String × Siblings Node)) :
    walkGroups depth ((tag, siblings) :: groups)
      = walkAll depth siblings.toList ++ walkGroups depth groups := by
  cases siblings with
  | one child => rw [walkGroups, Siblings.toList_one, walkAll, walkAll, List.append_nil]
  | many children => rw [walkGroups, Siblings.toList_many]

/-- One more child brings its own nodes, and takes none away. -/
theorem walkGroups_addTo_perm (depth : Nat) (child : Node)
    (groups : List (String × Siblings Node)) :
    (walkGroups depth (addTo child groups)).Perm
      (walkGroups depth groups ++ child.walk depth) := by
  induction groups with
  | nil =>
    rw [addTo, walkGroups_cons, Siblings.toList_one, walkAll, walkAll, List.append_nil]
    exact List.perm_append_comm
  | cons group groups ih =>
    obtain ⟨tag, siblings⟩ := group
    rw [addTo]
    split
    · rw [walkGroups_cons, walkGroups_cons, Siblings.toList_push, walkAll_append, walkAll, walkAll,
        List.append_nil, List.append_assoc, List.append_assoc]
      exact List.perm_append_comm.append_left _
    · rw [walkGroups_cons, walkGroups_cons, List.append_assoc]
      exact ih.append_left _

/-- **Adding a child adds the nodes of the child**, and no others go or come. -/
theorem inside_addChild_perm (n child : Node) :
    (n.addChild child).inside.Perm (n.inside ++ child.nodes) := by
  rw [← map_snd_walk 0 child, inside, inside, ← List.map_append]
  exact (walkGroups_addTo_perm 0 child n.groups).map Prod.snd

/-! ## The height of a tree -/

mutual

/-- **The height of a tree**: how many nodes its longest branch has. -/
def height : Node → Nat
  | ⟨_, _, groups⟩ => heightGroups groups + 1

/-- The height of the highest tree in some groups. -/
def heightGroups : List (String × Siblings Node) → Nat
  | [] => 0
  | (_, .one child) :: groups => max child.height (heightGroups groups)
  | (_, .many children) :: groups => max (heightAll children) (heightGroups groups)

/-- The height of the highest of several trees. -/
def heightAll : List Node → Nat
  | [] => 0
  | n :: ns => max n.height (heightAll ns)

end

/-- **The height of what is attached to a node**: of the highest tree among its children, and
zero without any. -/
def heightBelow (n : Node) : Nat :=
  heightGroups n.groups

theorem height_eq (n : Node) : n.height = n.heightBelow + 1 := by
  cases n
  rw [height]
  rfl

theorem heightAll_append (ns ms : List Node) :
    heightAll (ns ++ ms) = max (heightAll ns) (heightAll ms) := by
  induction ns with
  | nil => rw [List.nil_append, heightAll, Nat.zero_max]
  | cons n ns ih => rw [List.cons_append, heightAll, ih, heightAll, Nat.max_assoc]

/-- A height does not tell a single child from a list of one. -/
theorem heightGroups_cons (tag : String) (siblings : Siblings Node)
    (groups : List (String × Siblings Node)) :
    heightGroups ((tag, siblings) :: groups)
      = max (heightAll siblings.toList) (heightGroups groups) := by
  cases siblings with
  | one child => rw [heightGroups, Siblings.toList_one, heightAll, heightAll, Nat.max_zero]
  | many children => rw [heightGroups, Siblings.toList_many]

theorem heightGroups_addTo (child : Node) (groups : List (String × Siblings Node)) :
    heightGroups (addTo child groups) = max (heightGroups groups) child.height := by
  induction groups with
  | nil =>
    rw [addTo, heightGroups_cons, Siblings.toList_one, heightAll, heightAll, Nat.max_zero,
      Nat.max_comm]
  | cons group groups ih =>
    obtain ⟨tag, siblings⟩ := group
    rw [addTo]
    split
    · rw [heightGroups_cons, heightGroups_cons, Siblings.toList_push, heightAll_append, heightAll,
        heightAll, Nat.max_zero, Nat.max_right_comm]
    · rw [heightGroups_cons, heightGroups_cons, ih, Nat.max_assoc]

/-- **Adding a child** raises a node as far as the child reaches. -/
theorem heightBelow_addChild (n child : Node) :
    (n.addChild child).heightBelow = max n.heightBelow child.height :=
  heightGroups_addTo child n.groups

end SchemaTypings.Markup.Node
