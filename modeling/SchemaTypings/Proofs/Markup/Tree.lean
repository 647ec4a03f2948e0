import SchemaTypings.Markup.Document
import SchemaTypings.Proofs.Markup.Grouping

/-!
# Ordered trees

What a document says, before anything is read from it: elements inside elements, each with
its attributes and its children in the order in which they are written. A `Tree` is the other
side of every statement about reading a document.

* `Tree.node` is the node that stands for a tree. It is a recursion on the tree and knows
  nothing of open elements or of a stack.
* `Tree.elements` lists the elements of a tree in the order of the document, each with its
  depth. The bounds of a document are bounds on this list (`Tree.Within`), and a document
  beyond them is refused for the first bound passed in its order (`Tree.firstExcess?`).
-/

namespace SchemaTypings

/-- **The bound that a value passes**, if it does. -/
def Limits.excess? (limits : Limits) (bound : Bound) (value : Nat) : Option LimitExceeded :=
  if limits.maximum bound < value then some ⟨bound, value, limits.maximum bound⟩ else none

theorem Limits.excess?_eq_none_iff (limits : Limits) (bound : Bound) (value : Nat) :
    limits.excess? bound value = none ↔ value ≤ limits.maximum bound := by
  unfold Limits.excess?
  by_cases h : limits.maximum bound < value
  · simp [h]
  · simp [h, Nat.not_lt.mp h]

theorem Limits.excess?_eq_some_iff (limits : Limits) (bound : Bound) (value : Nat)
    (e : LimitExceeded) :
    limits.excess? bound value = some e
      ↔ limits.maximum bound < value ∧ e = ⟨bound, value, limits.maximum bound⟩ := by
  unfold Limits.excess?
  by_cases h : limits.maximum bound < value
  · rw [if_pos h, Option.some.injEq]
    exact ⟨fun heq => ⟨h, heq.symm⟩, fun heq => heq.2.symm⟩
  · rw [if_neg h]
    exact ⟨fun heq => absurd heq (by simp), fun heq => absurd heq.1 h⟩

namespace Markup

/-- **An element of a document**, with its children in the order in which they are written. -/
structure Tree where
  /-- The element's tag. -/
  tag : String
  /-- The attributes, in the order in which they are written. -/
  attributes : List Attribute
  /-- The children, in the order in which they are written. -/
  children : List Tree

namespace Tree

/-- **Induction on trees**: what holds of an element if it holds of its children holds of every
tree. -/
theorem induction {motive : Tree → Prop}
    (element : ∀ (tag : String) (attributes : List Attribute) (children : List Tree),
      (∀ child ∈ children, motive child) → motive ⟨tag, attributes, children⟩)
    (t : Tree) : motive t := by
  match t with
  | ⟨tag, attributes, children⟩ =>
    exact element tag attributes children fun child hchild => induction element child

mutual

/-- **The node of a tree**: its attributes as they are, its children grouped. -/
def node : Tree → Node
  | ⟨tag, attributes, children⟩ => .ofChildren tag attributes (nodes children)

/-- The nodes of several trees. -/
def nodes : List Tree → List Node
  | [] => []
  | t :: ts => t.node :: nodes ts

end

theorem nodes_eq_map (ts : List Tree) : nodes ts = ts.map node := by
  induction ts with
  | nil => rfl
  | cons t ts ih => rw [nodes, ih, List.map_cons]

theorem node_eq (t : Tree) : t.node = .ofChildren t.tag t.attributes (t.children.map node) := by
  cases t
  rw [node, nodes_eq_map]

@[simp] theorem tag_node (t : Tree) : t.node.tag = t.tag := by
  rw [node_eq, Node.tag_ofChildren]

@[simp] theorem attribute?_node (t : Tree) (name : String) :
    t.node.attribute? name = (t.attributes.find? (·.name == name)).map (·.value) := by
  rw [node_eq, Node.attribute?_ofChildren]

/-- **Reading the children of a tag** is picking them in the tree. -/
theorem children_node (t : Tree) (wanted : String) :
    t.node.children wanted = (t.children.filter (·.tag = wanted)).map node := by
  rw [node_eq, Node.children_ofChildren, Node.withTag, List.filter_map]
  refine congrArg (List.map node) (List.filter_congr fun child _ => ?_)
  rw [Function.comp_apply, tag_node]

theorem child?_node (t : Tree) (wanted : String) :
    t.node.child? wanted = (t.children.filter (·.tag = wanted)).head?.map node := by
  rw [Node.child?, children_node, List.head?_map]

/-! ## Elements and their depths -/

mutual

/-- **The elements of a tree**, each with its depth, in the order of the document; the tree
itself lies at `depth`. -/
def elements (depth : Nat) : Tree → List (Nat × Tree)
  | ⟨tag, attributes, children⟩ =>
    (depth, ⟨tag, attributes, children⟩) :: elementsAll (depth + 1) children

/-- The elements of several trees that lie at `depth`. -/
def elementsAll (depth : Nat) : List Tree → List (Nat × Tree)
  | [] => []
  | t :: ts => elements depth t ++ elementsAll depth ts

end

theorem elements_eq (depth : Nat) (t : Tree) :
    t.elements depth = (depth, t) :: elementsAll (depth + 1) t.children := by
  cases t
  rw [elements]

theorem elementsAll_eq_flatMap (depth : Nat) (ts : List Tree) :
    elementsAll depth ts = ts.flatMap (elements depth) := by
  induction ts with
  | nil => rfl
  | cons t ts ih => rw [elementsAll, ih, List.flatMap_cons]

/-! ## Bounds -/

/-- **The bound that an element passes**, if any: how deep it lies is looked at before how
many attributes it has. -/
def excess? (limits : Limits) (depth : Nat) (t : Tree) : Option LimitExceeded :=
  (limits.excess? .depth depth).or (limits.excess? .attributes t.attributes.length)

/-- **A tree within limits**, if it lies at `depth`: none of its elements lies too deep, and
none has too many attributes. -/
def Within (limits : Limits) (depth : Nat) (t : Tree) : Prop :=
  ∀ p ∈ t.elements depth,
    p.1 ≤ limits.maxDepth ∧ p.2.attributes.length ≤ limits.maxAttributes

/-- The first bound that trees at `depth` pass, in the order of the document. -/
def firstExcessAll? (limits : Limits) (depth : Nat) (ts : List Tree) : Option LimitExceeded :=
  (elementsAll depth ts).findSome? fun p => p.2.excess? limits p.1

/-- **The first bound that a tree passes**, in the order of the document; the tree itself lies
at `depth`. -/
def firstExcess? (limits : Limits) (depth : Nat) (t : Tree) : Option LimitExceeded :=
  (t.elements depth).findSome? fun p => p.2.excess? limits p.1

theorem excess?_eq_none_iff (limits : Limits) (depth : Nat) (t : Tree) :
    t.excess? limits depth = none
      ↔ depth ≤ limits.maxDepth ∧ t.attributes.length ≤ limits.maxAttributes := by
  rw [excess?, Option.or_eq_none_iff, Limits.excess?_eq_none_iff, Limits.excess?_eq_none_iff]
  rfl

theorem excess?_eq_some_iff (limits : Limits) (depth : Nat) (t : Tree) (e : LimitExceeded) :
    t.excess? limits depth = some e
      ↔ (limits.maxDepth < depth ∧ e = ⟨.depth, depth, limits.maxDepth⟩)
        ∨ (depth ≤ limits.maxDepth ∧ limits.maxAttributes < t.attributes.length
          ∧ e = ⟨.attributes, t.attributes.length, limits.maxAttributes⟩) := by
  rw [excess?, Option.or_eq_some_iff, Limits.excess?_eq_some_iff, Limits.excess?_eq_none_iff,
    Limits.excess?_eq_some_iff]
  rfl

/-- **Nothing is exceeded exactly within the limits.** -/
theorem firstExcess?_eq_none_iff (limits : Limits) (depth : Nat) (t : Tree) :
    t.firstExcess? limits depth = none ↔ t.Within limits depth := by
  rw [firstExcess?, List.findSome?_eq_none_iff]
  exact forall₂_congr fun p _ => excess?_eq_none_iff limits p.1 p.2

/-- A tree is within limits if its root is and its children are, one level further down. -/
theorem within_iff (limits : Limits) (depth : Nat) (t : Tree) :
    t.Within limits depth
      ↔ (depth ≤ limits.maxDepth ∧ t.attributes.length ≤ limits.maxAttributes)
        ∧ ∀ child ∈ t.children, child.Within limits (depth + 1) := by
  unfold Within
  rw [elements_eq, elementsAll_eq_flatMap]
  simp only [List.forall_mem_cons, List.forall_mem_flatMap]

/-- The root is looked at before its children. -/
theorem firstExcess?_eq (limits : Limits) (depth : Nat) (t : Tree) :
    t.firstExcess? limits depth
      = (t.excess? limits depth).or (firstExcessAll? limits (depth + 1) t.children) := by
  rw [firstExcess?, elements_eq, List.findSome?_cons]
  cases t.excess? limits depth with
  | none => rfl
  | some e => rfl

theorem firstExcessAll?_nil (limits : Limits) (depth : Nat) :
    firstExcessAll? limits depth [] = none := rfl

/-- A tree is looked at before those that follow it. -/
theorem firstExcessAll?_cons (limits : Limits) (depth : Nat) (t : Tree) (ts : List Tree) :
    firstExcessAll? limits depth (t :: ts)
      = (t.firstExcess? limits depth).or (firstExcessAll? limits depth ts) := by
  rw [firstExcessAll?, elementsAll, List.findSome?_append]
  rfl

end Tree

end Markup

end SchemaTypings
