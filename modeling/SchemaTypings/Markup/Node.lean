import SchemaTypings.Markup.Attribute

/-!
# The node tree

A document as a tree of elements. An element keeps its attributes in the order in which
they were first set, and its children by tag: the tags in the order of their first
occurrence, and the children of one tag in the order of the document. The order between
children of different tags is not kept – nothing that is read from a tree depends on it –
and character data is not part of the tree.

A tag that occurs once is told apart from one that occurs repeatedly. `children` looks
through that difference, and every reader of the tree goes through it.
-/

namespace SchemaTypings.Markup

/-- **The children of one tag.** -/
inductive Siblings (α : Type) where
  /-- The tag occurs once. -/
  | one (child : α)
  /-- The tag occurs repeatedly. -/
  | many (children : List α)
deriving DecidableEq, Repr

namespace Siblings

variable {α : Type}

/-- The children of a tag as a list. -/
def toList : Siblings α → List α
  | .one child => [child]
  | .many children => children

/-- One more child of the tag. -/
def push : Siblings α → α → Siblings α
  | .one first, child => .many [first, child]
  | .many children, child => .many (children ++ [child])

@[simp] theorem toList_one (child : α) : (one child).toList = [child] := rfl

@[simp] theorem toList_many (children : List α) : (many children).toList = children := rfl

@[simp] theorem toList_push (s : Siblings α) (child : α) :
    (s.push child).toList = s.toList ++ [child] := by
  cases s <;> rfl

end Siblings

/-- **An element** of a document. -/
structure Node where
  /-- The tag, as written once prefixes are replaced. -/
  tag : String
  /-- The attributes, in the order in which they were first set. -/
  attributes : List Attribute
  /-- The children by tag, in the order in which the tags first occur. -/
  groups : List (String × Siblings Node)
deriving Repr

namespace Node

/-- An element with neither attributes nor children. -/
def empty (tag : String) : Node :=
  ⟨tag, [], []⟩

/-! ## Attributes -/

/-- The value of an attribute, if it is set. -/
def attribute? (n : Node) (name : String) : Option String :=
  (n.attributes.find? (·.name == name)).map (·.value)

/-- A list of attributes with one of them set: its value changes in place, and a new one
comes last. -/
def setIn (name value : String) : List Attribute → List Attribute
  | [] => [⟨name, value⟩]
  | a :: as => if a.name = name then ⟨name, value⟩ :: as else a :: setIn name value as

/-- **Setting an attribute.** -/
def setAttribute (n : Node) (name value : String) : Node :=
  { n with attributes := setIn name value n.attributes }

/-! ## Children -/

/-- **The children with a tag**, in the order of the document. -/
def children (n : Node) (tag : String) : List Node :=
  match n.groups.lookup tag with
  | some siblings => siblings.toList
  | none => []

/-- The first child with a tag. -/
def child? (n : Node) (tag : String) : Option Node :=
  (n.children tag).head?

/-- Groups of children with one more child: it joins the group of its tag, or begins one. -/
def addTo (child : Node) : List (String × Siblings Node) → List (String × Siblings Node)
  | [] => [(child.tag, .one child)]
  | (tag, siblings) :: groups =>
    if tag = child.tag then (tag, siblings.push child) :: groups
    else (tag, siblings) :: addTo child groups

/-- **Adding a child**, after those that are there. -/
def addChild (n child : Node) : Node :=
  { n with groups := addTo child n.groups }

@[simp] theorem tag_addChild (n child : Node) : (n.addChild child).tag = n.tag := rfl

@[simp] theorem attributes_addChild (n child : Node) :
    (n.addChild child).attributes = n.attributes := rfl

@[simp] theorem tag_setAttribute (n : Node) (name value : String) :
    (n.setAttribute name value).tag = n.tag := rfl

@[simp] theorem groups_setAttribute (n : Node) (name value : String) :
    (n.setAttribute name value).groups = n.groups := rfl

/-! ## The whole tree -/

mutual

/-- **The nodes of a tree**, each with its depth: a node comes before its children, and the
children come group by group. -/
def walk (depth : Nat) : Node → List (Nat × Node)
  | ⟨tag, attributes, groups⟩ =>
    (depth, ⟨tag, attributes, groups⟩) :: walkGroups (depth + 1) groups

/-- The nodes below the groups of a node. -/
def walkGroups (depth : Nat) : List (String × Siblings Node) → List (Nat × Node)
  | [] => []
  | (_, .one child) :: groups => walk depth child ++ walkGroups depth groups
  | (_, .many children) :: groups => walkAll depth children ++ walkGroups depth groups

/-- The nodes of several trees. -/
def walkAll (depth : Nat) : List Node → List (Nat × Node)
  | [] => []
  | n :: ns => walk depth n ++ walkAll depth ns

end

end Node

end SchemaTypings.Markup
