import Mathlib.Data.List.Induction
import Mathlib.Data.List.Nodup
import SchemaTypings.Markup.Node

/-!
# Grouping children

A node does not keep its children as a list: it keeps them by tag, and it is built child by
child. What the building comes to is said here without it. `Node.grouped` takes the children
in the order of the document and lists their tags in the order of first occurrence, each with
the children of that tag – one child by itself, several as a list. Adding children one after
another is the same thing (`Node.foldl_addChild`), so a node is determined by the list of its
children (`Node.ofChildren`), and a reader of one tag sees a filter of that list
(`Node.children_ofChildren`).
-/

namespace SchemaTypings.Markup

/-! ## The children of one tag -/

/-- **The children of one tag as a node stores them**: a single one is told apart from
several. -/
def Siblings.ofList {α : Type} : List α → Siblings α
  | [child] => .one child
  | children => .many children

@[simp] theorem Siblings.toList_ofList {α : Type} (children : List α) :
    (Siblings.ofList children).toList = children := by
  match children with
  | [] => rfl
  | [_] => rfl
  | _ :: _ :: _ => rfl

/-- One more child of a tag that has some already. -/
theorem Siblings.push_ofList {α : Type} {children : List α} (h : children ≠ []) (child : α) :
    (Siblings.ofList children).push child = Siblings.ofList (children ++ [child]) := by
  match children with
  | [] => exact absurd rfl h
  | [_] => rfl
  | _ :: _ :: _ => rfl

/-! ## All groups -/

/-- Dropping later occurrences leaves each entry once. -/
theorem nodup_eraseDups {α : Type} [BEq α] [LawfulBEq α] (l : List α) : l.eraseDups.Nodup := by
  match l with
  | [] => exact List.nodup_nil
  | a :: as =>
    rw [List.eraseDups_cons, List.nodup_cons]
    refine ⟨fun h => ?_, nodup_eraseDups (as.filter fun b => !b == a)⟩
    rw [List.mem_eraseDups, List.mem_filter] at h
    simp at h
termination_by l.length
decreasing_by exact Nat.lt_succ_of_le (List.length_filter_le _ _)

section Repetition

variable {α : Type} [BEq α] [LawfulBEq α] {a : α} {l : List α}

/-- An entry that is there already is dropped. -/
theorem eraseDups_append_of_mem (h : a ∈ l) : (l ++ [a]).eraseDups = l.eraseDups := by
  have hnone : [a].removeAll l = [] := by simpa [List.removeAll] using h
  rw [List.eraseDups_append, hnone, List.eraseDups_nil, List.append_nil]

/-- An entry that is new comes last. -/
theorem eraseDups_append_of_not_mem (h : a ∉ l) : (l ++ [a]).eraseDups = l.eraseDups ++ [a] := by
  have hone : [a].removeAll l = [a] := by simpa [List.removeAll] using h
  rw [List.eraseDups_append, hone, List.eraseDups_cons, List.filter_nil, List.eraseDups_nil]

end Repetition

namespace Node

/-- The children with a tag, among children in the order of the document. -/
def withTag (tag : String) (children : List Node) : List Node :=
  children.filter (·.tag = tag)

/-- **The groups of children in the order of the document**: their tags in the order of first
occurrence, each with the children of that tag. -/
def grouped (children : List Node) : List (String × Siblings Node) :=
  (children.map (·.tag)).eraseDups.map fun tag => (tag, .ofList (withTag tag children))

theorem mem_tags_iff {children : List Node} {tag : String} :
    tag ∈ children.map (·.tag) ↔ withTag tag children ≠ [] := by
  rw [withTag, ne_eq, List.filter_eq_nil_iff, List.mem_map]
  simp

@[simp] theorem withTag_append (tag : String) (a b : List Node) :
    withTag tag (a ++ b) = withTag tag a ++ withTag tag b :=
  List.filter_append ..

theorem withTag_singleton (tag : String) (child : Node) :
    withTag tag [child] = if child.tag = tag then [child] else [] := by
  by_cases h : child.tag = tag
  · simp [withTag, h]
  · simp [withTag, h]

/-- A child joins the group of its tag, wherever that stands. -/
theorem addTo_map_of_mem (child : Node) (group : String → Siblings Node) {tags : List String}
    (hd : tags.Nodup) (h : child.tag ∈ tags) :
    addTo child (tags.map fun tag => (tag, group tag))
      = tags.map fun tag =>
        (tag, if tag = child.tag then (group tag).push child else group tag) := by
  induction tags with
  | nil => exact absurd h List.not_mem_nil
  | cons tag tags ih =>
    obtain ⟨hnot, hd⟩ := List.nodup_cons.mp hd
    rw [List.map_cons, List.map_cons, addTo]
    by_cases heq : tag = child.tag
    · rw [if_pos heq, if_pos heq]
      refine congrArg (_ :: ·) (List.map_congr_left fun other hother => ?_)
      rw [if_neg fun h' : other = child.tag => hnot (by rw [heq, ← h']; exact hother)]
    · rw [if_neg heq, if_neg heq,
        ih hd ((List.mem_cons.mp h).resolve_left fun h' => heq h'.symm)]

/-- A child of a tag that is not there yet begins a group. -/
theorem addTo_map_of_not_mem (child : Node) (group : String → Siblings Node)
    {tags : List String} (h : child.tag ∉ tags) :
    addTo child (tags.map fun tag => (tag, group tag))
      = (tags.map fun tag => (tag, group tag)) ++ [(child.tag, .one child)] := by
  induction tags with
  | nil => rfl
  | cons tag tags ih =>
    obtain ⟨hne, hnot⟩ := not_or.mp (mt List.mem_cons.mpr h)
    rw [List.map_cons, addTo, if_neg (Ne.symm hne), ih hnot, List.cons_append]

/-- **One more child**: grouping a longer list is adding to the groups of the shorter one. -/
theorem grouped_append_singleton (children : List Node) (child : Node) :
    grouped (children ++ [child]) = addTo child (grouped children) := by
  unfold grouped
  rw [List.map_append, List.map_singleton]
  by_cases h : child.tag ∈ children.map (·.tag)
  -- the tag is there already: the list of tags stays, and one group grows
  · rw [eraseDups_append_of_mem h,
      addTo_map_of_mem child _ (nodup_eraseDups _) (List.mem_eraseDups.mpr h)]
    refine List.map_congr_left fun tag htag => ?_
    rw [withTag_append, withTag_singleton]
    by_cases heq : tag = child.tag
    · rw [if_pos heq, if_pos heq.symm,
        Siblings.push_ofList (mem_tags_iff.mp (List.mem_eraseDups.mp htag))]
    · rw [if_neg heq, if_neg (Ne.symm heq), List.append_nil]
  -- the tag is new: it comes last, and all other groups stay
  · rw [eraseDups_append_of_not_mem h,
      addTo_map_of_not_mem child _ fun h' => h (List.mem_eraseDups.mp h'), List.map_append]
    refine congrArg₂ (· ++ ·) (List.map_congr_left fun tag htag => ?_) ?_
    · have hne : child.tag ≠ tag := fun h' => h (h' ▸ List.mem_eraseDups.mp htag)
      rw [withTag_append, withTag_singleton, if_neg hne, List.append_nil]
    · have hnil : withTag child.tag children = [] := by
        by_contra h'
        exact h (mem_tags_iff.mpr h')
      rw [List.map_singleton, withTag_append, hnil, withTag_singleton, if_pos rfl]
      rfl

/-! ## Nodes -/

/-- **The node with the given children**, in the order of the document. -/
def ofChildren (tag : String) (attributes : List Attribute) (children : List Node) : Node :=
  ⟨tag, attributes, grouped children⟩

@[simp] theorem tag_ofChildren (tag : String) (attributes : List Attribute)
    (children : List Node) : (ofChildren tag attributes children).tag = tag := rfl

@[simp] theorem attribute?_ofChildren (tag : String) (attributes : List Attribute)
    (children : List Node) (name : String) :
    (ofChildren tag attributes children).attribute? name
      = (attributes.find? (·.name == name)).map (·.value) := rfl

/-- **A child that is added** comes after the others. -/
theorem addChild_ofChildren (tag : String) (attributes : List Attribute) (children : List Node)
    (child : Node) :
    (ofChildren tag attributes children).addChild child
      = ofChildren tag attributes (children ++ [child]) := by
  rw [ofChildren, ofChildren, grouped_append_singleton]
  rfl

/-- **Building a node child by child** gives the node with these children. -/
theorem foldl_addChild (tag : String) (attributes : List Attribute) (children : List Node) :
    children.foldl addChild ⟨tag, attributes, []⟩ = ofChildren tag attributes children := by
  -- from the end, since it is the last child that is added to a finished node
  induction children using List.reverseRec with
  | nil => rfl
  | append_singleton children child ih =>
    rw [List.foldl_append, ih, List.foldl_cons, List.foldl_nil, addChild_ofChildren]

/-- A look-up among groups that are kept for some tags. -/
theorem lookup_map_pair (group : String → Siblings Node) (tags : List String) (tag : String) :
    (tags.map fun t => (t, group t)).lookup tag
      = if tag ∈ tags then some (group tag) else none := by
  induction tags with
  | nil => rfl
  | cons t tags ih =>
    rw [List.map_cons, List.lookup_cons, ih]
    by_cases h : tag = t
    · simp [h]
    · simp [h, beq_eq_false_iff_ne.mpr h]

/-- **Reading the children of a tag** is filtering the list of all children. -/
@[simp] theorem children_ofChildren (tag : String) (attributes : List Attribute)
    (children : List Node) (wanted : String) :
    (ofChildren tag attributes children).children wanted = withTag wanted children := by
  rw [Node.children, ofChildren, grouped, lookup_map_pair]
  by_cases h : wanted ∈ children.map (·.tag)
  · rw [if_pos (List.mem_eraseDups.mpr h)]
    exact Siblings.toList_ofList _
  · rw [if_neg fun h' => h (List.mem_eraseDups.mp h')]
    by_contra h'
    exact h (mem_tags_iff.mpr (Ne.symm h'))

@[simp] theorem child?_ofChildren (tag : String) (attributes : List Attribute)
    (children : List Node) (wanted : String) :
    (ofChildren tag attributes children).child? wanted
      = (withTag wanted children).head? := by
  rw [child?, children_ofChildren]

end Node

end SchemaTypings.Markup
