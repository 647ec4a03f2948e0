import SchemaTypings.Error
import SchemaTypings.Markup.Event
import SchemaTypings.Markup.Node

/-!
# Building the tree

The events of a document are folded into a tree. The builder holds the elements that are
open, the innermost first, and the root that has been completed. An element joins the
element around it when it is closed, never before; one that closes with nothing around it
becomes the root, in the place of any root before it.

The checks of a tag come in a fixed order: how deep it lies, then its attributes one by
one, then how many they are. The first check that fails ends the reading.
-/

namespace SchemaTypings.Markup

/-- **A tree under construction.** -/
structure Builder where
  /-- The open elements, the innermost first. -/
  stack : List Node := []
  /-- The last element completed with nothing around it. -/
  root : Option Node := none
deriving Repr

namespace Builder

/-- A completed element joins the one around it, or becomes the root. -/
def attach (b : Builder) (n : Node) : Builder :=
  match b.stack with
  | [] => { b with root := some n }
  | parent :: outer => { b with stack := parent.addChild n :: outer }

/-- **The element that a tag begins**, with `around` elements around it. -/
def element (limits : Limits) (around : Nat) (content : List Char) : Except Error Node := do
  limits.require .depth (around + 1)
  let attributes ← (tagAttributes content).mapError Error.markup
  limits.require .attributes attributes.length
  return ⟨String.ofList (tagName content), attributes, []⟩

/-- The name that an end tag closes: what is written, without the blanks at its end. A name
of blanks alone stays as it is. -/
def endName (written : List Char) : List Char :=
  let trimmed := (written.reverse.dropWhile isBlank).reverse
  if trimmed.isEmpty then written else trimmed

/-- **An end tag** closes the innermost open element, whose tag it must name. -/
def close (b : Builder) (written : List Char) (position : Nat) : Except Error Builder :=
  match b.stack with
  | [] => .error (.markup (.reading position (.mismatchedEnd "" (String.ofList written))))
  | n :: outer =>
    let name := String.ofList (endName written)
    if n.tag = name then .ok ({ b with stack := outer }.attach n)
    else .error (.markup (.reading position (.mismatchedEnd n.tag name)))

/-- **One event** of a document. -/
def step (limits : Limits) (b : Builder) : Event → Except Error Builder
  | .startTag content => do
    let n ← element limits b.stack.length content
    return { b with stack := n :: b.stack }
  | .emptyTag content => do
    let n ← element limits b.stack.length content
    return b.attach n
  | .endTag written position => b.close written position
  | .fault cause position => .error (.markup (.reading position cause))

/-- The root of a finished tree; nothing may be left open. -/
def finish (b : Builder) : Except Error (Option Node) :=
  match b.stack with
  | [] => .ok b.root
  | n :: _ => .error (.markup (.unclosed n.tag))

end Builder

/-- **The tree of a document**: its root element, or none if it has no element. -/
def parse (limits : Limits) (text : String) : Except Error (Option Node) := do
  let b ← (events text).foldlM (Builder.step limits) {}
  b.finish

end SchemaTypings.Markup
