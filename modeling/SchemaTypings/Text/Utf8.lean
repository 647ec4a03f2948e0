/-!
# Bytes of a text

Places in a document are reported as byte offsets, while the document itself is a list
of characters. This module holds the two measures that connect them: how many bytes a
text takes in UTF-8, and which byte a character begins with.

A place is a `Cursor`: the bytes already passed, and the text that is still to come.
Keeping the two together is what makes an offset right by construction – every operation
that moves on adds exactly the bytes it passes.
-/

namespace SchemaTypings.Text

/-- **The size of a text**, in bytes of UTF-8. -/
def byteLength : List Char → Nat
  | [] => 0
  | c :: cs => c.utf8Size + byteLength cs

@[simp] theorem byteLength_nil : byteLength [] = 0 := rfl

@[simp] theorem byteLength_cons (c : Char) (cs : List Char) :
    byteLength (c :: cs) = c.utf8Size + byteLength cs := rfl

@[simp] theorem byteLength_append (a b : List Char) :
    byteLength (a ++ b) = byteLength a + byteLength b := by
  induction a with
  | nil => simp
  | cons c cs ih => simp [ih, Nat.add_assoc]

/-- **The first byte of a character**, read as a character of its own: ASCII stands for
itself, and a longer character is announced by a byte that carries its length. -/
def leadByte (c : Char) : Char :=
  let code := c.toNat
  Char.ofNat <|
    if code < 0x80 then code
    else if code < 0x800 then 0xC0 + code / 0x40
    else if code < 0x10000 then 0xE0 + code / 0x1000
    else 0xF0 + code / 0x40000

/-! ## Places in a text -/

/-- **A place in a text**: how many bytes stand before it, and what follows. -/
structure Cursor where
  /-- The bytes that stand before the place. -/
  offset : Nat
  /-- The text from the place on. -/
  rest : List Char
deriving DecidableEq, Repr

namespace Cursor

/-- Where the text ends, as an offset. -/
def endOffset (c : Cursor) : Nat :=
  c.offset + byteLength c.rest

/-- The place after a stretch of characters that satisfy `p`, with the stretch. -/
def span (p : Char → Bool) (c : Cursor) : List Char × Cursor :=
  let passed := c.rest.takeWhile p
  (passed, ⟨c.offset + byteLength passed, c.rest.dropWhile p⟩)

/-- The place after a stretch of characters that satisfy `p`. -/
def skip (p : Char → Bool) (c : Cursor) : Cursor :=
  (c.span p).2

@[simp] theorem span_rest (p : Char → Bool) (c : Cursor) :
    (c.span p).2.rest = c.rest.dropWhile p := rfl

@[simp] theorem skip_rest (p : Char → Bool) (c : Cursor) :
    (c.skip p).rest = c.rest.dropWhile p := rfl

/-- Moving on inside a text does not move its end. -/
@[simp] theorem skip_endOffset (p : Char → Bool) (c : Cursor) :
    (c.skip p).endOffset = c.endOffset := by
  have h := congrArg byteLength (List.takeWhile_append_dropWhile (p := p) (l := c.rest))
  rw [byteLength_append] at h
  simp only [endOffset, skip, span]
  omega

theorem length_skip_le (p : Char → Bool) (c : Cursor) :
    (c.skip p).rest.length ≤ c.rest.length :=
  (List.dropWhile_sublist p).length_le

end Cursor

end SchemaTypings.Text
