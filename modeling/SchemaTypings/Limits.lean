/-!
# Limits

Bounds on what one conversion accepts. A document over a bound is refused; it does not
change what is produced for a document within them.

The four bounds are named by an inductive type of their own, so that a refusal can say
which of them was passed, and there is one check instead of four.
-/

namespace SchemaTypings

/-- **What is bounded.** -/
inductive Bound where
  /-- How deep elements are nested. -/
  | depth
  /-- The bytes of a document. -/
  | size
  /-- The attributes of one element. -/
  | attributes
  /-- The declarations a document would produce. -/
  | declarations
deriving DecidableEq, Repr

/-- How a message names what is bounded. -/
def Bound.label : Bound → String
  | .depth => "XML depth"
  | .size => "document size in bytes"
  | .attributes => "attribute count"
  | .declarations => "declaration count"

/-- **A bound that was passed.** -/
structure LimitExceeded where
  /-- What is bounded. -/
  bound : Bound
  /-- The value that was met. -/
  value : Nat
  /-- The largest value allowed. -/
  maximum : Nat
deriving DecidableEq, Repr

/-- The text of a refusal. -/
def LimitExceeded.text (e : LimitExceeded) : String :=
  e.bound.label ++ " " ++ e.value.repr ++ " exceeds maximum " ++ e.maximum.repr

/-- **The limits of one conversion.** -/
structure Limits where
  /-- How deep elements may be nested. -/
  maxDepth : Nat := 256
  /-- How many bytes a document may have. -/
  maxSize : Nat := 100 * 1024 * 1024
  /-- How many attributes an element may have. -/
  maxAttributes : Nat := 256
  /-- How many declarations a document may produce. -/
  maxDeclarations : Nat := 100000
deriving DecidableEq, Repr, Inhabited

namespace Limits

/-- The limits that hold if none are set. -/
def default : Limits := {}

/-- The limits for folders whose documents are not trusted. -/
def strict : Limits where
  maxDepth := 64
  maxSize := 10 * 1024 * 1024
  maxAttributes := 64
  maxDeclarations := 10000

/-- The largest value a bound allows. -/
def maximum (limits : Limits) : Bound → Nat
  | .depth => limits.maxDepth
  | .size => limits.maxSize
  | .attributes => limits.maxAttributes
  | .declarations => limits.maxDeclarations

/-- **The check of a bound**: a value above its maximum is refused. -/
def check (limits : Limits) (bound : Bound) (value : Nat) : Except LimitExceeded Unit :=
  if limits.maximum bound < value then
    .error ⟨bound, value, limits.maximum bound⟩
  else
    .ok ()

end Limits

end SchemaTypings
