/-!
# The schema model

What a schema says, as far as declarations are made of it. Every attribute that may be
absent is an `Option`, so a missing name or type is visible here and not only when a
declaration is written. Type names are still the raw tokens of the document.
-/

namespace SchemaTypings.Schema

/-- **A field** of a record. -/
structure Field where
  /-- The field's name. -/
  name : Option String := none
  /-- The token that names the field's type. -/
  type : Option String := none
  /-- The least number of occurrences, as written. -/
  minOccurs : Option String := none
  /-- The greatest number of occurrences, as written. -/
  maxOccurs : Option String := none
  /-- Whether the field may be nil, as written. -/
  nillable : Option String := none
deriving DecidableEq, Repr, Inhabited

namespace Field

/-- **A field may be left out** if it may occur no time at all or may be nil. The attributes
are compared as written: `nillable="false"` does not take back `minOccurs="0"`. -/
def mayBeAbsent (f : Field) : Bool :=
  f.minOccurs == some "0" || f.nillable == some "true"

/-- **A field may be repeated** if its occurrences are unbounded. -/
def mayRepeat (f : Field) : Bool :=
  f.maxOccurs == some "unbounded"

end Field

/-- **A simple type**: a scalar, possibly restricted to listed values. -/
structure SimpleType where
  /-- The type's name. -/
  name : Option String := none
  /-- The token of the type it restricts. -/
  base : Option String := none
  /-- The listed values, in the order of the document and with repetitions. -/
  enumerations : List String := []
deriving DecidableEq, Repr, Inhabited

/-- **How a complex type lays out its fields.** -/
inductive Shape where
  /-- A sequence of fields. -/
  | sequence (fields : List Field)
  /-- A derivation from the type that `base` names, with the fields it adds. -/
  | content (base : Option String) (fields : List Field)
deriving DecidableEq, Repr

/-- The fields a shape lists itself. -/
def Shape.fields : Shape → List Field
  | .sequence fields => fields
  | .content _ fields => fields

@[simp] theorem Shape.fields_sequence (fields : List Field) :
    (Shape.sequence fields).fields = fields := rfl

@[simp] theorem Shape.fields_content (base : Option String) (fields : List Field) :
    (Shape.content base fields).fields = fields := rfl

/-- **A complex type**: a record. -/
structure ComplexType where
  /-- The type's name. -/
  name : Option String := none
  /-- The layout of its fields. -/
  shape : Shape
deriving DecidableEq, Repr

/-- **A top-level element**, with the fields of the record type written inside it. -/
structure Element where
  /-- The element's name. -/
  name : Option String := none
  /-- The fields of its own record type. -/
  fields : List Field := []
deriving DecidableEq, Repr, Inhabited

/-- **A schema section**: what one `schema` block declares. -/
structure Section where
  /-- The simple types, in the order of the document. -/
  simpleTypes : List SimpleType := []
  /-- The complex types, in the order of the document. -/
  complexTypes : List ComplexType := []
  /-- The top-level elements, in the order of the document. -/
  elements : List Element := []
deriving DecidableEq, Repr, Inhabited

/-- How many declarations a section produces. -/
def Section.declarationCount (s : Section) : Nat :=
  s.simpleTypes.length + s.complexTypes.length + s.elements.length

/-- **A schema document**: its sections, in order. -/
structure Document where
  /-- The sections. -/
  sections : List Section := []
deriving DecidableEq, Repr, Inhabited

/-- How many declarations a document produces. -/
def Document.declarationCount (d : Document) : Nat :=
  d.sections.foldr (·.declarationCount + ·) 0

end SchemaTypings.Schema
