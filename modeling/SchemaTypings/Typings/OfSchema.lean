import SchemaTypings.Schema.Basic
import SchemaTypings.Typings.Declaration

/-!
# Declarations of a schema

What each part of a schema declares: a simple type an alias, a complex type an interface
that may extend another, a top-level element an interface that never does. Within a section
simple types come first, then complex types, then elements. Nothing is sorted or dropped,
since a declaration file may refer forward and may declare a name more than once.

Every function here is a computation on the diagnostics: it returns what is declared and
notes what is missing.
-/

namespace SchemaTypings

open Schema

/-- The name a declaration gets for the raw name of a schema, which may be absent. -/
def NamingPolicy.declare (policy : NamingPolicy) (raw : Option String) : String :=
  policy.apply (raw.getD "")

/-- Notes that a field lacks an attribute. -/
def noteFault (owner : String) (field : Option String) (missing : NeededAttribute) :
    StateM Diagnostics Unit :=
  modify (·.addFault ⟨owner, field, missing⟩)

namespace Schema

/-- The name a field goes by; an empty one is as good as none. -/
def Field.givenName (f : Field) : Option String :=
  f.name.filter (· ≠ "")

/-- Notes that a field goes by no name. -/
def Field.noteName (owner : String) (f : Field) : StateM Diagnostics Unit :=
  if f.givenName.isNone then noteFault owner none .name else pure ()

/-- The type of a field; if it names none, that is noted. -/
def Field.typeExpr (policy : NamingPolicy) (owner : String) (f : Field) :
    StateM Diagnostics TypeExpr :=
  match f.type with
  | some token => TypeExpr.ofToken policy token
  | none => do
    noteFault owner f.givenName .type
    return .any

/-- **The member a field becomes.** What it lacks is noted, the name before the type, and it
is declared all the same. -/
def Field.member (policy : NamingPolicy) (owner : String) (f : Field) :
    StateM Diagnostics Member := do
  f.noteName owner
  let type ← f.typeExpr policy owner
  return { name := f.givenName.getD "", optional := f.mayBeAbsent, type, repeated := f.mayRepeat }

/-- **What a simple type stands for.** A restriction of texts to listed values is a union of
literals; any other restriction is the type it restricts, and without one nothing is known. -/
def SimpleType.body (policy : NamingPolicy) (t : SimpleType) : StateM Diagnostics AliasBody :=
  match t.base with
  | none => pure (.scalar .any)
  | some base =>
    if base = "string" then
      pure (if t.enumerations.isEmpty then .scalar .string else .literals t.enumerations)
    else
      .scalar <$> TypeExpr.ofToken policy base

/-- The alias a simple type becomes. -/
def SimpleType.declaration (policy : NamingPolicy) (t : SimpleType) :
    StateM Diagnostics Declaration :=
  .typeAlias (policy.declare t.name) <$> t.body policy

/-- The name a shape extends: a derivation that of its base, a sequence none. -/
def Shape.parent (policy : NamingPolicy) : Shape → StateM Diagnostics (Option String)
  | .sequence _ => pure none
  | .content base _ => TypeExpr.baseName policy base

/-- **The interface a complex type becomes.** Its parent is looked up before its fields. -/
def ComplexType.declaration (policy : NamingPolicy) (t : ComplexType) :
    StateM Diagnostics Declaration := do
  let name := policy.declare t.name
  let parent ← t.shape.parent policy
  let members ← t.shape.fields.mapM (Field.member policy name)
  return .interface name parent members

/-- **The interface an element becomes.** -/
def Element.declaration (policy : NamingPolicy) (e : Element) :
    StateM Diagnostics Declaration := do
  let name := policy.declare e.name
  let members ← e.fields.mapM (Field.member policy name)
  return .interface name none members

/-- The declarations of a section: simple types, complex types, elements. -/
def Section.declarations (policy : NamingPolicy) (s : Section) :
    StateM Diagnostics (List Declaration) := do
  let aliases ← s.simpleTypes.mapM (SimpleType.declaration policy)
  let records ← s.complexTypes.mapM (ComplexType.declaration policy)
  let elements ← s.elements.mapM (Element.declaration policy)
  return aliases ++ records ++ elements

/-- **The declarations of a document**, section by section. -/
def Document.declarations (policy : NamingPolicy) (d : Document) :
    StateM Diagnostics (List Declaration) :=
  List.flatten <$> d.sections.mapM (Section.declarations policy)

end Schema

end SchemaTypings
