import SchemaTypings.KnownPrefix
import SchemaTypings.Naming.Policy
import SchemaTypings.Typings.Diagnostics

/-!
# Types, and the tokens that name them

A schema names a type by a token. The built-in types of XML Schema are few and are looked
up in a table, by their exact names; a token with a type marker refers to a type that some
schema declares, under the name the naming policy gives it; of any other token nothing is
known, and it becomes `any`. That last case is noted, so that a reader of the result can
tell an `any` that the schema asks for from one that stands for a gap.
-/

namespace SchemaTypings

/-- **A type**, as a declaration writes it. -/
inductive TypeExpr where
  /-- A truth value. -/
  | boolean
  /-- A text. -/
  | string
  /-- A date or a time. -/
  | date
  /-- A number. -/
  | number
  /-- Any value at all. -/
  | any
  /-- A declared type, under its type name. -/
  | named (name : String)
deriving DecidableEq, Repr

namespace TypeExpr

/-- How a type is written. -/
def text : TypeExpr → String
  | .boolean => "boolean"
  | .string => "string"
  | .date => "Date"
  | .number => "number"
  | .any => "any"
  | .named name => name

/-- **The built-in types** that have a counterpart. -/
def builtins : List (String × TypeExpr) :=
  [("boolean", .boolean), ("string", .string), ("base64Binary", .string),
    ("dateTime", .date), ("date", .date), ("time", .date),
    ("int", .number), ("long", .number), ("double", .number),
    ("anyType", .any)]

/-- The built-in type of a token, if it names one. -/
def builtin? (token : String) : Option TypeExpr :=
  builtins.lookup token

/-- A built-in type is looked up in the table. -/
theorem mem_builtins_of_builtin? {token : String} {t : TypeExpr} (h : builtin? token = some t) :
    (token, t) ∈ builtins := by
  obtain ⟨before, after, hbuiltins, -⟩ := List.lookup_eq_some_iff.mp h
  exact hbuiltins ▸ List.mem_append_right before List.mem_cons_self

/-- **The type that a token names.** A token that names nothing known becomes `any`, which
is noted. -/
def ofToken (policy : NamingPolicy) (token : String) : StateM Diagnostics TypeExpr :=
  match builtin? token with
  | some type => pure type
  | none =>
    match (KnownPrefix.afterMarker? token).filter (· ≠ "") with
    | some name => pure (.named (policy.apply name))
    | none => do
      modify (·.addFallback token)
      pure .any

/-- **The name that a derived record extends.** There is nothing to extend if no base is
given, if it is empty or if it is a built-in type; if nothing is known of it, that is noted. -/
def baseName (policy : NamingPolicy) (base : Option String) :
    StateM Diagnostics (Option String) :=
  match base.filter (· ≠ "") with
  | none => pure none
  | some token =>
    if (builtin? token).isSome then
      pure none
    else
      match KnownPrefix.afterMarker? token with
      | some name =>
        if name = "" then do
          modify (·.addFallback token)
          pure none
        else
          pure (some (policy.apply name))
      | none => do
        modify (·.addFallback token)
        pure none

end TypeExpr

end SchemaTypings
