import SchemaTypings.Naming.Literal
import SchemaTypings.Typings.TypeExpr

/-!
# Declarations and their text

A declaration file is a list of declarations, each of them a type alias or an interface.
They are kept as data until they are written, so that what a file *declares* can be told
apart from how it is *spelled*: the spelling is `Declaration.text`, and nothing else in
the library puts together declaration text.

Every declaration ends with an empty line; every member of an interface takes one line.
-/

namespace SchemaTypings

/-- **A member** of an interface. -/
structure Member where
  /-- The member's name, empty if the schema gives none. -/
  name : String
  /-- Whether the member may be left out. -/
  optional : Bool
  /-- The type of its value. -/
  type : TypeExpr
  /-- Whether the value may also be a list of such values. -/
  repeated : Bool
deriving DecidableEq, Repr

/-- **What an alias stands for.** -/
inductive AliasBody where
  /-- One of the listed texts. -/
  | literals (values : List String)
  /-- A single type. -/
  | scalar (type : TypeExpr)
deriving DecidableEq, Repr

/-- **A declaration** of a type. -/
inductive Declaration where
  /-- A name for a type or for a union of literals. -/
  | typeAlias (name : String) (body : AliasBody)
  /-- A record, possibly extending another. -/
  | interface (name : String) (parent : Option String) (members : List Member)
deriving DecidableEq, Repr

/-! ## Spelling -/

/-- The type of a member: a repeated one is a single value or a list. -/
def Member.typeText (m : Member) : String :=
  if m.repeated then m.type.text ++ " | " ++ m.type.text ++ "[]" else m.type.text

/-- **The line of a member.** -/
def Member.text (indent : String) (m : Member) : String :=
  indent ++ Naming.memberKey m.name ++ (if m.optional then "?" else "") ++ ": " ++
    m.typeText ++ ";\n"

/-- The text of an alias body; the arms of a union stand on lines of their own. -/
def AliasBody.text : AliasBody → String
  | .literals values => "\n| ".intercalate (values.map Naming.quote)
  | .scalar t => t.text

/-- The clause that names the extended record. -/
def extendsClause : Option String → String
  | some parent => " extends " ++ parent
  | none => ""

/-- **The text of a declaration.** -/
def Declaration.text (indent : String) : Declaration → String
  | .typeAlias name body => "export type " ++ name ++ " = " ++ body.text ++ ";\n\n"
  | .interface name parent members =>
    "export interface " ++ name ++ extendsClause parent ++ " \x7b\n" ++
      String.join (members.map (Member.text indent)) ++ "\x7d\n\n"

/-- The text of a list of declarations, one after the other. -/
def declarationsText (indent : String) (ds : List Declaration) : String :=
  String.join (ds.map (Declaration.text indent))

end SchemaTypings
