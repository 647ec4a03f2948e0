/-!
# Identifiers, string literals and member keys

How a text is written in TypeScript: as a bare identifier where it is one, and between
single quotes otherwise. Inside the quotes a backslash, a quote and the four characters
that would end the line are escaped; everything else stands for itself.
-/

namespace SchemaTypings.Naming

/-- Whether a character can begin an identifier. -/
def isIdentifierStart (c : Char) : Bool :=
  c.isAlpha || c == '_' || c == '$'

/-- Whether a character can continue an identifier. -/
def isIdentifierPart (c : Char) : Bool :=
  isIdentifierStart c || c.isDigit

/-- **Whether a name is an identifier**: ASCII letters, digits, `_` and `$`, the first of
them no digit. -/
def isIdentifier (name : String) : Bool :=
  match name.toList with
  | [] => false
  | c :: cs => isIdentifierStart c && cs.all isIdentifierPart

/-- A character inside a single-quoted literal. -/
def quoteChar (c : Char) : List Char :=
  if c = '\\' then ['\\', '\\']
  else if c = '\'' then ['\\', '\'']
  else if c = '\n' then ['\\', 'n']
  else if c = '\r' then ['\\', 'r']
  else if c = '\u2028' then ['\\', 'u', '2', '0', '2', '8']
  else if c = '\u2029' then ['\\', 'u', '2', '0', '2', '9']
  else [c]

/-- **A string literal** that denotes `value`. -/
def quote (value : String) : String :=
  String.ofList ('\'' :: value.toList.flatMap quoteChar ++ ['\''])

/-- **The key of a member**: an identifier is written bare, the empty name is left empty, and
every other name is quoted. -/
def memberKey (name : String) : String :=
  if name = "" || isIdentifier name then name else quote name

end SchemaTypings.Naming
