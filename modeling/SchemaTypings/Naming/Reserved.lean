/-!
# Reserved words

The words that cannot name a type in a declaration file: the keywords of TypeScript, those
of its strict mode, the names of its predefined types, and `Date`, which the generated
declarations themselves refer to. A schema may well use one of them as a name; it is then
told apart by an underscore at its end. No reserved word ends in an underscore, so the
result never is reserved itself.
-/

namespace SchemaTypings.Naming

/-- The words that cannot name a type. -/
def reservedWords : List String :=
  ["break", "case", "catch", "class", "const", "continue", "debugger", "default", "delete",
    "do", "else", "enum", "export", "extends", "false", "finally", "for", "function", "if",
    "import", "in", "instanceof", "new", "null", "return", "super", "switch", "this", "throw",
    "true", "try", "typeof", "var", "void", "while", "with",
    "implements", "interface", "let", "package", "private", "protected", "public", "static",
    "yield",
    "any", "bigint", "boolean", "never", "number", "object", "string", "symbol", "undefined",
    "unknown",
    "Date"]

/-- Whether a name is reserved. -/
def isReserved (name : String) : Bool :=
  reservedWords.contains name

/-- **Avoiding reserved words**: a reserved name gets an underscore at its end, and every other
name is kept. -/
def avoidReserved (name : String) : String :=
  if isReserved name then name ++ "_" else name

end SchemaTypings.Naming
