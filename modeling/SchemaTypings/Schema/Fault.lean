/-!
# Documents that are no schema

A well-formed document need not hold a schema. What it lacks is told with what was
expected and, where there is such a thing, with what was found instead.
-/

namespace SchemaTypings

/-- **A message** that may say what was expected and what was found. -/
structure Explanation where
  /-- What is wrong. -/
  message : String
  /-- What was expected. -/
  expected : Option String := none
  /-- The tag that was found. -/
  found : Option String := none
deriving DecidableEq, Repr

/-- The text of an explanation: what was expected and found stands in brackets. -/
def Explanation.text (e : Explanation) : String :=
  e.message ++
    match e.expected, e.found with
    | some expected, some found => " (expected " ++ expected ++ ", found <" ++ found ++ ">)"
    | some expected, none => " (expected " ++ expected ++ ")"
    | none, some found => " (found <" ++ found ++ ">)"
    | none, none => ""

namespace Schema

/-- **What a document lacks** to be read as a schema. -/
inductive Fault where
  /-- It has no root element. -/
  | noRoot
  /-- Its definitions have no section of types. -/
  | noTypes
  /-- Its section of types holds no schema. -/
  | noSchema
  /-- Its root is neither definitions nor a schema. -/
  | otherRoot (tag : String)
deriving DecidableEq, Repr

/-- How a message explains what a document lacks. -/
def Fault.explanation : Fault → Explanation
  | .noRoot => { message := "document has no root element" }
  | .noTypes =>
    { message := "WSDL document has no types section", expected := some "definitions/types/schema" }
  | .noSchema =>
    { message := "types section contains no schema", expected := some "definitions/types/schema" }
  | .otherRoot tag =>
    { message := "not a WSDL or XML Schema document", expected := some "definitions or schema",
      found := some tag }

end Schema

end SchemaTypings
