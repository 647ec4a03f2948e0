import SchemaTypings.KnownPrefix
import SchemaTypings.Markup.Document
import SchemaTypings.Schema.Reader
import SchemaTypings.Typings.File

/-!
# Converting a document

From the text of a document to a declaration file: prefixes are replaced, the tree is built,
the schema model is read from it, and its declarations are written. Nothing is produced
unless every stage succeeds, and the number of declarations is checked before any of them
is made.
-/

namespace SchemaTypings

/-- The schema document of a text. -/
def Schema.Document.ofText (limits : Limits) (text : String) : Except Error Schema.Document := do
  match ← Markup.parse limits (replacePrefixes text) with
  | none => .error (.structural .noRoot)
  | some root => (Schema.Document.ofRoot root).mapError .structural

/-- **The declaration file of a text.** -/
def convert (options : OutputOptions) (limits : Limits) (text : String) :
    Except Error TypingsFile := do
  let document ← Schema.Document.ofText limits text
  limits.require .declarations document.declarationCount
  return document.typings options

end SchemaTypings
