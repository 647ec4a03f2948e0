import SchemaTypings.Typings.OfSchema

/-!
# Typings files

What becomes of a schema document: the text of a declaration file, how many declarations it
holds, and what was noted while they were made. Options change how the text is spelled; they
never change what is noted but for the names that notes mention.
-/

namespace SchemaTypings

/-- **How declaration files are written.** -/
structure OutputOptions where
  /-- How raw names become type names. -/
  naming : NamingPolicy := .reservedSuffix
  /-- What stands before every member. -/
  indent : String := "\t"
  /-- Whether the file begins with the lint directives. -/
  header : Bool := true
deriving DecidableEq, Repr, Inhabited

/-- The lint directives a file may begin with. -/
def lintDirectives : String :=
  "/* eslint-disable @typescript-eslint/no-explicit-any */\n" ++
    "/* eslint-disable @typescript-eslint/no-empty-interface */\n\n"

/-- **A typings file**, with what was noted of it. -/
structure TypingsFile where
  /-- The text of the declaration file. -/
  text : String
  /-- How many declarations it holds. -/
  declarations : Nat
  /-- What was noted. -/
  diagnostics : Diagnostics
deriving DecidableEq, Repr

/-- **The typings file of a schema document.** -/
def Schema.Document.typings (d : Document) (options : OutputOptions) : TypingsFile :=
  let (declarations, diagnostics) := (d.declarations options.naming).run {}
  { text :=
      (if options.header then lintDirectives else "") ++ declarationsText options.indent declarations
    declarations := d.declarationCount
    diagnostics }

end SchemaTypings
