import SchemaTypings.Files.Path
import SchemaTypings.Limits
import SchemaTypings.Typings.File

/-!
# Settings

What a run over a folder needs to know: where to read and where to write, which files are
documents, how declarations are written, and the limits for each document. Every setting has
a default of its own, so settings can be given in part.
-/

namespace SchemaTypings

/-- **The settings of a run.** -/
structure Settings where
  /-- The folder that holds the documents. -/
  inputFolder : Path := ⟨"."⟩
  /-- The folder that receives the declaration files. -/
  outputFolder : Path := ⟨"output"⟩
  /-- The extension of documents, without its dot. -/
  inputExtension : String := "wsdl"
  /-- The extension of declaration files, without the dot before it. -/
  outputExtension : String := "d.ts"
  /-- How declaration files are written. -/
  output : OutputOptions := {}
  /-- The limits for each document. -/
  limits : Limits := {}
deriving DecidableEq, Repr, Inhabited

namespace Settings

/-- **Whether a path names a document**, which its extension decides. -/
def recognizes (s : Settings) (p : Path) : Bool :=
  p.extension? == some s.inputExtension

/-- **The path of the declaration file** for a document: its stem with the output extension,
in the output folder. -/
def declarationPath (s : Settings) (p : Path) : Path :=
  s.outputFolder.join (p.stem?.getD "" ++ "." ++ s.outputExtension)

end Settings

end SchemaTypings
