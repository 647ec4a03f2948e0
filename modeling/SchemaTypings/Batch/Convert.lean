import SchemaTypings.Batch.Report
import SchemaTypings.Conversion
import SchemaTypings.Files.Store
import SchemaTypings.Settings.Basic

/-!
# Converting a folder

Every document of the input folder becomes a declaration file in the output folder. Each is
handled on its own: one that fails is reported, and the others are converted all the same.
A declaration file is written only when its document has been converted completely.

Only two things end a run: that the input folder cannot be listed, and that the output
folder cannot be created. The folder is listed first and gone through by name, so the order
of a report does not depend on the order in which a system lists a folder.
-/

namespace SchemaTypings

variable {m : Type → Type} [Monad m] [FileStore m]

/-- **The text of a document**, within the limit of its size. The size is checked before the
file is read, and again on what was read. -/
def loadDocument (limits : Limits) (p : Path) : ExceptT Error m String := do
  let refused cause := Error.resource (.readFile p cause)
  let size ← demand refused (FileStore.size p)
  settle (limits.require .size size)
  let text ← readText refused p
  settle (limits.require .size text.utf8ByteSize)
  return text

/-- **The declaration file of a document**; nothing is written. -/
def convertFile (s : Settings) (p : Path) : ExceptT Error m TypingsFile := do
  let text ← loadDocument s.limits p
  settle (convert s.output s.limits text)

/-- The conversion of one document, with its declaration file written. -/
def writeConverted (s : Settings) (p : Path) : ExceptT Error m Converted := do
  let typings ← convertFile s p
  let output := s.declarationPath p
  demand (fun cause => .resource (.writeFile output cause))
    (FileStore.write output typings.text)
  return {
    input := p
    output
    declarations := typings.declarations
    diagnostics := typings.diagnostics }

/-- **One entry of the input folder**: passed over unless it is a file with the extension of
documents, and otherwise converted or reported as failed. -/
def convertEntry (s : Settings) (report : Report) (p : Path) : m Report := do
  if (← FileStore.isFile p) && s.recognizes p then
    match ← (writeConverted s p).run with
    | .ok file => return report.addConverted file
    | .error e => return report.addFailed ⟨p, e.text⟩
  else
    return report.addSkipped p

/-- The entries of the input folder, in the order of their names. -/
def listEntries (s : Settings) : ExceptT Error m (List Path) := do
  let names ← demand (fun cause => .resource (.readFolder s.inputFolder cause))
    (FileStore.names s.inputFolder)
  return (names.mergeSort (fun a b => decide (a ≤ b))).map s.inputFolder.join

/-- **The conversion of a folder.** -/
def convertFolder (s : Settings) : ExceptT Error m Report := do
  let entries ← listEntries s
  demand Error.system (createFolders s.outputFolder)
  ExceptT.lift (entries.foldlM (convertEntry s) {})

end SchemaTypings
