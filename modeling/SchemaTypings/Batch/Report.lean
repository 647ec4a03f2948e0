import SchemaTypings.Files.Path
import SchemaTypings.Text.Json
import SchemaTypings.Typings.Diagnostics

/-!
# Reports

What came of the conversion of a folder: which documents were converted, which failed, and
what was passed over, each in the order in which the folder was gone through. A report is
shown as lines for people, or as JSON.
-/

namespace SchemaTypings

/-- **A document that was converted** and written. -/
structure Converted where
  /-- The document. -/
  input : Path
  /-- The declaration file. -/
  output : Path
  /-- How many declarations it holds. -/
  declarations : Nat
  /-- What was noted. -/
  diagnostics : Diagnostics
deriving DecidableEq, Repr

/-- **A document that failed.** -/
structure Failed where
  /-- The document. -/
  input : Path
  /-- The text of the error. -/
  error : String
deriving DecidableEq, Repr

/-- **The report of a run.** -/
structure Report where
  /-- The documents that were converted. -/
  converted : List Converted := []
  /-- The documents that failed. -/
  failed : List Failed := []
  /-- The entries that are no documents. -/
  skipped : List Path := []
deriving DecidableEq, Repr, Inhabited

namespace Report

/-- A report with one more converted document. -/
def addConverted (r : Report) (file : Converted) : Report :=
  { r with converted := r.converted ++ [file] }

/-- A report with one more failed document. -/
def addFailed (r : Report) (file : Failed) : Report :=
  { r with failed := r.failed ++ [file] }

/-- A report with one more entry passed over. -/
def addSkipped (r : Report) (path : Path) : Report :=
  { r with skipped := r.skipped ++ [path] }

/-- **Whether every document was converted.** -/
def allConverted (r : Report) : Bool :=
  r.failed.isEmpty

/-- How many faults were noted in all. -/
def faultCount (r : Report) : Nat :=
  r.converted.foldr (·.diagnostics.faultCount + ·) 0

/-- How many type tokens became `any` in all. -/
def fallbackCount (r : Report) : Nat :=
  r.converted.foldr (·.diagnostics.fallbackCount + ·) 0

/-! ## Lines for people -/

/-- The lines of a converted document: what it became, and a warning for every fault. -/
def convertedLines (file : Converted) : List String :=
  ("✓ " ++ file.input.text ++ " -> " ++ file.output.text ++ " (" ++ file.declarations.repr ++
      " declarations)") ::
    file.diagnostics.faults.map ("    warning: " ++ ·.text)

/-- The line of a failed document. -/
def failedLine (file : Failed) : String :=
  "✗ " ++ file.input.text ++ ": " ++ file.error

/-- The line that sums a report up. -/
def summary (r : Report) : String :=
  r.converted.length.repr ++ " converted, " ++ r.failed.length.repr ++ " failed, " ++
    r.skipped.length.repr ++ " skipped (" ++ r.fallbackCount.repr ++ " unresolved types)"

/-- **A report as lines.** -/
def text (r : Report) : String :=
  String.join <|
    ((r.converted.flatMap convertedLines ++ r.failed.map failedLine ++ ["", r.summary]).map
      (· ++ "\n"))

/-! ## JSON -/

open Text (Json)

/-- A fault in JSON. -/
def faultJson (fault : FieldFault) : Json :=
  .object [
    ("owner", .text fault.owner),
    ("field", match fault.field with | some field => .text field | none => .null),
    ("missing", .text fault.missing.label)]

/-- What was noted, in JSON. -/
def diagnosticsJson (d : Diagnostics) : Json :=
  .object [
    ("field_faults", .array (d.faults.map faultJson)),
    ("unresolved_types", .array (d.fallbacks.map .text))]

/-- A converted document in JSON. -/
def convertedJson (file : Converted) : Json :=
  .object [
    ("input", .text file.input.text),
    ("output", .text file.output.text),
    ("declarations", .number file.declarations),
    ("diagnostics", diagnosticsJson file.diagnostics)]

/-- A failed document in JSON. -/
def failedJson (file : Failed) : Json :=
  .object [("input", .text file.input.text), ("error", .text file.error)]

/-- **A report in JSON.** -/
def json (r : Report) : Json :=
  .object [
    ("converted", .array (r.converted.map convertedJson)),
    ("failed", .array (r.failed.map failedJson)),
    ("skipped", .array (r.skipped.map (.text ·.text)))]

end Report

end SchemaTypings
