import SchemaTypings.Batch.Convert
import SchemaTypings.Command.Arguments
import SchemaTypings.Settings.OfToml

/-!
# Running a command line

A run answers a command line with an exit status and with what it writes to its two
outputs. It touches nothing but the files of its store.

Settings come in layers: the defaults, over them the settings file, over that what the
command line says. Each layer changes the settings it names and no others.
-/

namespace SchemaTypings.Command

/-- **What comes of a run.** -/
structure Outcome where
  /-- The exit status. -/
  exit : Nat
  /-- What is written to the output. -/
  stdout : String := ""
  /-- What is written to the output for errors. -/
  stderr : String := ""
deriving DecidableEq, Repr

/-- The name and version of the tool. -/
def versionText : String :=
  "wsdl2dts 0.1.0\n"

/-- How the tool is used. -/
def usageText : String :=
  "Usage: wsdl2dts convert [INPUT_DIR] [-o DIR] [-c CONFIG] [--naming POLICY] [--no-header] [-j]\n" ++
    "       wsdl2dts print FILE [-c CONFIG] [--naming POLICY] [--no-header]\n"

/-- The outcome of a run that fails. -/
def Outcome.failure (e : Error) : Outcome where
  exit := 1
  stderr := "Error: " ++ e.text ++ "\n"

variable {m : Type → Type} [Monad m] [FileStore m]

/-- **The settings that a file gives.** -/
def settingsFile (p : Path) : ExceptT Error m Settings := do
  let text ← readText (fun cause => .settings (.unreadable p cause)) p
  settle (Settings.ofToml text)

/-- What a command line says about output options, over those that hold without it. -/
def Given.overOutput (g : Given) (o : OutputOptions) : OutputOptions :=
  { o with naming := g.naming.getD o.naming, header := o.header && !g.noHeader }

/-- The settings that hold for both commands: the file over the defaults, the output options
of the command line over both. -/
def baseSettings (g : Given) : ExceptT Error m Settings := do
  let s ←
    match g.config with
    | some p => settingsFile p
    | none => pure {}
  return { s with output := g.overOutput s.output }

/-- **The settings of a conversion**, the folders of the command line included. -/
def convertSettings (g : Given) : ExceptT Error m Settings := do
  let s ← baseSettings g
  return {
    s with
    inputFolder := g.operand.getD s.inputFolder
    outputFolder := g.output.getD s.outputFolder }

/-- The report of a run, as the command line asks for it. -/
def reportText (g : Given) (r : Report) : String :=
  if g.json then r.json.pretty 0 ++ "\n" else r.text

/-- **Converting a folder**: it succeeds if no document fails. -/
def runConvert (g : Given) : m Outcome := do
  let run : ExceptT Error m Report := do convertFolder (← convertSettings g)
  match ← run.run with
  | .ok r => return { exit := if r.allConverted then 0 else 1, stdout := reportText g r }
  | .error e => return .failure e

/-- **Printing the declarations of a document.** -/
def runPrint (file : Path) (g : Given) : m Outcome := do
  let run : ExceptT Error m TypingsFile := do convertFile (← baseSettings g) file
  match ← run.run with
  | .ok typings => return { exit := 0, stdout := typings.text }
  | .error e => return .failure e

/-- **The run of a command line.** -/
def run (arguments : List String) : m Outcome :=
  match request? arguments with
  | none => return { exit := 2, stderr := usageText }
  | some .version => return { exit := 0, stdout := versionText }
  | some .help => return { exit := 0, stdout := usageText }
  | some (.convert g) => runConvert g
  | some (.print file g) => runPrint file g

end SchemaTypings.Command
