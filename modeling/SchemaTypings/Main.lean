import SchemaTypings.Command.Run

/-!
# The program

The files of the machine as a store, and the command line of the program. What a run does
is decided in `Command.run`; here its requests are passed to the system and its outcome is
written out.
-/

namespace SchemaTypings

/-- The refusal that an error of the machine stands for. Some requests give the number of
an error and others its negative, as a word of 32 bits either way. -/
def SystemError.ofMachine : IO.Error → SystemError
  | .noFileOrDirectory .. => .notFound
  | .alreadyExists .. => .alreadyExists
  | .inappropriateType _ code detail =>
    if code = 20 ∨ code = -20 then .notFolder
    else if code = 21 ∨ code = -21 then .isFolder
    else .other detail
  | e => .other (toString e)

/-- A request to the machine. An empty path leads nowhere. -/
def requestOfMachine {α : Type} (p : Path) (request : IO α) : IO (Except SystemError α) := do
  if p.text = "" then
    return .error .notFound
  try
    return .ok (← request)
  catch e =>
    return .error (.ofMachine e)

/-- What the machine knows of what stands at a path. -/
def metadataOf (p : Path) : IO (Except SystemError IO.FS.Metadata) :=
  requestOfMachine p do
    let full := (← IO.currentDir) / p.text
    full.metadata

/-- **The files of the machine are a store.** -/
instance : FileStore IO where
  size p := return (← metadataOf p).map (·.byteSize.toNat)
  bytes p := requestOfMachine p (IO.FS.readBinFile p.text)
  names p := requestOfMachine p do
    let full := (← IO.currentDir) / p.text
    return (← full.readDir).toList.map (·.fileName)
  isFile p := return (← metadataOf p).toOption.any (·.type == .file)
  isFolder p := return (← metadataOf p).toOption.any (·.type == .dir)
  createFolder p := requestOfMachine p (IO.FS.createDir p.text)
  write p text := requestOfMachine p (IO.FS.writeBinFile p.text text.toUTF8)

end SchemaTypings

/-- Runs the command line, writes what comes of it, and returns its exit status. -/
def main (arguments : List String) : IO UInt32 := do
  let outcome : SchemaTypings.Command.Outcome ← SchemaTypings.Command.run arguments
  IO.print outcome.stdout
  IO.eprint outcome.stderr
  return outcome.exit.toUInt32
