import SchemaTypings.Error

/-!
# Files and folders

What the tool asks of a file system, as a class over a monad: the conversion of a folder is
written once, and means the same whether the files are those of the machine or a tree of
files that is passed along as a state.

Every request can be refused. Nothing else is asked of the files, so what a run does to them
can be read off these operations.
-/

namespace SchemaTypings

/-- **A store of files and folders**, which the paths of a run refer to. -/
class FileStore (m : Type → Type) where
  /-- How many bytes stand at a path. -/
  size : Path → m (Except SystemError Nat)
  /-- The bytes of a file. -/
  bytes : Path → m (Except SystemError ByteArray)
  /-- The names of what is in a folder, in any order. -/
  names : Path → m (Except SystemError (List String))
  /-- Whether a file stands at a path. -/
  isFile : Path → m Bool
  /-- Whether a folder stands at a path. -/
  isFolder : Path → m Bool
  /-- Creates one folder, in a folder that is there. -/
  createFolder : Path → m (Except SystemError Unit)
  /-- Writes a file, in place of any that is there. -/
  write : Path → String → m (Except SystemError Unit)

variable {m : Type → Type} [Monad m]

/-- A request whose refusal is an error. -/
def demand {α : Type} (refused : SystemError → Error) (request : m (Except SystemError α)) :
    ExceptT Error m α :=
  ExceptT.mk ((·.mapError refused) <$> request)

/-- A result that is known without the store. -/
def settle {α : Type} (result : Except Error α) : ExceptT Error m α :=
  ExceptT.mk (pure result)

variable [FileStore m]

/-- **The text of a file.** The refusals of the store, bytes that are no text among them, are
worded by `refused`. -/
def readText (refused : SystemError → Error) (p : Path) : ExceptT Error m String := do
  let bytes ← demand refused (FileStore.bytes p)
  match String.fromUTF8? bytes with
  | some text => return text
  | none => throw (refused .notText)

/-- Creates the folder that comes first, after those above it, which follow in order, where
they are missing. -/
def createAlong : List Path → m (Except SystemError Unit)
  | [] => pure (.error .notFound)
  | p :: above => do
    if p.text = "" then
      return .ok ()
    match ← FileStore.createFolder p with
    | .ok () => return .ok ()
    | .error .notFound => do
      match ← createAlong above with
      | .error e => return .error e
      | .ok () => settled p (← FileStore.createFolder p)
    | .error e => settled p (.error e)
where
  /-- A folder that could not be created may be there already. -/
  settled (p : Path) (result : Except SystemError Unit) : m (Except SystemError Unit) := do
    match result with
    | .ok () => return .ok ()
    | .error e => return if ← FileStore.isFolder p then .ok () else .error e

/-- **Creates a folder** and the folders above it, where they are missing. -/
def createFolders (p : Path) : m (Except SystemError Unit) :=
  createAlong (p :: p.ancestors)

end SchemaTypings
