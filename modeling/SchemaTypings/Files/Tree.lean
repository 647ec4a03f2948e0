import SchemaTypings.Files.Store

/-!
# Trees of files

A store that is a value: files with their bytes, in folders, in a tree. A path is looked up
from the top of the tree, part by part, as a system does it:

* every part but the last must lead to a folder;
* `.` and `..` are the folder itself and the one above it, and the top is above itself;
* a path that ends in a slash must lead to a folder.

Where something stands in the tree is a list of names, its *location*. What a path means and
what is done at a location are kept apart: `locate` takes the one to the other, and is the
only part that can be refused for how a path is written.
-/

namespace SchemaTypings

/-- **A file or a folder.** -/
inductive FileTree where
  /-- A file, by its bytes. -/
  | file (bytes : ByteArray)
  /-- A folder, by its entries. -/
  | folder (entries : List (String × FileTree))

namespace FileTree

/-- A folder with nothing in it. -/
def empty : FileTree :=
  .folder []

/-! ## Locations -/

/-- **What stands at a location.** -/
def get? : FileTree → List String → Option FileTree
  | t, [] => some t
  | .file _, _ :: _ => none
  | .folder entries, name :: names =>
    match entries.lookup name with
    | some t => t.get? names
    | none => none

/-- Entries with one name set: what it stands for changes in place, and a new name comes
last. -/
def setEntry (name : String) (t : FileTree) : List (String × FileTree) → List (String × FileTree)
  | [] => [(name, t)]
  | (n, u) :: es => if n = name then (n, t) :: es else (n, u) :: setEntry name t es

/-- **The tree with `new` at a location.** The folder that the location is in must be there;
without it nothing changes. -/
def put (new : FileTree) : FileTree → List String → FileTree
  | _, [] => new
  | .file bytes, _ :: _ => .file bytes
  | .folder entries, [name] => .folder (setEntry name new entries)
  | .folder entries, name :: names =>
    match entries.lookup name with
    | some t => .folder (setEntry name (put new t names) entries)
    | none => .folder entries

/-! ## Paths -/

/-- The parts between the slashes of a path. -/
def pieces (p : Path) : List String :=
  ((Path.split p.text.toList).map String.ofList).filter (· ≠ "")

/-- Whether a path ends in a slash. -/
def endsInSlash (p : Path) : Bool :=
  p.text.toList.getLast? == some '/'

/-- The parts of a path as a system goes through them; a slash at the end asks for a folder. -/
def steps (p : Path) : List String :=
  if endsInSlash p then pieces p ++ ["."] else pieces p

/-- Goes on from a location through the parts of a path. -/
def walk (t : FileTree) : List String → List String → Except SystemError (List String)
  | here, [] => .ok here
  | here, step :: more =>
    match t.get? here with
    | some (.folder entries) =>
      if step = "." then walk t here more
      else if step = ".." then walk t here.dropLast more
      else if (entries.lookup step).isSome then walk t (here ++ [step]) more
      else .error .notFound
    | _ => .error .notFolder

/-- A path that a system can be asked about. -/
def askable (p : Path) : Except SystemError Unit :=
  if p.text.toList.contains '\x00' then .error .nullInPath
  else if p.text = "" then .error .notFound
  else .ok ()

/-- **Where a path leads**, if something stands there. -/
def locate (t : FileTree) (p : Path) : Except SystemError (List String) := do
  askable p
  walk t [] (steps p)

/-- What stands where a path leads. -/
def find (t : FileTree) (p : Path) : Except SystemError FileTree := do
  match t.get? (← t.locate p) with
  | some found => .ok found
  | none => .error .notFound

/-- **Where a path would put something new**: the location of the folder and the name in it,
or nothing if the last part of the path is no name. -/
def place (t : FileTree) (p : Path) : Except SystemError (Option (List String × String)) := do
  askable p
  match (pieces p).getLast? with
  | none => return none
  | some last =>
    let around ← walk t [] ((pieces p).dropLast ++ ["."])
    return if Path.isName last then some (around, last) else none

/-! ## What a store is asked -/

/-- The bytes of a folder itself. -/
def folderSize : Nat := 4096

/-- How many bytes stand at a path. -/
def sizeAt (t : FileTree) (p : Path) : Except SystemError Nat := do
  match ← t.find p with
  | .file bytes => .ok bytes.size
  | .folder _ => .ok folderSize

/-- The bytes of a file. -/
def bytesAt (t : FileTree) (p : Path) : Except SystemError ByteArray := do
  match ← t.find p with
  | .file bytes => .ok bytes
  | .folder _ => .error .isFolder

/-- The names in a folder. -/
def namesAt (t : FileTree) (p : Path) : Except SystemError (List String) := do
  match ← t.find p with
  | .file _ => .error .notFolder
  | .folder entries => .ok (entries.map (·.1))

/-- Whether a file stands at a path. -/
def isFileAt (t : FileTree) (p : Path) : Bool :=
  match t.find p with
  | .ok (.file _) => true
  | _ => false

/-- Whether a folder stands at a path. -/
def isFolderAt (t : FileTree) (p : Path) : Bool :=
  match t.find p with
  | .ok (.folder _) => true
  | _ => false

/-- The tree with a new folder. -/
def withFolder (t : FileTree) (p : Path) : Except SystemError FileTree := do
  match ← t.place p with
  | none => .error .alreadyExists
  | some (around, name) =>
    let location := around ++ [name]
    if (t.get? location).isSome then .error .alreadyExists
    else .ok (put empty t location)

/-- The tree with a file of given bytes, in place of any that is there. -/
def withFile (t : FileTree) (p : Path) (bytes : ByteArray) : Except SystemError FileTree := do
  match ← t.place p with
  | none => .error .isFolder
  | some (around, name) =>
    let location := around ++ [name]
    match t.get? location with
    | some (.folder _) => .error .isFolder
    | _ =>
      if endsInSlash p then .error .isFolder
      else .ok (put (.file bytes) t location)

/-- A request that may change the tree. -/
def attempt (change : FileTree → Except SystemError FileTree) :
    StateM FileTree (Except SystemError Unit) := do
  match change (← get) with
  | .ok t => do
    set t
    return .ok ()
  | .error e => return .error e

/-- **A tree that is passed along is a store.** -/
instance : FileStore (StateM FileTree) where
  size p := return (← get).sizeAt p
  bytes p := return (← get).bytesAt p
  names p := return (← get).namesAt p
  isFile p := return (← get).isFileAt p
  isFolder p := return (← get).isFolderAt p
  createFolder p := attempt (·.withFolder p)
  write p text := attempt (·.withFile p text.toUTF8)

end FileTree

end SchemaTypings
