/-!
# Paths

A path is a text whose parts are separated by slashes. It is kept as it was written, since
messages and reports show it that way; what it means is read off its parts.

* Empty parts mean nothing, and neither does a `.` unless the path begins with it.
* The *file name* is the last part, if that is a name and not `.` or `..`.
* The *extension* is what follows the last dot of the file name, unless that dot comes first;
  the *stem* is what precedes it, or the whole name.
-/

namespace SchemaTypings

/-- **A path**, as written. -/
structure Path where
  /-- The text of the path. -/
  text : String
deriving DecidableEq, Repr, Inhabited

namespace Path

/-- The parts of a text between slashes, with the empty ones. -/
def split (cs : List Char) : List (List Char) :=
  cs.splitOn '/'

/-- Whether a path begins at the root. -/
def isAbsolute (p : Path) : Bool :=
  p.text.toList.head? == some '/'

/-- **The parts of a path that mean something**: empty parts are left out, and so is a `.`
unless it begins the path. -/
def parts (p : Path) : List String :=
  let all := (split p.text.toList).map String.ofList
  let named := all.filter fun part => part ≠ "" ∧ part ≠ "."
  if all.head? = some "." then "." :: named else named

/-- Whether a part is the name of a file or folder. -/
def isName (part : String) : Bool :=
  part ≠ "." ∧ part ≠ ".."

/-- **The file name** of a path. -/
def fileName? (p : Path) : Option String :=
  p.parts.getLast?.filter isName

/-- A file name at its last dot, unless that comes first: the stem and the extension. -/
def splitName (name : String) : String × Option String :=
  let reversed := name.toList.reverse
  match reversed.dropWhile (· ≠ '.') with
  | [] => (name, none)
  | _ :: before =>
    if before.isEmpty then (name, none)
    else
      (String.ofList before.reverse, some (String.ofList (reversed.takeWhile (· ≠ '.')).reverse))

/-- The stem of a path's file name. -/
def stem? (p : Path) : Option String :=
  p.fileName?.map (splitName · |>.1)

/-- The extension of a path's file name. -/
def extension? (p : Path) : Option String :=
  p.fileName?.bind (splitName · |>.2)

/-- **Joining** a path and a relative one: a slash comes between them, unless the first is
empty or ends in one. -/
def join (p : Path) (name : String) : Path :=
  if p.text = "" ∨ p.text.toList.getLast? = some '/' then ⟨p.text ++ name⟩
  else ⟨p.text ++ "/" ++ name⟩

/-- The path of some parts. -/
def ofParts (absolute : Bool) (parts : List String) : Path :=
  ⟨(if absolute then "/" else "") ++ "/".intercalate parts⟩

/-- **The paths above**, the nearest first, down to the root or the empty path. -/
def ancestors (p : Path) : List Path :=
  go p.parts.length
where
  /-- The paths of the first parts, fewer than `count` of them. -/
  go : Nat → List Path
    | 0 => []
    | count + 1 => ofParts p.isAbsolute (p.parts.take count) :: go count

end Path

end SchemaTypings
