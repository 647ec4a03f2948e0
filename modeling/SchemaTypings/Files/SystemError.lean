/-!
# What the system can refuse

The causes for which a file or folder cannot be used, with the texts that messages give
for them.
-/

namespace SchemaTypings

/-- **A refusal of the system.** -/
inductive SystemError where
  /-- There is no such file or folder. -/
  | notFound
  /-- There is one already. -/
  | alreadyExists
  /-- A part of the path is no folder. -/
  | notFolder
  /-- A folder stands where a file is needed. -/
  | isFolder
  /-- The bytes of a file are no text. -/
  | notText
  /-- The path holds a null character. -/
  | nullInPath
  /-- Any other refusal, with its text. -/
  | other (text : String)
deriving DecidableEq, Repr

/-- The text of a refusal. -/
def SystemError.text : SystemError → String
  | .notFound => "No such file or directory (os error 2)"
  | .alreadyExists => "File exists (os error 17)"
  | .notFolder => "Not a directory (os error 20)"
  | .isFolder => "Is a directory (os error 21)"
  | .notText => "stream did not contain valid UTF-8"
  | .nullInPath => "file name contained an unexpected NUL byte"
  | .other text => text

end SchemaTypings
