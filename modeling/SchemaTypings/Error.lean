import SchemaTypings.Files.Path
import SchemaTypings.Files.SystemError
import SchemaTypings.Limits
import SchemaTypings.Markup.Fault
import SchemaTypings.Schema.Fault

/-!
# Errors

Why a document, a folder or a run fails. An error is a cause; its text is a heading that
tells the kind of the error, followed by what the cause says of itself.
-/

namespace SchemaTypings

/-- **A file or folder that could not be used.** -/
inductive ResourceError where
  /-- A document could not be read. -/
  | readFile (path : Path) (cause : SystemError)
  /-- An input folder could not be listed. -/
  | readFolder (path : Path) (cause : SystemError)
  /-- A declaration file could not be written. -/
  | writeFile (path : Path) (cause : SystemError)
deriving DecidableEq, Repr

/-- The text of a resource error. -/
def ResourceError.text : ResourceError → String
  | .readFile path cause => "Failed to read file '" ++ path.text ++ "': " ++ cause.text
  | .readFolder path cause => "Failed to read input folder '" ++ path.text ++ "': " ++ cause.text
  | .writeFile path cause => "Failed to write '" ++ path.text ++ "': " ++ cause.text

/-- **Settings that could not be used.** -/
inductive SettingsError where
  /-- The settings file could not be read. -/
  | unreadable (path : Path) (cause : SystemError)
  /-- The text is no TOML document. -/
  | malformed
  /-- A setting has a value of a wrong kind. -/
  | unfit
deriving DecidableEq, Repr

/-- The text of a settings error. -/
def SettingsError.text : SettingsError → String
  | .unreadable path cause => "Failed to read config file '" ++ path.text ++ "': " ++ cause.text
  | .malformed => "not a TOML document"
  | .unfit => "a setting has a value of a wrong kind"

/-- **The kinds of errors.** -/
inductive ErrorKind where
  /-- A document that is no schema. -/
  | structural
  /-- A file or folder that could not be used. -/
  | resource
  /-- A bound that was passed. -/
  | limit
  /-- Settings that could not be used. -/
  | settings
  /-- A refusal of the system that belongs to no document. -/
  | system
  /-- A document that is not well-formed. -/
  | markup
deriving DecidableEq, Repr

/-- What the text of an error of a kind begins with. -/
def ErrorKind.heading : ErrorKind → String
  | .structural => "structure error: "
  | .resource => "resource error: "
  | .limit => "limit exceeded: "
  | .settings => "config error: "
  | .system => "I/O error: "
  | .markup => "XML error: "

/-- **An error.** -/
inductive Error where
  /-- A document that is no schema. -/
  | structural (cause : Schema.Fault)
  /-- A file or folder that could not be used. -/
  | resource (cause : ResourceError)
  /-- A bound that was passed. -/
  | limit (cause : LimitExceeded)
  /-- Settings that could not be used. -/
  | settings (cause : SettingsError)
  /-- A refusal of the system that belongs to no document. -/
  | system (cause : SystemError)
  /-- A document that is not well-formed. -/
  | markup (cause : Markup.Fault)
deriving DecidableEq, Repr

namespace Error

/-- The kind of an error. -/
def kind : Error → ErrorKind
  | .structural _ => .structural
  | .resource _ => .resource
  | .limit _ => .limit
  | .settings _ => .settings
  | .system _ => .system
  | .markup _ => .markup

/-- What an error says of its cause. -/
def detail : Error → String
  | .structural cause => cause.explanation.text
  | .resource cause => cause.text
  | .limit cause => cause.text
  | .settings cause => cause.text
  | .system cause => cause.text
  | .markup cause => cause.text

/-- **The text of an error.** -/
def text (e : Error) : String :=
  e.kind.heading ++ e.detail

end Error

/-- The check of a bound, as a step that may fail with an error. -/
def Limits.require (limits : Limits) (bound : Bound) (value : Nat) : Except Error Unit :=
  (limits.check bound value).mapError .limit

end SchemaTypings
