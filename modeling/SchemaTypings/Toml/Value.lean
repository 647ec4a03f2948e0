/-!
# TOML values

What a TOML document says, once it is read: a table of values. Settings are texts, whole
numbers and truth values. Other numbers, dates and times are values too, so that a document
which holds them is read, but nothing is made of them beyond how they were written.
-/

namespace SchemaTypings.Toml

/-- **A TOML value.** -/
inductive Value where
  /-- A text. -/
  | text (text : String)
  /-- A whole number. -/
  | integer (number : Int)
  /-- A truth value. -/
  | boolean (truth : Bool)
  /-- Any other number, as written. -/
  | real (written : String)
  /-- A date, a time, or both, as written. -/
  | moment (written : String)
  /-- A list of values. -/
  | array (items : List Value)
  /-- A table: values by key. -/
  | table (members : List (String × Value))
deriving Repr, Inhabited

end SchemaTypings.Toml
