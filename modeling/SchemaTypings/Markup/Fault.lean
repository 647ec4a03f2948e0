import SchemaTypings.Text.Visible

/-!
# What can be wrong with markup

Each fault is a cause with the places and characters that belong to it; its wording is one
function per kind of fault. Offsets count bytes: those of the whole document for what is
met between tags, those of the tag's own text for attributes, and those of the raw value
for character references.
-/

namespace SchemaTypings.Markup

/-- A range of offsets in a message. -/
def rangeText (first last : Nat) : String :=
  first.repr ++ ".." ++ last.repr

/-! ## Character references -/

/-- **A fault of a character reference** in an attribute value. -/
inductive ReferenceFault where
  /-- No semicolon ends the reference before the next ampersand or the end of the value. -/
  | unterminated (first last : Nat)
  /-- The reference stands for the null character. -/
  | nullCharacter (first last : Nat)
  /-- The name is none of the predefined ones. -/
  | unknownName (first last : Nat) (name : List Char)
  /-- More hexadecimal digits than any character needs. -/
  | longHexadecimal
  /-- A byte that is no hexadecimal digit. -/
  | badHexadecimal (byte : Char)
  /-- More decimal digits than any character needs. -/
  | longDecimal
  /-- A byte that is no decimal digit. -/
  | badDecimal (byte : Char)
  /-- A number that no character has. -/
  | noCharacter (code : Nat)
deriving DecidableEq, Repr

/-- The text of a fault of a character reference. -/
def ReferenceFault.text : ReferenceFault → String
  | .unterminated first last => inRange first last ++ "Cannot find ';' after '&'"
  | .nullCharacter first last => inRange first last ++ "Null character entity not allowed"
  | .unknownName first last name =>
    inRange first last ++ "Unrecognized escape symbol: " ++ Text.quoted name
  | .longHexadecimal => "Cannot convert hexadecimal to utf8"
  | .badHexadecimal byte => "'" ++ byte.toString ++ "' is not a valid hexadecimal character"
  | .longDecimal => "Cannot convert decimal to utf8"
  | .badDecimal byte => "'" ++ byte.toString ++ "' is not a valid decimal character"
  | .noCharacter code => "'" ++ code.repr ++ "' is not a valid codepoint"
where
  /-- The opening of a message about a range of the value. -/
  inRange (first last : Nat) : String :=
    "Error while escaping character at range " ++ rangeText first last ++ ": "

/-! ## Attributes -/

/-- **A fault in how an attribute is written.** -/
inductive AttributeFault where
  /-- No equals sign follows the key. -/
  | expectedEquals (position : Nat)
  /-- The tag has an attribute of that name already. -/
  | duplicate (position previous : Nat)
  /-- Nothing follows the equals sign. -/
  | expectedValue (position : Nat)
  /-- The value is not quoted. -/
  | unquotedValue (position : Nat)
  /-- The quote that opens the value does not occur again. -/
  | unclosedValue (position : Nat) (quote : Char)
deriving DecidableEq, Repr

/-- The text of a fault of an attribute. -/
def AttributeFault.text : AttributeFault → String
  | .expectedEquals position =>
    place position ++ "attribute key must be directly followed by `=` or space"
  | .duplicate position previous =>
    place position ++ "duplicated attribute, previous declaration at position " ++ previous.repr
  | .expectedValue position => place position ++ "`=` must be followed by an attribute value"
  | .unquotedValue position => place position ++ "attribute value must be enclosed in `\"` or `'`"
  | .unclosedValue position quote =>
    place position ++ "missing closing quote `" ++ quote.toString ++ "` in attribute value"
where
  /-- The opening of a message about a place in the tag. -/
  place (position : Nat) : String := "position " ++ position.repr ++ ": "

/-! ## Constructs -/

/-- **A construct that begins with an exclamation mark.** -/
inductive Special where
  /-- A comment. -/
  | comment
  /-- A section of character data. -/
  | cdata
  /-- The document type. -/
  | doctype
deriving DecidableEq, Repr

/-- How a message names such a construct. -/
def Special.label : Special → String
  | .comment => "Comment"
  | .cdata => "CData"
  | .doctype => "DOCTYPE"

/-- **A fault met while constructs are read.** -/
inductive ReadFault where
  /-- The document ends after an exclamation mark. -/
  | bareExclamation
  /-- A character after an exclamation mark that no construct begins with. -/
  | unknownSpecial (byte : Char)
  /-- A construct that does not end, or that does not begin as it should. -/
  | unfinishedSpecial (kind : Special)
  /-- A document type that says nothing. -/
  | emptyDoctype
  /-- A processing instruction that does not end. -/
  | unfinishedInstruction
  /-- An end tag that does not belong to the innermost open element. -/
  | mismatchedEnd (expected found : String)
deriving DecidableEq, Repr

/-- The text of a fault met while constructs are read. -/
def ReadFault.text : ReadFault → String
  | .bareExclamation => unexpectedEnd "Bang"
  | .unknownSpecial byte =>
    "Only Comment (`--`), CDATA (`[CDATA[`) and DOCTYPE (`DOCTYPE`) nodes can start with a '!'," ++
      " but symbol `" ++ byte.toString ++ "` found"
  | .unfinishedSpecial kind => unexpectedEnd kind.label
  | .emptyDoctype => "DOCTYPE declaration must not be empty"
  | .unfinishedInstruction => unexpectedEnd "XmlDecl"
  | .mismatchedEnd expected found => "Expecting </" ++ expected ++ "> found </" ++ found ++ ">"
where
  /-- The text for a construct that the document breaks off. -/
  unexpectedEnd (what : String) : String := "Unexpected EOF during reading " ++ what

/-- **A fault of a document.** -/
inductive Fault where
  /-- A fault met at a place between tags. -/
  | reading (position : Nat) (cause : ReadFault)
  /-- A badly written attribute. -/
  | attribute (cause : AttributeFault)
  /-- A bad character reference in an attribute value. -/
  | value (cause : ReferenceFault)
  /-- An element that is open at the end of the document. -/
  | unclosed (tag : String)
deriving DecidableEq, Repr

/-- The text of a fault of a document. -/
def Fault.text : Fault → String
  | .reading position cause =>
    "Error parsing XML at position " ++ position.repr ++ ": " ++ cause.text
  | .attribute cause => "Failed to parse attribute: " ++ cause.text
  | .value cause => "Failed to unescape attribute value: " ++ cause.text
  | .unclosed tag => "Unexpected end of document: <" ++ tag ++ "> is not closed"

/-! ## Readings in steps -/

/-- **A reading that succeeds has succeeded in each of its steps**: here in its first one, with
a result that the others go on from. -/
theorem exists_of_bind_eq_ok {ε α β : Type} {first : Except ε α} {next : α → Except ε β} {b : β}
    (h : first >>= next = .ok b) : ∃ a, first = .ok a ∧ next a = .ok b := by
  cases first with
  | error e => cases h
  | ok a => exact ⟨a, rfl, h⟩

end SchemaTypings.Markup
