import SchemaTypings.Toml.Quoted
import SchemaTypings.Toml.Scalar
import SchemaTypings.Toml.Table

/-!
# Reading TOML documents

A document is a list of statements, each on a line of its own: a pair of a key and a value,
the header of a table, or the header of one more table of an array. Pairs belong to the
header before them. Between statements, and between the items of an array, there may be
blank lines and comments.

Values are nested in arrays and in tables between braces, to a fixed depth. The functions
that skip never fail: if something stands where it should not, the next thing to be read
is not found.
-/

namespace SchemaTypings.Toml

/-- How deep values may be nested, and how many parts a key may have. -/
def maxNesting : Nat := 79

/-! ## Blanks and comments -/

/-- A text without the spaces and tabs it begins with. -/
def skipSpace (cs : List Char) : List Char :=
  cs.dropWhile isSpace

/-- A text without the blanks, line breaks and comments it begins with; `comment` tells
whether it begins inside a comment. -/
def skipFiller (comment : Bool) : List Char → List Char
  | [] => []
  | c :: cs =>
    if c = '\n' then skipFiller false cs
    else if c = '\r' ∧ cs.head? = some '\n' then skipFiller comment cs
    else if comment then
      if isPlain c then skipFiller true cs else c :: cs
    else if c = '#' then skipFiller true cs
    else if isSpace c then skipFiller false cs
    else c :: cs

/-- What follows the end of a line, where only blanks and a comment may stand before it. -/
def endLine? (cs : List Char) : Option (List Char) :=
  let rest :=
    match skipSpace cs with
    | '#' :: comment => comment.dropWhile isPlain
    | rest => rest
  if rest.isEmpty then some [] else lineBreak? rest

/-! ## Keys -/

/-- Whether a character may stand in a key without quotes. -/
def isBareKey (c : Char) : Bool :=
  c.isAlphanum || c == '-' || c == '_'

/-- One part of a key, and what follows it. -/
def readKeyPart (cs : List Char) : Option (String × List Char) :=
  let part :=
    match cs with
    | '"' :: rest => readBasic rest
    | '\'' :: rest => readLiteral rest
    | _ =>
      let bare := cs.takeWhile isBareKey
      if bare.isEmpty then none else some (bare, cs.dropWhile isBareKey)
  part.map fun (text, rest) => (String.ofList text, rest)

/-- The parts of a key, between dots. -/
def readKeyParts (cs : List Char) : Option (List String × List Char) :=
  match readKeyPart (skipSpace cs) with
  | none => none
  | some (part, after) =>
    match skipSpace after with
    | '.' :: rest =>
      if rest.length < cs.length then
        (readKeyParts rest).map fun (parts, rest) => (part :: parts, rest)
      else none
    | rest => some ([part], rest)
termination_by cs.length

/-- **A key**, and what follows it. -/
def readKey (cs : List Char) : Option (List String × List Char) :=
  (readKeyParts cs).filter fun (parts, _) => parts.length ≤ maxNesting

/-- **A pair** of a key and a value, which `value` reads. -/
def readPair (value : List Char → Option (Value × List Char)) (cs : List Char) :
    Option ((List String × Value) × List Char) := do
  let (key, cs) ← readKey cs
  let cs ← readChar '=' cs
  let (v, cs) ← value (skipSpace cs)
  return ((key, v), cs)

/-! ## Values -/

/-- The items of an array after its opening bracket or a comma, up to its closing bracket. -/
def readItems (item : List Char → Option (Value × List Char)) (cs : List Char) :
    Option (List Value × List Char) :=
  match skipFiller false cs with
  | ']' :: rest => some ([], rest)
  | start =>
    match item start with
    | none => none
    | some (v, after) =>
      match skipFiller false after with
      | ']' :: rest => some ([v], rest)
      | ',' :: rest =>
        if rest.length < cs.length then
          (readItems item rest).map fun (vs, rest) => (v :: vs, rest)
        else none
      | _ => none
termination_by cs.length

/-- The pairs of a table between braces, at least one, up to its closing brace. -/
def readPairs (value : List Char → Option (Value × List Char)) (cs : List Char) :
    Option (List (List String × Value) × List Char) :=
  match readPair value cs with
  | none => none
  | some (pair, after) =>
    match skipSpace after with
    | '\x7d' :: rest => some ([pair], rest)
    | ',' :: rest =>
      if rest.length < cs.length then
        (readPairs value rest).map fun (pairs, rest) => (pair :: pairs, rest)
      else none
    | _ => none
termination_by cs.length

/-- A table between braces, after the opening one. -/
def readBraces (value : List Char → Option (Value × List Char)) (cs : List Char) :
    Option (Value × List Char) := do
  let (pairs, rest) ←
    match skipSpace cs with
    | '\x7d' :: rest => some ([], rest)
    | _ => readPairs value cs
  return (.table (finishEntries (← addPairs [] pairs)), rest)

/-- **A value**, and what follows it; arrays and tables inside it may be nested `depth` deep. -/
def readValue : Nat → List Char → Option (Value × List Char)
  | depth, cs =>
    match cs with
    | '"' :: _ | '\'' :: _ => (readQuoted cs).map fun (text, rest) => (.text text, rest)
    | '[' :: rest =>
      match depth with
      | 0 => none
      | depth + 1 =>
        (readItems (readValue depth) rest).map fun (items, rest) => (.array items, rest)
    | '\x7b' :: rest =>
      match depth with
      | 0 => none
      | depth + 1 => readBraces (readValue depth) rest
    | _ => readScalar cs

/-! ## Statements -/

/-- **A statement** of a document. -/
inductive Statement where
  /-- A pair of a key and a value. -/
  | pair (key : List String) (value : Value)
  /-- The header of a table. -/
  | table (key : List String)
  /-- The header of one more table of an array. -/
  | element (key : List String)
deriving Repr

/-- **One statement**, and what follows it on its line. -/
def readStatement (cs : List Char) : Option (Statement × List Char) :=
  match cs with
  | '[' :: '[' :: rest => do
    let (key, rest) ← readKey rest
    let rest ← readChar ']' rest
    let rest ← readChar ']' rest
    return (.element key, rest)
  | '[' :: rest => do
    let (key, rest) ← readKey rest
    let rest ← readChar ']' rest
    return (.table key, rest)
  | _ => do
    let ((key, value), rest) ← readPair (readValue maxNesting) cs
    return (.pair key value, rest)

/-- The statements of a text. -/
def readStatements (cs : List Char) : Option (List Statement) :=
  match skipFiller false cs with
  | [] => some []
  | start =>
    match readStatement start with
    | none => none
    | some (statement, after) =>
      match endLine? after with
      | none => none
      | some rest =>
        if rest.length < cs.length then (readStatements rest).map (statement :: ·) else none
termination_by cs.length

/-- The pairs at the beginning of a list of statements. -/
def leadingPairs : List Statement → List (List String × Value)
  | .pair key value :: more => (key, value) :: leadingPairs more
  | _ => []

/-- **The table of a list of statements.** A header takes the pairs that follow it. -/
def assemble : Entries → List Statement → Option Entries
  | es, [] => some es
  | es, .pair _ _ :: more => assemble es more
  | es, .table key :: more => do assemble (← addTable es key (leadingPairs more)) more
  | es, .element key :: more => do assemble (← addElement es key (leadingPairs more)) more

/-- **The table that a document says**, if it is a TOML document. -/
def parse? (text : String) : Option Value := do
  let cs := text.toList
  let statements ← readStatements (if cs.head? = some '\uFEFF' then cs.drop 1 else cs)
  let es ← assemble (← addPairs [] (leadingPairs statements)) statements
  return .table (finishEntries es)

end SchemaTypings.Toml
