import SchemaTypings.Toml.Document

/-!
# How TOML is written

The grammar of TOML documents, apart from how they are read. Each relation is between a text, what
it says at its beginning, and the rest of the text behind that: `KeyText text key rest` holds if
`text` is a writing of `key` followed by `rest`. Where something ends only because of what follows
it, the relation asks for that: spaces go on to the first character that is no space, and a number
is followed by something that can stand behind a value (`Follows`).

A document can be written in many ways, so the relations are no functions of what is said. Texts
may be spelled with escapes or without, in any of the four kinds of quotes; numbers may be grouped
by underscores; there may be spaces, line breaks and comments wherever TOML has them.

Of the values without quotes and brackets only whole decimal numbers and truth values are described
here. All others are left to the reader (`SimpleText.scalar`): they are values that no setting has.
-/

namespace SchemaTypings.Toml

open Text

/-! ## Spaces, lines and comments -/

/-- **Spaces and tabs**, all that there are, and any number of them. -/
def Spaces (text rest : List Char) : Prop :=
  ∃ run, text = run ++ rest ∧ (∀ c ∈ run, isSpace c = true) ∧ ∀ c ∈ rest.head?, isSpace c = false

/-- **A line break.** -/
def LineBreak (text rest : List Char) : Prop :=
  text = '\n' :: rest ∨ text = '\r' :: '\n' :: rest

/-- A text that begins with no space, line break or comment. -/
structure Solid (text : List Char) : Prop where
  /-- It begins with no space. -/
  not_space : ∀ c ∈ text.head?, isSpace c = false
  /-- It begins with no line break. -/
  not_break : ∀ rest, ¬ LineBreak text rest
  /-- It begins with no comment. -/
  not_comment : text.head? ≠ some '#'

/-- **Spaces, line breaks and comments**, all that there are. A comment goes to the end of its line
or of the document. -/
inductive Filler : List Char → List Char → Prop where
  /-- Nothing is left of them. -/
  | done {rest : List Char} (h : Solid rest) : Filler rest rest
  /-- A space. -/
  | space {c : Char} {text rest : List Char} (hc : isSpace c = true) (h : Filler text rest) :
    Filler (c :: text) rest
  /-- A line break. -/
  | newline {text more rest : List Char} (hbreak : LineBreak text more) (h : Filler more rest) :
    Filler text rest
  /-- A comment with the break of its line. -/
  | comment {body text more rest : List Char} (hbody : ∀ c ∈ body, isPlain c = true)
    (hbreak : LineBreak text more) (h : Filler more rest) : Filler ('#' :: (body ++ text)) rest
  /-- A comment at the end of the document. -/
  | lastComment {body : List Char} (hbody : ∀ c ∈ body, isPlain c = true) : Filler ('#' :: body) []

/-- The end of a line, or of the document. -/
def BreakOrEnd (text rest : List Char) : Prop :=
  LineBreak text rest ∨ text = [] ∧ rest = []

/-- **The end of a line** behind a statement: spaces, maybe a comment, and the line break. -/
inductive LineEnd : List Char → List Char → Prop where
  /-- Without a comment. -/
  | plain {text end_ rest : List Char} (hspaces : Spaces text end_) (hend : BreakOrEnd end_ rest) :
    LineEnd text rest
  /-- With a comment. -/
  | comment {text body end_ rest : List Char} (hspaces : Spaces text ('#' :: (body ++ end_)))
    (hbody : ∀ c ∈ body, isPlain c = true) (hend : BreakOrEnd end_ rest) : LineEnd text rest

/-! ## Texts in quotes -/

/-- The letters of escapes, with what they stand for. -/
def escapeLetters : List (Char × Char) :=
  [('b', '\x08'), ('t', '\t'), ('n', '\n'), ('f', '\x0c'), ('r', '\r'), ('"', '"'), ('\\', '\\')]

/-- **An escape**, behind its backslash: a letter, or the number of a character in hexadecimal. -/
inductive EscapeText : List Char → Char → List Char → Prop where
  /-- A letter. -/
  | letter {letter c : Char} {rest : List Char} (h : (letter, c) ∈ escapeLetters) :
    EscapeText (letter :: rest) c rest
  /-- Four digits. -/
  | short {digits rest : List Char} {c : Char} (hlength : digits.length = 4)
    (hnumber : number? 16 hexDigit? digits = some c.toNat) :
    EscapeText ('u' :: (digits ++ rest)) c rest
  /-- Eight digits. -/
  | long {digits rest : List Char} {c : Char} (hlength : digits.length = 8)
    (hnumber : number? 16 hexDigit? digits = some c.toNat) :
    EscapeText ('U' :: (digits ++ rest)) c rest

/-- **What stands between double quotes**, with the closing one. -/
inductive BasicBody : List Char → List Char → List Char → Prop where
  /-- The closing quote. -/
  | close {rest : List Char} : BasicBody ('"' :: rest) [] rest
  /-- A character that stands for itself. -/
  | plain {c : Char} {text body rest : List Char} (hplain : isPlain c = true) (hquote : c ≠ '"')
    (hbackslash : c ≠ '\\') (h : BasicBody text body rest) : BasicBody (c :: text) (c :: body) rest
  /-- An escape. -/
  | escape {c : Char} {text more body rest : List Char} (hescape : EscapeText text c more)
    (h : BasicBody more body rest) : BasicBody ('\\' :: text) (c :: body) rest

/-- **What stands between single quotes**, with the closing one. -/
inductive LiteralBody : List Char → List Char → List Char → Prop where
  /-- Every character stands for itself. -/
  | mk {body rest : List Char} (hbody : ∀ c ∈ body, isPlain c = true ∧ c ≠ '\'') :
    LiteralBody (body ++ '\'' :: rest) body rest

/-- **Blanks and line breaks**, all that there are, which a backslash at the end of a line takes
away. -/
inductive Blanks : List Char → List Char → Prop where
  /-- Nothing is left of them. -/
  | done {rest : List Char} (hspace : ∀ c ∈ rest.head?, isSpace c = false)
    (hbreak : ∀ more, ¬ LineBreak rest more) : Blanks rest rest
  /-- A blank. -/
  | space {c : Char} {text rest : List Char} (hc : isSpace c = true) (h : Blanks text rest) :
    Blanks (c :: text) rest
  /-- A line break. -/
  | newline {text more rest : List Char} (hbreak : LineBreak text more) (h : Blanks more rest) :
    Blanks text rest

/-- **What stands between triple quotes**, with the closing ones. Quotes may stand in the text, at
most two in a row. -/
inductive LongBody (quote : Char) : List Char → List Char → List Char → Prop where
  /-- The closing quotes, with those of the text directly before them. -/
  | close {count : Nat} {rest : List Char} (hcount : count ≤ 2) (hrest : rest.head? ≠ some quote) :
    LongBody quote (List.replicate (count + 3) quote ++ rest) (List.replicate count quote) rest
  /-- Quotes of the text with something else behind them. -/
  | quotes {count : Nat} {text body rest : List Char} (hcount : count ≤ 2)
    (htext : text.head? ≠ some quote) (h : LongBody quote text body rest) :
    LongBody quote (List.replicate count quote ++ text) (List.replicate count quote ++ body) rest
  /-- A line break. -/
  | newline {text more body rest : List Char} (hbreak : LineBreak text more)
    (h : LongBody quote more body rest) : LongBody quote text ('\n' :: body) rest
  /-- A character that stands for itself. -/
  | plain {c : Char} {text body rest : List Char} (hplain : isPlain c = true) (hquote : c ≠ quote)
    (hbackslash : c = '\\' → quote ≠ '"') (h : LongBody quote text body rest) :
    LongBody quote (c :: text) (c :: body) rest
  /-- An escape between double quotes. -/
  | escape {c : Char} {text more body rest : List Char} (hquote : quote = '"')
    (hescape : EscapeText text c more) (h : LongBody quote more body rest) :
    LongBody quote ('\\' :: text) (c :: body) rest
  /-- A line break that a backslash takes away. -/
  | joined {text end_ more start body rest : List Char} (hquote : quote = '"')
    (hspaces : Spaces text end_) (hbreak : LineBreak end_ more) (hblanks : Blanks more start)
    (h : LongBody quote start body rest) : LongBody quote ('\\' :: text) body rest

/-- A line break directly after opening quotes, if there is one. -/
def LeadingBreak (text rest : List Char) : Prop :=
  LineBreak text rest ∨ text = rest ∧ ∀ more, ¬ LineBreak text more

/-- **A text in quotes** of any kind. An empty one is not followed by the quote that is around it,
which would make it the beginning of one in triple quotes. -/
inductive QuotedText : List Char → String → List Char → Prop where
  /-- In double quotes. -/
  | basic {text body rest : List Char} (h : BasicBody text body rest)
    (hempty : body = [] → rest.head? ≠ some '"') :
    QuotedText ('"' :: text) (String.ofList body) rest
  /-- In single quotes. -/
  | literal {text body rest : List Char} (h : LiteralBody text body rest)
    (hempty : body = [] → rest.head? ≠ some '\'') :
    QuotedText ('\'' :: text) (String.ofList body) rest
  /-- In triple quotes of either kind. -/
  | long {quote : Char} {text start body rest : List Char} (hquote : quote ∈ ['"', '\''])
    (hbreak : LeadingBreak text start) (h : LongBody quote start body rest) :
    QuotedText (quote :: quote :: quote :: text) (String.ofList body) rest

/-! ## Keys -/

/-- **One part of a key**, bare or in quotes. -/
inductive KeyPart : List Char → String → List Char → Prop where
  /-- A bare part. -/
  | bare {part rest : List Char} (hne : part ≠ []) (hpart : ∀ c ∈ part, isBareKey c = true)
    (hrest : ∀ c ∈ rest.head?, isBareKey c = false) :
    KeyPart (part ++ rest) (String.ofList part) rest
  /-- A part in double quotes. -/
  | basic {text body rest : List Char} (h : BasicBody text body rest) :
    KeyPart ('"' :: text) (String.ofList body) rest
  /-- A part in single quotes. -/
  | literal {text body rest : List Char} (h : LiteralBody text body rest) :
    KeyPart ('\'' :: text) (String.ofList body) rest

/-- **The parts of a key** with dots between them, and the spaces around the dots. -/
inductive KeyParts : List Char → List String → List Char → Prop where
  /-- The last part. -/
  | last {text after rest : List Char} {part : String} (hpart : KeyPart text part after)
    (hspaces : Spaces after rest) (hrest : rest.head? ≠ some '.') : KeyParts text [part] rest
  /-- A part with others behind it. -/
  | more {text after dotted next rest : List Char} {part : String} {parts : List String}
    (hpart : KeyPart text part after) (hspaces : Spaces after ('.' :: dotted))
    (hdotted : Spaces dotted next) (h : KeyParts next parts rest) :
    KeyParts text (part :: parts) rest

/-- **A key**, with the spaces around it. The reader takes no more parts than it takes levels of
values. -/
structure KeyText (text : List Char) (key : List String) (rest : List Char) : Prop where
  /-- The parts stand behind the spaces. -/
  parts : ∃ start, Spaces text start ∧ KeyParts start key rest
  /-- There are not too many of them. -/
  length_le : key.length ≤ maxNesting

/-! ## Values -/

/-- **What can follow a value**: spaces, and then a bracket that closes, a comma, a comment, or the
end of the line. -/
def Follows (rest : List Char) : Prop :=
  ∃ end_, Spaces rest end_ ∧ ∀ c ∈ end_.head?, c ∈ ['\n', '\r', '#', ',', ']', '\x7d']

/-- **Digits with underscores between them**, and the digits alone. -/
inductive Grouped : List Char → List Char → Prop where
  /-- The last digit. -/
  | last {c : Char} (hc : c.isDigit = true) : Grouped [c] [c]
  /-- A digit before others. -/
  | digit {c : Char} {text digits : List Char} (hc : c.isDigit = true) (h : Grouped text digits) :
    Grouped (c :: text) (c :: digits)
  /-- A digit and an underscore before others. -/
  | group {c : Char} {text digits : List Char} (hc : c.isDigit = true) (h : Grouped text digits) :
    Grouped (c :: '_' :: text) (c :: digits)

/-- **A whole decimal number** that is not negative. -/
inductive DecimalText : List Char → Nat → List Char → Prop where
  /-- Maybe a sign, and the digits. -/
  | mk {sign digits rest : List Char} {number : Nat} (hsign : sign = [] ∨ sign = ['+'])
    (hdigits : Grouped digits (Nat.toDigits 10 number)) (hnumber : number ≤ maxInteger)
    (hrest : Follows rest) : DecimalText (sign ++ digits ++ rest) number rest

/-- **A value without brackets.** -/
inductive SimpleText : List Char → Value → List Char → Prop where
  /-- A text in quotes. -/
  | text {text rest : List Char} {s : String} (h : QuotedText text s rest) :
    SimpleText text (.text s) rest
  /-- A whole number. -/
  | decimal {text rest : List Char} {number : Nat} (h : DecimalText text number rest) :
    SimpleText text (.integer number) rest
  /-- True. -/
  | true {rest : List Char} (hrest : Follows rest) :
    SimpleText ('t' :: 'r' :: 'u' :: 'e' :: rest) (.boolean .true) rest
  /-- False. -/
  | false {rest : List Char} (hrest : Follows rest) :
    SimpleText ('f' :: 'a' :: 'l' :: 's' :: 'e' :: rest) (.boolean .false) rest
  /-- Any other value without quotes. -/
  | scalar {run rest : List Char} {v : Value} (hrun : ∀ c ∈ run, isScalarPart c = .true)
    (hvalue : scalar? run = some v) (hrest : Follows rest) : SimpleText (run ++ rest) v rest
  /-- A date and a time with a blank between them. -/
  | moment {date time rest : List Char} {c : Char} {v : Value} (hdate : isDate date = .true)
    (hparts : ∀ d ∈ date ++ c :: time, isScalarPart d = .true) (hc : c.isDigit = .true)
    (hvalue : scalar? (date ++ ' ' :: c :: time) = some v) (hrest : Follows rest) :
    SimpleText (date ++ ' ' :: c :: (time ++ rest)) v rest

/-- A pair of a key and a value. -/
inductive PairText (value : List Char → Value → List Char → Prop) :
    List Char → List String × Value → List Char → Prop where
  /-- Key, equals sign, value. -/
  | mk {text after start rest : List Char} {key : List String} {v : Value}
    (hkey : KeyText text key ('=' :: after)) (hspaces : Spaces after start)
    (hvalue : value start v rest) : PairText value text (key, v) rest

/-- **The items of an array**, behind its opening bracket, with the closing one. There may be a
comma behind the last item. -/
inductive ItemsText (item : List Char → Value → List Char → Prop) :
    List Char → List Value → List Char → Prop where
  /-- The closing bracket. -/
  | close {text rest : List Char} (hfiller : Filler text (']' :: rest)) :
    ItemsText item text [] rest
  /-- The last item, without a comma. -/
  | last {text start after rest : List Char} {v : Value} (hstart : Filler text start)
    (hitem : item start v after) (hend : Filler after (']' :: rest)) : ItemsText item text [v] rest
  /-- An item and a comma. -/
  | more {text start after next rest : List Char} {v : Value} {vs : List Value}
    (hstart : Filler text start) (hitem : item start v after) (hcomma : Filler after (',' :: next))
    (h : ItemsText item next vs rest) : ItemsText item text (v :: vs) rest

/-- **The pairs of a table between braces**, at least one, with the closing brace. -/
inductive PairsText (value : List Char → Value → List Char → Prop) :
    List Char → List (List String × Value) → List Char → Prop where
  /-- The last pair. -/
  | last {text after rest : List Char} {pair : List String × Value}
    (hpair : PairText value text pair after) (hend : Spaces after ('\x7d' :: rest)) :
    PairsText value text [pair] rest
  /-- A pair and a comma. -/
  | more {text after next rest : List Char} {pair : List String × Value}
    {pairs : List (List String × Value)} (hpair : PairText value text pair after)
    (hcomma : Spaces after (',' :: next)) (h : PairsText value next pairs rest) :
    PairsText value text (pair :: pairs) rest

/-- **Two keys do not meet**: neither of them leads to the other or past it. -/
def Apart (key other : List String) : Prop :=
  ¬ key <+: other ∧ ¬ other <+: key

instance (key other : List String) : Decidable (Apart key other) :=
  inferInstanceAs (Decidable (_ ∧ _))

/-- The members of a table that pairs make. -/
def membersOf (pairs : List (List String × Value)) : List (String × Value) :=
  finishEntries ((addPairs [] pairs).getD [])

/-- **The form of a value**, where `inner` is how the values inside it are written. -/
inductive ValueForm (inner : List Char → Value → List Char → Prop) :
    List Char → Value → List Char → Prop where
  /-- A value without brackets. -/
  | simple {text rest : List Char} {v : Value} (h : SimpleText text v rest) :
    ValueForm inner text v rest
  /-- An array. -/
  | array {text rest : List Char} {items : List Value} (h : ItemsText inner text items rest) :
    ValueForm inner ('[' :: text) (.array items) rest
  /-- A table between braces without members. -/
  | emptyTable {text rest : List Char} (h : Spaces text ('\x7d' :: rest)) :
    ValueForm inner ('\x7b' :: text) (.table []) rest
  /-- A table between braces, no two of whose keys meet. -/
  | table {text rest : List Char} {pairs : List (List String × Value)}
    (h : PairsText inner text pairs rest) (hapart : (pairs.map Prod.fst).Pairwise Apart) :
    ValueForm inner ('\x7b' :: text) (.table (membersOf pairs)) rest

/-- **A value**, with arrays and tables inside it at most `depth` deep. -/
def ValueText : Nat → List Char → Value → List Char → Prop
  | 0 => SimpleText
  | depth + 1 => ValueForm (ValueText depth)

/-! ## Documents -/

/-- **A statement.** -/
inductive StatementText : List Char → Statement → List Char → Prop where
  /-- A pair of a key and a value. -/
  | pair {text rest : List Char} {key : List String} {v : Value}
    (h : PairText (ValueText maxNesting) text (key, v) rest) : StatementText text (.pair key v) rest
  /-- The header of a table. -/
  | table {text rest : List Char} {key : List String} (h : KeyText text key (']' :: rest)) :
    StatementText ('[' :: text) (.table key) rest
  /-- The header of one more table of an array. -/
  | element {text rest : List Char} {key : List String}
    (h : KeyText text key (']' :: ']' :: rest)) :
    StatementText ('[' :: '[' :: text) (.element key) rest

/-- **Statements**, each on a line of its own. -/
inductive StatementsText : List Char → List Statement → Prop where
  /-- There are no more. -/
  | done {text : List Char} (h : Filler text []) : StatementsText text []
  /-- A statement and those behind it. -/
  | more {text start after next : List Char} {statement : Statement} {statements : List Statement}
    (hstart : Filler text start) (hstatement : StatementText start statement after)
    (hend : LineEnd after next) (h : StatementsText next statements) :
    StatementsText text (statement :: statements)

/-- **A document**: statements, maybe behind a byte order mark. -/
def DocumentText (text : String) (statements : List Statement) : Prop :=
  ∃ body, (text.toList = body ∨ text.toList = '\uFEFF' :: body) ∧ StatementsText body statements

end SchemaTypings.Toml
