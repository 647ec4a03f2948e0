import SchemaTypings.Text.Digit
import SchemaTypings.Toml.Value

/-!
# Numbers, truth values, dates and times

All values that are written without quotes and brackets. Such a value is read as one
unbroken run of characters – only a date may be followed by a blank and a time – and the
run as a whole must have the form of one of them, since no character that occurs in these
forms may follow a value.

Between two digits of a number there may be an underscore. A whole number is decimal,
without a leading zero, or hexadecimal, octal or binary, without a sign; it must fit into a
signed 64-bit word.
-/

namespace SchemaTypings.Toml

open Text

/-! ## Numbers -/

/-- Digits that may have single underscores between them: the digits alone. -/
def ungroup (isDigit : Char → Bool) : List Char → Option (List Char)
  | [] => none
  | [c] => if isDigit c then some [c] else none
  | c :: d :: cs =>
    if !isDigit c then none
    else if d = '_' then (ungroup isDigit cs).map (c :: ·)
    else (ungroup isDigit (d :: cs)).map (c :: ·)

/-- The number of digits that may be grouped, in a base whose digits `digit?` knows. -/
def grouped? (base : Nat) (digit? : Char → Option Nat) (cs : List Char) : Option Nat :=
  (ungroup (fun c => (digit? c).isSome) cs).bind (number? base digit?)

/-- A digit below a bound. -/
def digitBelow? (bound : Nat) (c : Char) : Option Nat :=
  (decimalDigit? c).filter (· < bound)

/-- The sign of a number, and what follows it. -/
def splitSign : List Char → Bool × List Char
  | '-' :: cs => (true, cs)
  | '+' :: cs => (false, cs)
  | cs => (false, cs)

/-- The digits of a decimal number; only zero itself may begin with a zero. -/
def decimalDigits? (cs : List Char) : Option (List Char) :=
  (ungroup Char.isDigit cs).filter fun digits => digits = ['0'] ∨ digits.head? ≠ some '0'

/-- The largest whole number. -/
def maxInteger : Nat := Nat.pow 2 63 - 1

/-- **A whole number.** -/
def integer? (cs : List Char) : Option Int :=
  match cs with
  | '0' :: 'x' :: digits => unsigned (grouped? 16 hexDigit? digits)
  | '0' :: 'o' :: digits => unsigned (grouped? 8 (digitBelow? 8) digits)
  | '0' :: 'b' :: digits => unsigned (grouped? 2 (digitBelow? 2) digits)
  | _ => do
    let (negative, digits) := splitSign cs
    let size ← (decimalDigits? digits).bind (number? 10 decimalDigit?)
    if negative then
      if size ≤ maxInteger + 1 then some (-(size : Int)) else none
    else
      if size ≤ maxInteger then some size else none
where
  /-- A number without a sign, if it is not too large. -/
  unsigned (size : Option Nat) : Option Int :=
    (size.filter (· ≤ maxInteger)).map (↑·)

/-- Whether `digits` times a power of ten rounds past the largest finite number of double
precision, which is where the midpoint after it lies. -/
def overflows (digits : List Char) (exponent : Int) : Bool :=
  match number? 10 decimalDigit? digits with
  | none | some 0 => false
  | some size =>
    let bound := Nat.pow 2 1024 - Nat.pow 2 970
    let length := (Nat.toDigits 10 size).length
    match exponent with
    | .ofNat e => 310 < length + e || bound ≤ size * Nat.pow 10 e
    | .negSucc e => e < length && bound * Nat.pow 10 (e + 1) ≤ size

/-- The exponent of a number, and whether anything else follows: `e`, a sign, digits. -/
def exponent? : List Char → Option Int
  | c :: cs =>
    if c = 'e' ∨ c = 'E' then do
      let (negative, digits) := splitSign cs
      let size ← grouped? 10 decimalDigit? digits
      return if negative then -(size : Int) else size
    else none
  | [] => none

/-- Whether a character belongs to a stretch of digits. -/
def isDigitPart (c : Char) : Bool :=
  c.isDigit || c == '_'

/-- **Whether a run is a number with a fraction or an exponent**, or one of the two values
that are no numbers. A positive number must not be too large to be finite. -/
def isReal (cs : List Char) : Bool :=
  let (negative, unsigned) := splitSign cs
  if unsigned = ['i', 'n', 'f'] ∨ unsigned = ['n', 'a', 'n'] then true
  else
    let whole := unsigned.takeWhile isDigitPart
    let form : Option (List Char × Int) := do
      let digits ← decimalDigits? whole
      match unsigned.dropWhile isDigitPart with
      | '.' :: more =>
        let fraction ← ungroup Char.isDigit (more.takeWhile isDigitPart)
        let exponent ←
          match more.dropWhile isDigitPart with
          | [] => some 0
          | rest => exponent? rest
        return (digits ++ fraction, exponent - fraction.length)
      | rest => return (digits, ← exponent? rest)
    match form with
    | none => false
    | some (digits, exponent) => negative || !overflows digits exponent

/-! ## Dates and times -/

/-- A number of `count` digits within bounds, and what follows it. -/
def readDigits (count lowest highest : Nat) (cs : List Char) : Option (Nat × List Char) := do
  let digits := cs.take count
  let number ← number? 10 decimalDigit? digits
  if digits.length = count ∧ lowest ≤ number ∧ number ≤ highest then
    some (number, cs.drop count)
  else none

/-- A given character, and what follows it. -/
def readChar (expected : Char) : List Char → Option (List Char)
  | c :: cs => if c = expected then some cs else none
  | [] => none

/-- How many days a month has. -/
def daysIn (year month : Nat) : Nat :=
  if month = 2 then
    if year % 4 = 0 ∧ (year % 100 ≠ 0 ∨ year % 400 = 0) then 29 else 28
  else if month ∈ [4, 6, 9, 11] then 30
  else 31

/-- **A date**: what follows it. -/
def readDate (cs : List Char) : Option (List Char) := do
  let (year, cs) ← readDigits 4 0 9999 cs
  let cs ← readChar '-' cs
  let (month, cs) ← readDigits 2 1 12 cs
  let cs ← readChar '-' cs
  let (_, cs) ← readDigits 2 1 (daysIn year month) cs
  return cs

/-- The fraction of a second, if there is one. -/
def readFraction (cs : List Char) : Option (List Char) :=
  match cs with
  | '.' :: more =>
    if (more.takeWhile Char.isDigit).isEmpty then none else some (more.dropWhile Char.isDigit)
  | _ => some cs

/-- **A time**: what follows it. The sixtieth second is one that the calendar inserts. -/
def readTime (cs : List Char) : Option (List Char) := do
  let (_, cs) ← readDigits 2 0 23 cs
  let cs ← readChar ':' cs
  let (_, cs) ← readDigits 2 0 59 cs
  let cs ← readChar ':' cs
  let (_, cs) ← readDigits 2 0 60 cs
  readFraction cs

/-- Whether a run is the distance from universal time, or nothing at all. -/
def isOffset : List Char → Bool
  | [] => true
  | ['Z'] | ['z'] => true
  | c :: cs =>
    (c == '+' || c == '-') &&
      (do
        let (_, cs) ← readDigits 2 0 23 cs
        let cs ← readChar ':' cs
        let (_, cs) ← readDigits 2 0 59 cs
        return cs.isEmpty : Option Bool) == some true

/-- Whether a run is a date alone. -/
def isDate (cs : List Char) : Bool :=
  readDate cs == some []

/-- **Whether a run is a date, a time, or both.** Only with a date may a time have a
distance from universal time. -/
def isMoment (cs : List Char) : Bool :=
  match readDate cs with
  | some [] => true
  | some (c :: time) =>
    (c == 'T' || c == 't' || c == ' ') && (readTime time).any isOffset
  | none => readTime cs == some []

/-! ## Values without quotes and brackets -/

/-- Whether a character can occur in a value without quotes and brackets. -/
def isScalarPart (c : Char) : Bool :=
  c.isAlphanum || c == '+' || c == '-' || c == '.' || c == ':' || c == '_'

/-- **The value of a run.** -/
def scalar? (cs : List Char) : Option Value :=
  if cs = ['t', 'r', 'u', 'e'] then some (.boolean true)
  else if cs = ['f', 'a', 'l', 's', 'e'] then some (.boolean false)
  else if isMoment cs then some (.moment (String.ofList cs))
  else if isReal cs then some (.real (String.ofList cs))
  else (integer? cs).map .integer

/-- The run at the beginning of a text, and what follows it. A date followed by a blank and
a digit goes on with the run after the blank. -/
def splitRun (cs : List Char) : List Char × List Char :=
  let run := cs.takeWhile isScalarPart
  match cs.dropWhile isScalarPart with
  | ' ' :: c :: more =>
    if isDate run ∧ c.isDigit then
      (run ++ ' ' :: (c :: more).takeWhile isScalarPart, (c :: more).dropWhile isScalarPart)
    else (run, ' ' :: c :: more)
  | rest => (run, rest)

/-- **A value without quotes and brackets**, and what follows it. -/
def readScalar (cs : List Char) : Option (Value × List Char) :=
  let (run, rest) := splitRun cs
  (scalar? run).map (·, rest)

end SchemaTypings.Toml
