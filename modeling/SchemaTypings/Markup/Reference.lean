import SchemaTypings.Markup.Fault
import SchemaTypings.Text.Digit
import SchemaTypings.Text.Utf8

/-!
# Character references

An attribute value stands for the text it has once its references are replaced: `&lt;` and
its four companions by name, `&#65;` and `&#x41;` by number. A value is replaced in one
pass, so what a reference gives is never read as a reference again.
-/

namespace SchemaTypings.Markup

open Text

/-- The names that need no declaration. -/
def predefined : List (List Char × Char) :=
  [(['l', 't'], '<'), (['g', 't'], '>'), (['a', 'm', 'p'], '&'), (['a', 'p', 'o', 's'], '\''),
    (['q', 'u', 'o', 't'], '"')]

/-- **The number of a reference by number.** Six hexadecimal or seven decimal digits are
enough for every character, so more are refused before they are looked at. -/
def referenceCode : List Char → Except ReferenceFault Nat
  | 'x' :: digits =>
    if 6 < byteLength digits then .error .longHexadecimal
    else readNumber 16 hexDigit? (fun c => .badHexadecimal (leadByte c)) digits
  | digits =>
    if 7 < byteLength digits then .error .longDecimal
    else readNumber 10 decimalDigit? (fun c => .badDecimal (leadByte c)) digits

/-- The character that has a number; the null character is refused. -/
def characterOf (first last code : Nat) : Except ReferenceFault Char :=
  if code = 0 then .error (.nullCharacter first last)
  else if code.isValidChar then .ok (Char.ofNat code)
  else .error (.noCharacter code)

/-- **The character that a reference stands for.** The reference begins at `first`, its
semicolon stands at `last`, and `name` is what stands between. -/
def resolveReference (first last : Nat) (name : List Char) : Except ReferenceFault Char :=
  match name with
  | '#' :: digits => referenceCode digits >>= characterOf first last
  | _ =>
    match predefined.lookup name with
    | some c => .ok c
    | none => .error (.unknownName (first + 1) last name)

/-- Whether a character belongs to the name of a reference. -/
def isReferenceName (c : Char) : Bool :=
  c != '&' && c != ';'

/-- The text that the rest of a value stands for. -/
def expandFrom (c : Cursor) : Except ReferenceFault (List Char) :=
  match _rest : c.rest with
  | [] => .ok []
  | '&' :: rest =>
    let inner : Cursor := ⟨c.offset + 1, rest⟩
    let name := (inner.span isReferenceName).1
    let last := inner.skip isReferenceName
    match _after : last.rest with
    | ';' :: more => do
      let ch ← resolveReference c.offset last.offset name
      let tail ← expandFrom ⟨last.offset + 1, more⟩
      return ch :: tail
    | _ => .error (.unterminated c.offset c.endOffset)
  | ch :: rest => do
    let tail ← expandFrom ⟨c.offset + ch.utf8Size, rest⟩
    return ch :: tail
termination_by c.rest.length
decreasing_by
  · have hle := Cursor.length_skip_le isReferenceName inner
    simp only [_rest, List.length_cons]
    have hlast : last.rest.length = more.length + 1 := by simp [_after]
    simp only [last, inner] at hle hlast ⊢
    omega
  · simp [_rest]

/-- **The text that a raw value stands for.** -/
def expand (raw : List Char) : Except ReferenceFault (List Char) :=
  expandFrom ⟨0, raw⟩

end SchemaTypings.Markup
