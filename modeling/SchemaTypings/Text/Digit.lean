/-!
# Digits and the numbers they write
-/

namespace SchemaTypings.Text

/-- The value of a decimal digit. -/
def decimalDigit? (c : Char) : Option Nat :=
  if c.isDigit then some (c.toNat - '0'.toNat) else none

/-- The value of a hexadecimal digit, in either case. -/
def hexDigit? (c : Char) : Option Nat :=
  if c.isDigit then some (c.toNat - '0'.toNat)
  else if 'a' ≤ c ∧ c ≤ 'f' then some (c.toNat - 'a'.toNat + 10)
  else if 'A' ≤ c ∧ c ≤ 'F' then some (c.toNat - 'A'.toNat + 10)
  else none

/-- **The number that digits write** in a base, most significant first; `bad` tells what is
wrong with a character that is no digit. -/
def readNumber {ε : Type} (base : Nat) (digit? : Char → Option Nat) (bad : Char → ε)
    (digits : List Char) : Except ε Nat :=
  digits.foldlM (fun number c =>
    match digit? c with
    | some digit => .ok (number * base + digit)
    | none => .error (bad c)) 0

/-- The number that digits write in a base, if all of them are digits. -/
def number? (base : Nat) (digit? : Char → Option Nat) (digits : List Char) : Option Nat :=
  digits.foldlM (fun number c => (digit? c).map (number * base + ·)) 0

end SchemaTypings.Text
