import SchemaTypings.Error
import SchemaTypings.Settings.Basic
import SchemaTypings.Toml.Document

/-!
# Settings in TOML

Settings are read from a table, member by member: a member that is missing keeps its
default, one that is not known is passed over, and one that is known must have a value of
the right kind. This holds inside the groups as well, so a group given in part keeps the
defaults of its other members.

A group is a table. In place of one, an array is read as the values of its members in their
order, and a date as a group without members.
-/

namespace SchemaTypings

open Toml (Value)

/-- **The members of a group**: what is given for the member at a place, with a name. -/
abbrev Group := Nat → String → Option Value

namespace Toml.Value

/-- The group that a value stands for. -/
def group? : Value → Option Group
  | .table members => some fun _ name => members.lookup name
  | .array items => some fun place _ => items[place]?
  | .moment _ => some fun _ _ => none
  | _ => none

/-- A text. -/
def text? : Value → Option String
  | .text s => some s
  | _ => none

/-- A truth value. -/
def boolean? : Value → Option Bool
  | .boolean b => some b
  | _ => none

/-- A whole number that is not negative. -/
def size? : Value → Option Nat
  | .integer (.ofNat n) => some n
  | _ => none

/-- Whether a value is a table or an array that holds nothing. -/
def isEmpty : Value → Bool
  | .table [] | .array [] => true
  | _ => false

end Toml.Value

/-- A member of a group, or its default if it is not given. -/
def Group.member {α : Type} (g : Group) (place : Nat) (name : String)
    (read : Value → Option α) (default : α) : Option α :=
  match g place name with
  | none => some default
  | some v => read v

/-- The policy that a value names: its label, or a table whose only key is the label. -/
def NamingPolicy.ofValue? : Value → Option NamingPolicy
  | .text label => ofLabel? label
  | .table [(label, content)] => if content.isEmpty then ofLabel? label else none
  | _ => none

/-- The output options that a group gives. -/
def OutputOptions.ofValue? (v : Value) : Option OutputOptions := do
  let g ← v.group?
  let d : OutputOptions := {}
  return {
    naming := ← g.member 0 "naming" NamingPolicy.ofValue? d.naming
    indent := ← g.member 1 "indent" Value.text? d.indent
    header := ← g.member 2 "header" Value.boolean? d.header }

/-- The limits that a group gives. -/
def Limits.ofValue? (v : Value) : Option Limits := do
  let g ← v.group?
  let d : Limits := {}
  return {
    maxDepth := ← g.member 0 "max_xml_depth" Value.size? d.maxDepth
    maxSize := ← g.member 1 "max_xml_size" Value.size? d.maxSize
    maxAttributes := ← g.member 2 "max_attributes" Value.size? d.maxAttributes
    maxDeclarations := ← g.member 3 "max_declarations" Value.size? d.maxDeclarations }

/-- A folder. -/
def Path.ofValue? (v : Value) : Option Path :=
  v.text?.map Path.mk

/-- The settings that a group gives. -/
def Settings.ofValue? (v : Value) : Option Settings := do
  let g ← v.group?
  let d : Settings := {}
  return {
    inputFolder := ← g.member 0 "input_dir" Path.ofValue? d.inputFolder
    outputFolder := ← g.member 1 "output_dir" Path.ofValue? d.outputFolder
    inputExtension := ← g.member 2 "input_extension" Value.text? d.inputExtension
    outputExtension := ← g.member 3 "output_extension" Value.text? d.outputExtension
    output := ← g.member 4 "emit" OutputOptions.ofValue? d.output
    limits := ← g.member 5 "limits" Limits.ofValue? d.limits }

/-- What a TOML text gives, where `read` reads its table. -/
def readToml {α : Type} (read : Value → Option α) (text : String) : Except Error α :=
  match Toml.parse? text with
  | none => .error (.settings .malformed)
  | some v =>
    match read v with
    | none => .error (.settings .unfit)
    | some a => .ok a

/-- **The settings that a TOML text gives.** -/
def Settings.ofToml (text : String) : Except Error Settings :=
  readToml Settings.ofValue? text

/-- **The limits that a TOML text gives.** -/
def Limits.ofToml (text : String) : Except Error Limits :=
  readToml Limits.ofValue? text

end SchemaTypings
