import SchemaTypings.Naming.Reserved
import SchemaTypings.Text.Uppercase

/-!
# Naming policies

How the raw name of a schema declaration becomes the name of a type. The same policy is
applied where a type is declared and where it is referred to, so a reference always names
what was declared.
-/

namespace SchemaTypings

/-- **How raw names become type names.** -/
inductive NamingPolicy where
  /-- Keep the name, and suffix it if it is reserved. -/
  | reservedSuffix
  /-- Capitalize the name, and suffix the result if it is reserved. -/
  | capitalize
deriving DecidableEq, Repr, Inhabited

namespace NamingPolicy

/-- What a policy does to a name before reserved words are looked at. -/
def spell : NamingPolicy → String → String
  | .reservedSuffix, raw => raw
  | .capitalize, raw => Text.capitalized raw

/-- **The type name** for a raw name. -/
def apply (policy : NamingPolicy) (raw : String) : String :=
  Naming.avoidReserved (policy.spell raw)

/-- How settings and the command line call a policy. -/
def label : NamingPolicy → String
  | .reservedSuffix => "reserved-suffix"
  | .capitalize => "capitalize"

/-- The policy that is called by a label. -/
def ofLabel? (label : String) : Option NamingPolicy :=
  [reservedSuffix, capitalize].find? (·.label = label)

@[simp] theorem ofLabel?_label (policy : NamingPolicy) : ofLabel? policy.label = some policy := by
  cases policy <;> decide

end NamingPolicy

end SchemaTypings
