/-!
# Diagnostics

What is noted while declarations are made of a schema. Nothing that is noted stops the
work: a field without a name or a type is declared with a placeholder, and a type
that nothing is known of becomes `any`. The notes tell how much of a result stands on such
placeholders.
-/

namespace SchemaTypings

/-- **An attribute that every field needs.** -/
inductive NeededAttribute where
  /-- The field's name. -/
  | name
  /-- The field's type. -/
  | type
deriving DecidableEq, Repr

/-- How messages call a needed attribute. -/
def NeededAttribute.label : NeededAttribute → String
  | .name => "name"
  | .type => "type"

/-- **A field that lacks a needed attribute.** -/
structure FieldFault where
  /-- The declaration the field belongs to. -/
  owner : String
  /-- The field's name, if it has one. -/
  field : Option String
  /-- What it lacks. -/
  missing : NeededAttribute
deriving DecidableEq, Repr

/-- The text of a fault. -/
def FieldFault.text (fault : FieldFault) : String :=
  let subject :=
    match fault.field with
    | some field => "field '" ++ field ++ "' of '" ++ fault.owner ++ "'"
    | none => "a field of '" ++ fault.owner ++ "'"
  subject ++ " has no " ++ fault.missing.label

/-- **What was noted** while the declarations of one document were made. -/
@[ext]
structure Diagnostics where
  /-- The fields declared with a placeholder, in the order they were met. -/
  faults : List FieldFault := []
  /-- The type tokens that became `any`, one entry for each occurrence. -/
  fallbacks : List String := []
deriving DecidableEq, Repr, Inhabited

namespace Diagnostics

/-- Notes a fault of a field. -/
def addFault (d : Diagnostics) (fault : FieldFault) : Diagnostics :=
  { d with faults := d.faults ++ [fault] }

/-- Notes a type token that became `any`. -/
def addFallback (d : Diagnostics) (token : String) : Diagnostics :=
  { d with fallbacks := d.fallbacks ++ [token] }

/-- How many faults were noted. -/
def faultCount (d : Diagnostics) : Nat :=
  d.faults.length

/-- How many tokens became `any`. -/
def fallbackCount (d : Diagnostics) : Nat :=
  d.fallbacks.length

/-- **Whether nothing was noted.** -/
def isClean (d : Diagnostics) : Bool :=
  d.faults.isEmpty && d.fallbacks.isEmpty

/-- The notes of two stretches of a walk, one after the other. -/
instance : Append Diagnostics where
  append a b := ⟨a.faults ++ b.faults, a.fallbacks ++ b.fallbacks⟩

@[simp] theorem faults_append (a b : Diagnostics) :
    (a ++ b).faults = a.faults ++ b.faults := rfl

@[simp] theorem fallbacks_append (a b : Diagnostics) :
    (a ++ b).fallbacks = a.fallbacks ++ b.fallbacks := rfl

@[simp] theorem append_empty (d : Diagnostics) : d ++ ({} : Diagnostics) = d := by
  ext1 <;> simp

@[simp] theorem empty_append (d : Diagnostics) : ({} : Diagnostics) ++ d = d := by
  ext1 <;> simp

theorem append_assoc (a b c : Diagnostics) : a ++ b ++ c = a ++ (b ++ c) := by
  ext1 <;> simp

theorem addFault_eq_append (d : Diagnostics) (fault : FieldFault) :
    d.addFault fault = d ++ ⟨[fault], []⟩ := by
  ext1 <;> simp [addFault]

theorem addFallback_eq_append (d : Diagnostics) (token : String) :
    d.addFallback token = d ++ ⟨[], [token]⟩ := by
  ext1 <;> simp [addFallback]

@[simp] theorem isClean_iff (d : Diagnostics) :
    d.isClean = true ↔ d.faults = [] ∧ d.fallbacks = [] := by
  simp [isClean]

end Diagnostics

end SchemaTypings
