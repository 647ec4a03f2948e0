import SchemaTypings.Command.Arguments
import SchemaTypings.Proofs.Toml.Grammar
import SchemaTypings.Settings.OfToml

/-!
# Settings one by one

The settings of a run as one family: eleven settings, each with the kind of its values, its place in
the settings (`Setting.get`), its key in a settings file (`Setting.path`) and the TOML value that
says it (`Setting.write`). Three of them are in the group for the output and four in the one for the
limits; the keys of no two settings meet (`apart_path`).

An `Assignment` gives values to some of the settings. Over settings it changes those that it gives
and no others, whatever group they are in (`Assignment.get_overlay`).
-/

namespace SchemaTypings

open Toml (Apart Value)

/-- **A setting.** -/
inductive Setting where
  /-- The folder that holds the documents. -/
  | inputFolder
  /-- The folder that receives the declaration files. -/
  | outputFolder
  /-- The extension of documents. -/
  | inputExtension
  /-- The extension of declaration files. -/
  | outputExtension
  /-- How raw names become type names. -/
  | naming
  /-- What stands before every member. -/
  | indent
  /-- Whether a file begins with the lint directives. -/
  | header
  /-- How deep elements may be nested. -/
  | maxDepth
  /-- How many bytes a document may have. -/
  | maxSize
  /-- How many attributes an element may have. -/
  | maxAttributes
  /-- How many declarations a document may produce. -/
  | maxDeclarations
deriving DecidableEq, Repr

namespace Setting

/-- All settings. -/
def all : List Setting :=
  [inputFolder, outputFolder, inputExtension, outputExtension, naming, indent, header, maxDepth,
    maxSize, maxAttributes, maxDeclarations]

theorem mem_all (k : Setting) : k ∈ all := by
  cases k <;> decide

/-- The kind of the values of a setting. -/
abbrev Kind : Setting → Type
  | inputFolder | outputFolder => Path
  | inputExtension | outputExtension | indent => String
  | naming => NamingPolicy
  | header => Bool
  | maxDepth | maxSize | maxAttributes | maxDeclarations => Nat

/-- The value that a setting has. -/
def get (s : Settings) : (k : Setting) → k.Kind
  | inputFolder => s.inputFolder
  | outputFolder => s.outputFolder
  | inputExtension => s.inputExtension
  | outputExtension => s.outputExtension
  | naming => s.output.naming
  | indent => s.output.indent
  | header => s.output.header
  | maxDepth => s.limits.maxDepth
  | maxSize => s.limits.maxSize
  | maxAttributes => s.limits.maxAttributes
  | maxDeclarations => s.limits.maxDeclarations

/-- Settings are told by the values of the eleven. -/
theorem ext_get {s s' : Settings} (h : ∀ k : Setting, k.get s = k.get s') : s = s' := by
  obtain ⟨_, _, _, _, ⟨_, _, _⟩, ⟨_, _, _, _⟩⟩ := s
  obtain ⟨_, _, _, _, ⟨_, _, _⟩, ⟨_, _, _, _⟩⟩ := s'
  obtain rfl := h .inputFolder
  obtain rfl := h .outputFolder
  obtain rfl := h .inputExtension
  obtain rfl := h .outputExtension
  obtain rfl := h .naming
  obtain rfl := h .indent
  obtain rfl := h .header
  obtain rfl := h .maxDepth
  obtain rfl := h .maxSize
  obtain rfl := h .maxAttributes
  obtain rfl := h .maxDeclarations
  rfl

/-- The groups of settings. -/
def groups : List String :=
  ["emit", "limits"]

/-- **The key of a setting** in a settings file: its name, behind that of its group. -/
def path : Setting → List String
  | inputFolder => ["input_dir"]
  | outputFolder => ["output_dir"]
  | inputExtension => ["input_extension"]
  | outputExtension => ["output_extension"]
  | naming => ["emit", "naming"]
  | indent => ["emit", "indent"]
  | header => ["emit", "header"]
  | maxDepth => ["limits", "max_xml_depth"]
  | maxSize => ["limits", "max_xml_size"]
  | maxAttributes => ["limits", "max_attributes"]
  | maxDeclarations => ["limits", "max_declarations"]

/-- **The value that says a setting.** -/
def write : (k : Setting) → k.Kind → Value
  | inputFolder, p | outputFolder, p => .text p.text
  | inputExtension, s | outputExtension, s | indent, s => .text s
  | naming, policy => .text policy.label
  | header, truth => .boolean truth
  | maxDepth, n | maxSize, n | maxAttributes, n | maxDeclarations, n => .integer n

/-- Whether a key is that of a setting. -/
def knows (key : List String) : Bool :=
  all.any fun k => k.path == key

theorem knows_iff {key : List String} : knows key = true ↔ ∃ k : Setting, k.path = key := by
  rw [knows, List.any_eq_true]
  constructor
  · rintro ⟨k, -, hk⟩
    exact ⟨k, beq_iff_eq.mp hk⟩
  · rintro ⟨k, rfl⟩
    exact ⟨k, mem_all k, beq_self_eq_true _⟩

/-- **The keys of no two settings meet.** -/
theorem apart_path {k l : Setting} (h : k ≠ l) : Apart k.path l.path := by
  have hall : ∀ k ∈ all, ∀ l ∈ all, k ≠ l → ¬ k.path <+: l.path := by decide
  exact ⟨hall k (mem_all k) l (mem_all l) h, hall l (mem_all l) k (mem_all k) (Ne.symm h)⟩

theorem apart_of_knows {key other : List String} (h : knows key = true)
    (hother : knows other = true) (hne : key ≠ other) : Apart key other := by
  obtain ⟨k, rfl⟩ := knows_iff.mp h
  obtain ⟨l, rfl⟩ := knows_iff.mp hother
  exact apart_path fun heq => hne (congrArg path heq)

/-- A setting stands alone or in a group. -/
theorem knows_cases {key : List String} (h : knows key = true) :
    (∃ name, key = [name] ∧ name ∉ groups) ∨ ∃ g ∈ groups, ∃ name, key = [g, name] := by
  obtain ⟨k, rfl⟩ := knows_iff.mp h
  cases k <;> first
    | exact .inl ⟨_, rfl, by decide⟩
    | exact .inr ⟨_, by decide, _, rfl⟩

end Setting

/-- **Values for some of the settings.** -/
abbrev Assignment := (k : Setting) → Option k.Kind

namespace Assignment

/-- The value that says what an assignment gives. -/
def value? (a : Assignment) (k : Setting) : Option Value :=
  (a k).map k.write

/-- **Settings with those of an assignment over them.** -/
def overlay (a : Assignment) (s : Settings) : Settings where
  inputFolder := (a .inputFolder).getD s.inputFolder
  outputFolder := (a .outputFolder).getD s.outputFolder
  inputExtension := (a .inputExtension).getD s.inputExtension
  outputExtension := (a .outputExtension).getD s.outputExtension
  output := {
    naming := (a .naming).getD s.output.naming
    indent := (a .indent).getD s.output.indent
    header := (a .header).getD s.output.header }
  limits := {
    maxDepth := (a .maxDepth).getD s.limits.maxDepth
    maxSize := (a .maxSize).getD s.limits.maxSize
    maxAttributes := (a .maxAttributes).getD s.limits.maxAttributes
    maxDeclarations := (a .maxDeclarations).getD s.limits.maxDeclarations }

/-- **An assignment overrides setting by setting.** -/
theorem get_overlay (a : Assignment) (s : Settings) (k : Setting) :
    k.get (a.overlay s) = (a k).getD (k.get s) := by
  cases k <;> rfl

end Assignment

end SchemaTypings
