import SchemaTypings.Proofs.Typings.Noting

/-!
# One call after another

A typings file is put together by calls that share what has been noted: one for each
declaration, and inside these one for each field. Such calls may also be made one by one, in
any order and as often as wanted. Whatever was called before, a call returns the text that it
returns first of all, and adds to the notes what it adds to none (`Emission.onlyNotes_write`).

So a file is the run of a list of calls, the one that its document stands for
(`Document.typings_eq_run`). Sections that follow each other stand for lists that follow each
other, and the file of both is made of those of each (`Emission.write_compositional`); only the
directives stand once, in front of everything.
-/

namespace SchemaTypings

open Schema

/-- **A call**: what is to be written, and for a field alone, what it belongs to. -/
inductive Emission where
  /-- One field of the declaration with a name. -/
  | field (owner : String) (f : Field)
  /-- A simple type. -/
  | simpleType (t : SimpleType)
  /-- A complex type. -/
  | complexType (t : ComplexType)
  /-- A top-level element. -/
  | element (e : Element)

namespace Emission

/-- **What a call does**: it returns a text, and notes what is missing. -/
def write (options : OutputOptions) : Emission → StateM Diagnostics String
  | field owner f => Member.text options.indent <$> f.member options.naming owner
  | simpleType t => Declaration.text options.indent <$> t.declaration options.naming
  | complexType t => Declaration.text options.indent <$> t.declaration options.naming
  | element e => Declaration.text options.indent <$> e.declaration options.naming

/-- **A call only notes**: no call before it changes its text or its notes. -/
theorem onlyNotes_write (options : OutputOptions) (e : Emission) :
    OnlyNotes (e.write options) := by
  cases e with
  | field owner f => exact (f.onlyNotes_member options.naming owner).map _
  | simpleType t => exact (t.onlyNotes_declaration options.naming).map _
  | complexType t => exact (t.onlyNotes_declaration options.naming).map _
  | element e => exact (e.onlyNotes_declaration options.naming).map _

/-- **Several calls, one after another**: the texts that they return, and what is noted after
the last of them. -/
def writeAll (options : OutputOptions) (calls : List Emission) : StateM Diagnostics (List String) :=
  calls.mapM (write options)

/-- Calls return the texts that each of them returns first of all, and add the notes of each. -/
theorem run_writeAll (options : OutputOptions) (calls : List Emission) (noted : Diagnostics) :
    (writeAll options calls).run noted
      = (calls.map fun e => valueOf (e.write options), noted ++ allNotes (write options) calls) :=
  run_mapM (onlyNotes_write options) calls noted

/-- Calls after other calls return the texts and add the notes of both. -/
theorem run_writeAll_append (options : OutputOptions) (a b : List Emission) :
    (writeAll options (a ++ b)).run {}
      = (((writeAll options a).run {}).1 ++ ((writeAll options b).run {}).1,
        ((writeAll options a).run {}).2 ++ ((writeAll options b).run {}).2) := by
  simp only [run_writeAll, List.map_append, allNotes_append, Diagnostics.empty_append]

end Emission

/-! ## The calls of a document -/

/-- **The calls that a section stands for**: simple types, complex types, elements. -/
def Schema.Section.emissions (s : Section) : List Emission :=
  s.simpleTypes.map .simpleType ++ (s.complexTypes.map .complexType ++ s.elements.map .element)

/-- **The calls that a document stands for**, section by section. -/
def Schema.Document.emissions (d : Document) : List Emission :=
  d.sections.flatMap Section.emissions

open Emission

/-- The texts of the calls of a section are those of its declarations. -/
theorem Schema.Section.texts_emissions (options : OutputOptions) (s : Section) :
    (s.emissions.map fun e => valueOf (e.write options))
      = (valueOf (s.declarations options.naming)).map (Declaration.text options.indent) := by
  rw [Section.valueOf_declarations, emissions]
  simp only [List.map_append, List.map_map, List.append_assoc]
  rfl

/-- The notes of the calls of a section are those of its declarations. -/
theorem Schema.Section.allNotes_emissions (options : OutputOptions) (s : Section) :
    allNotes (write options) s.emissions = notesOf (s.declarations options.naming) := by
  rw [Section.notesOf_declarations_eq, emissions, allNotes_append, allNotes_append]
  simp only [allNotes, List.map_map]
  rfl

/-- A section stands for as many calls as it declares things. -/
theorem Schema.Section.length_emissions (s : Section) :
    s.emissions.length = s.declarationCount := by
  simp [emissions, Section.declarationCount, Nat.add_assoc]

namespace Schema.Document

/-- The texts of the calls of a document are those of its declarations. -/
theorem texts_emissions (options : OutputOptions) (d : Document) :
    (d.emissions.map fun e => valueOf (e.write options))
      = (d.declared options.naming).map (Declaration.text options.indent) := by
  rw [declared_eq, emissions, List.map_flatMap, List.map_flatMap]
  simp only [Section.texts_emissions]

/-- The notes of the calls of a document are those of its declarations. -/
theorem allNotes_emissions (options : OutputOptions) (d : Document) :
    allNotes (write options) d.emissions = notesOf (d.declarations options.naming) := by
  obtain ⟨sections⟩ := d
  rw [declarations, notesOf_map, notesOf_mapM (Section.onlyNotes_declarations options.naming),
    emissions]
  induction sections with
  | nil => rfl
  | cons s sections ih =>
    rw [List.flatMap_cons, allNotes_append, ih, allNotes_cons, s.allNotes_emissions options]

/-- A document stands for as many calls as it declares things. -/
theorem length_emissions (d : Document) : d.emissions.length = d.declarationCount := by
  obtain ⟨sections⟩ := d
  induction sections with
  | nil => rfl
  | cons s sections ih =>
    rw [emissions, List.flatMap_cons, List.length_append, s.length_emissions]
    exact congrArg (s.declarationCount + ·) ih

/-- **A typings file is the run of the calls that its document stands for.** -/
theorem typings_eq_run (options : OutputOptions) (d : Document) :
    d.typings options
      = { text := (if options.header then lintDirectives else "")
            ++ String.join ((writeAll options d.emissions).run {}).1
          declarations := d.emissions.length
          diagnostics := ((writeAll options d.emissions).run {}).2 } := by
  rw [run_writeAll, d.texts_emissions options, d.allNotes_emissions options,
    d.length_emissions, Diagnostics.empty_append]
  rfl

end Schema.Document

namespace Emission

/-- **Writing is compositional.** Whatever calls were made before, a call returns the text that
it returns first of all, and puts the notes that it makes first of all behind those that are
there. So it goes for the file of sections that follow each other: the directives, if they are
asked for, stand once in front, then what is written of the first sections, then what is written
of the others, with the notes of both and the sum of the counts. And the directives are all that
a file with them has and one without them has not. -/
theorem write_compositional (options : OutputOptions) :
    (∀ (calls : List Emission) (e : Emission),
        let reached := ((writeAll options calls).run {}).2
        (e.write options).run reached
          = (((e.write options).run {}).1, reached ++ ((e.write options).run {}).2))
      ∧ (∀ a b : List Section,
        let first := Document.typings ⟨a⟩ { options with header := false }
        let second := Document.typings ⟨b⟩ { options with header := false }
        Document.typings ⟨a ++ b⟩ options
          = { text := (if options.header then lintDirectives else "") ++ first.text ++ second.text
              declarations := first.declarations + second.declarations
              diagnostics := first.diagnostics ++ second.diagnostics })
      ∧ ∀ d : Document,
        let bare := d.typings { options with header := false }
        d.typings { options with header := true }
          = { bare with text := lintDirectives ++ bare.text } := by
  -- whether there are directives is nothing to a call
  have hbare : ∀ calls,
      writeAll { options with header := false } calls = writeAll options calls := fun _ => rfl
  refine ⟨fun calls e => e.onlyNotes_write options _, fun a b => ?_, fun d => ?_⟩
  · have hcalls : (Document.mk (a ++ b)).emissions
        = (Document.mk a).emissions ++ (Document.mk b).emissions := List.flatMap_append
    simp only [Document.typings_eq_run, hcalls, run_writeAll_append, hbare, List.length_append,
      String.join_append, String.append_assoc, Bool.false_eq_true, if_false, String.empty_append]
  · simp only [Document.typings_eq_run, if_true, Bool.false_eq_true, if_false,
      String.empty_append]
    rfl

end Emission

end SchemaTypings
