import SchemaTypings.Proofs.Conversion
import SchemaTypings.Proofs.Markup.Bounded
import SchemaTypings.Proofs.Typings.Noting

/-!
# What a conversion may cost

The limits of a conversion bound what it builds, from the first tag to the last declaration and
whatever the text is: while the tree is built (`Builder.Bounded`), once it is there, and when
declarations are made of it (`bounds_hold`). The number of declarations that a file reports is
checked before any of them is made, so it has to be shown that as many are made as were counted.
-/

namespace SchemaTypings

open Markup Schema

namespace Schema

/-- A section declares as much as is counted. -/
theorem Section.length_declarations (policy : NamingPolicy) (s : Section) :
    (valueOf (s.declarations policy)).length = s.declarationCount := by
  rw [Section.valueOf_declarations, List.length_append, List.length_append, List.length_map,
    List.length_map, List.length_map, Section.declarationCount]

/-- **A document declares as much as is counted.** -/
theorem Document.length_declared (policy : NamingPolicy) (d : Document) :
    (d.declared policy).length = d.declarationCount := by
  rw [Document.declared_eq, Document.declarationCount]
  induction d.sections with
  | nil => rfl
  | cons s sections ih =>
    rw [List.flatMap_cons, List.length_append, Section.length_declarations, ih, List.foldr_cons]

/-- **What is counted** are the simple types, the complex types and the elements of all
sections. -/
theorem Document.declarationCount_eq (d : Document) :
    d.declarationCount = (d.sections.flatMap (·.simpleTypes)).length
      + (d.sections.flatMap (·.complexTypes)).length + (d.sections.flatMap (·.elements)).length := by
  rw [Document.declarationCount]
  induction d.sections with
  | nil => rfl
  | cons s sections ih =>
    rw [List.foldr_cons, ih, Section.declarationCount, List.flatMap_cons, List.flatMap_cons,
      List.flatMap_cons, List.length_append, List.length_append, List.length_append]
    omega

end Schema

/-- **A conversion that succeeds** is that of a document, whose declarations were counted. -/
theorem exists_of_convert {options : OutputOptions} {limits : Limits} {text : String}
    {file : TypingsFile} (h : convert options limits text = .ok file) :
    ∃ d, Schema.Document.ofText limits text = .ok d
      ∧ d.declarationCount ≤ limits.maxDeclarations ∧ file = d.typings options := by
  obtain ⟨d, hd, h⟩ := exists_of_bind_eq_ok h
  obtain ⟨_, hcount, h⟩ := exists_of_bind_eq_ok h
  cases h
  exact ⟨d, hd, Limits.le_maximum_of_require hcount, rfl⟩

/-- **The limits hold all the time.** Whatever the text is, and however far it is read, what has
been built by then is within the limits; so is the tree, if one is returned, and so is the
number of declarations, if a file is. The file holds as many declarations as it reports, which
is one for each simple type, complex type and element of the document. -/
theorem bounds_hold (limits : Limits) (text : String) :
    (∀ read b, read <+: events text → read.foldlM (Builder.step limits) {} = .ok b →
      b.Bounded limits)
    ∧ (∀ root, parse limits text = .ok (some root) →
      root.height ≤ limits.maxDepth ∧ root.AttributesWithin limits)
    ∧ ∀ options file, convert options limits text = .ok file →
      file.declarations ≤ limits.maxDeclarations
      ∧ ∃ d, Schema.Document.ofText limits text = .ok d
        ∧ file.text = (if options.header then lintDirectives else "")
          ++ declarationsText options.indent (d.declared options.naming)
        ∧ file.declarations = (d.declared options.naming).length
        ∧ file.declarations = (d.sections.flatMap (·.simpleTypes)).length
          + (d.sections.flatMap (·.complexTypes)).length
          + (d.sections.flatMap (·.elements)).length := by
  refine ⟨fun _ _ _ hrun => Builder.bounded_of_run hrun, fun _ => bounds_of_parse,
    fun options file h => ?_⟩
  obtain ⟨d, hd, hcount, rfl⟩ := exists_of_convert h
  exact ⟨hcount, d, hd, d.text_typings options, (d.length_declared options.naming).symm,
    d.declarationCount_eq⟩

/-- A document that uses up its limits. -/
theorem bounds_hold_tight :
    let tight : Limits := { maxDepth := 2, maxAttributes := 1, maxDeclarations := 1 }
    let text := "<schema><simpleType name=\"A\"/></schema>"
    (∃ root, parse tight text = .ok (some root) ∧ root.height = 2 ∧ root.height ≤ tight.maxDepth
        ∧ root.AttributesWithin tight)
      ∧ ∃ file, convert {} tight text = .ok file ∧ file.declarations = 1
        ∧ file.declarations ≤ tight.maxDeclarations := by
  intro tight text
  obtain ⟨-, hparse, hconvert⟩ := bounds_hold tight text
  let t : Tree := ⟨"schema", [], [⟨"simpleType", [⟨"name", "A"⟩], []⟩]⟩
  have hwritten : Written [t] "<schema><simpleType name=\"A\"/></schema>".toList :=
    .element (by decide) (.empty (by decide) .nil) .nil
  have htree : parse tight text = .ok (some t.node) :=
    parse_written_of_within hwritten (by unfold Tree.Within; decide)
  have hdocument : Schema.Document.ofText tight text
      = .ok ⟨[{ simpleTypes := [{ name := some "A" }] }]⟩ := by
    rw [Schema.Document.ofText, replacePrefixes_eq_self (by decide), htree]
    rfl
  have hfile := convert_of_ofText {} hdocument (by decide)
  obtain ⟨hheight, hattributes⟩ := hparse _ htree
  exact ⟨⟨_, htree, by decide, hheight, hattributes⟩, _, hfile, rfl, (hconvert {} _ hfile).1⟩

end SchemaTypings
