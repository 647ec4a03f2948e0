import SchemaTypings.Conversion
import SchemaTypings.Proofs.Schema.ReadingBack

/-!
# Converting written documents

The way through a text is the way through the model: a document that says what a model says is
converted to the declarations of the model, with the same notes. Replacing prefixes, building
the tree, grouping children and reading the schema lose nothing on the way
(`convert_of_written`).
-/

namespace SchemaTypings

open Markup Schema

/-- **What is read within the limits is converted**: the declarations of a document are written
once they have been counted. -/
theorem convert_of_ofText (options : OutputOptions) {limits : Limits} {text : String}
    {d : Schema.Document} (h : Schema.Document.ofText limits text = .ok d)
    (hcount : d.declarationCount ≤ limits.maxDeclarations) :
    convert options limits text = .ok (d.typings options) := by
  have hcheck : limits.require .declarations d.declarationCount = .ok () := by
    rw [require_eq_refuse, (Limits.excess?_eq_none_iff limits _ _).mpr hcount]
    rfl
  rw [convert, h]
  show (do
    limits.require .declarations d.declarationCount
    return d.typings options) = _
  rw [hcheck]
  rfl

/-- **A model is read from every text that writes it.** -/
theorem Schema.Document.ofText_of_written {limits : Limits} {d : Schema.Document}
    (hsections : d.sections ≠ []) (habsent : AbsentFrom d.texts) (hdepth : 8 ≤ limits.maxDepth)
    (hattributes : 5 ≤ limits.maxAttributes) {text : String}
    (h : Written [d.tree .prefixed] text.toList) :
    Schema.Document.ofText limits text = .ok d := by
  have hproper : (d.tree .plain).Proper := d.proper_tree Spelling.keepsNames_plain
  have hplain : Written [d.tree .plain] (replacePrefixes text).toList := by
    rw [toList_replacePrefixes, ← Document.rewrite_tree habsent]
    exact h.replaceAll ((Document.rewrite_tree habsent).symm ▸ hproper)
  have hparse : parse limits (replacePrefixes text) = .ok (some (d.tree .plain).node) :=
    parse_written_of_within hplain (d.within_tree hattributes hdepth)
  rw [Schema.Document.ofText, hparse]
  show (Schema.Document.ofRoot (d.tree .plain).node).mapError Error.structural = .ok d
  rw [Document.ofRoot_node_tree hsections]
  rfl

/-- **A written model is converted to its own declarations.** Every model can be written, and
whichever text writes it – with any character data between tags, and childless elements as one
tag or as two – the file that comes out of the text is the one that comes out of the model:
the same text, the same number of declarations and the same notes in the same order. -/
theorem convert_of_written (options : OutputOptions) {limits : Limits} {d : Schema.Document}
    (hsections : d.sections ≠ []) (habsent : AbsentFrom d.texts) (hdepth : 8 ≤ limits.maxDepth)
    (hattributes : 5 ≤ limits.maxAttributes)
    (hdeclarations : d.declarationCount ≤ limits.maxDeclarations) :
    Written [d.tree .prefixed] d.writtenText.toList
      ∧ ∀ text : String, Written [d.tree .prefixed] text.toList →
        convert options limits text = .ok (d.typings options) := by
  refine ⟨?_, fun text h => ?_⟩
  · rw [Document.writtenText, String.toList_ofList]
    exact Markup.Tree.written_render (d.proper_tree Spelling.keepsNames_prefixed)
  · exact convert_of_ofText options
      (Document.ofText_of_written hsections habsent hdepth hattributes h) hdeclarations

set_option maxRecDepth 2000 in
/-- A derived record with a field of a built-in type and a name that has to be escaped. -/
theorem convert_of_written_record :
    let d : Schema.Document :=
      ⟨[{ complexTypes := [⟨some "A",
          .content (some "tns_B") [{ name := some "<a:b", type := some "int" }]⟩] }]⟩
    d.writtenText
        = "<definitions><types><xsd:schema><xsd:complexType name=\"A\"><xsd:complexContent>"
          ++ "<xsd:extension base=\"tns:B\"><xsd:sequence>"
          ++ "<xsd:element name=\"&lt;a:b\" type=\"xsd:int\"/></xsd:sequence></xsd:extension>"
          ++ "</xsd:complexContent></xsd:complexType></xsd:schema></types></definitions>"
      ∧ convert {} .default d.writtenText = .ok (d.typings {}) := by
  intro d
  obtain ⟨hwritten, hconvert⟩ :=
    @convert_of_written {} .default d (by decide) (by decide) (by decide) (by decide) (by decide)
  exact ⟨rfl, hconvert _ hwritten⟩

end SchemaTypings
