import SchemaTypings.Proofs.Markup.Rendering
import SchemaTypings.Proofs.Text.Line

/-!
# Documents as they are written

`Written` relates trees to the texts of programs that write documents. Documents written by
hand look different: they begin with an instruction, hold comments, spread their tags over
lines, quote values either way and write whatever references they like. A `Source` is such a
document in all its detail, and its text is a function of it (`Source.text`).

What is known of a source without reading anything:

* `Source.WellFormed` says that it obeys the grammar;
* `Source.trees` forgets everything but elements, attributes and their *raw* values – what
  stands between the quotes;
* replacing the known prefixes in its text is replacing them in its parts
  (`Source.text_rewrite`). No part begins before a character that divides texts and ends
  behind it, so none is joined to another.

A source need not stay well-formed when its prefixes are replaced. Two attributes may get one
name, and what is left of a name may be none.
-/

namespace SchemaTypings.Markup

open KnownPrefix

/-! ## Parts -/

/-- **An attribute as a document writes it.** -/
structure SourceAttribute where
  /-- The blanks in front of it. -/
  gap : List Char := [' ']
  /-- Its name. -/
  name : String
  /-- The blanks between its name and the equals sign. -/
  before : List Char := []
  /-- The blanks between the equals sign and the value. -/
  after : List Char := []
  /-- The quote around its value. -/
  quote : Char := '"'
  /-- What stands between the quotes. -/
  raw : String

/-- **A start tag or an empty-element tag as a document writes it**, without its brackets. -/
structure SourceTag where
  /-- The name of the element. -/
  name : String
  /-- The attributes. -/
  attributes : List SourceAttribute := []
  /-- The blanks at the end. -/
  gap : List Char := []

/-- **A construct that is no element** and says nothing about elements. -/
inductive Aside where
  /-- A comment. -/
  | comment (body : List Char)
  /-- A section of character data. -/
  | characters (body : List Char)
  /-- A processing instruction or the declaration that a document begins with. -/
  | instruction (body : List Char)
  /-- A document type. -/
  | doctype (body : List Char)

/-- **A construct of a document**, with the character data in front of it. -/
inductive Piece where
  /-- A construct that is no element. -/
  | aside (data : List Char) (a : Aside)
  /-- An element written as one tag. -/
  | empty (data : List Char) (tag : SourceTag)
  /-- An element with its start tag, its content, the character data before its end tag, and
  the blanks at the end of that. -/
  | element (data : List Char) (tag : SourceTag) (content : List Piece) (tail gap : List Char)

/-- **A document as it is written**: its constructs, and the character data behind them. -/
structure Source where
  /-- The constructs. -/
  pieces : List Piece
  /-- The character data after the last of them. -/
  tail : List Char := []

/-! ## Text -/

/-- The text of an attribute. -/
def SourceAttribute.text (a : SourceAttribute) : List Char :=
  a.gap ++ (a.name.toList ++ (a.before ++ '=' :: (a.after
    ++ a.quote :: (a.raw.toList ++ [a.quote]))))

/-- The text of a tag between its brackets. -/
def SourceTag.text (t : SourceTag) : List Char :=
  t.name.toList ++ (t.attributes.flatMap SourceAttribute.text ++ t.gap)

/-- The text of a construct that is no element, between its brackets. -/
def Aside.text : Aside → List Char
  | .comment body => ['!', '-', '-'] ++ (body ++ ['-', '-'])
  | .characters body => ['!', '[', 'C', 'D', 'A', 'T', 'A', '['] ++ (body ++ [']', ']'])
  | .instruction body => '?' :: (body ++ ['?'])
  | .doctype body => ['!', 'D', 'O', 'C', 'T', 'Y', 'P', 'E'] ++ body

mutual

/-- The text of a construct. -/
def Piece.text : Piece → List Char
  | .aside data a => data ++ '<' :: (a.text ++ ['>'])
  | .empty data tag => data ++ '<' :: (tag.text ++ ['/', '>'])
  | .element data tag content tail gap =>
    data ++ '<' :: (tag.text ++ '>' :: (Piece.textAll content
      ++ (tail ++ '<' :: '/' :: (tag.name.toList ++ (gap ++ ['>'])))))

/-- The text of several constructs. -/
def Piece.textAll : List Piece → List Char
  | [] => []
  | p :: ps => p.text ++ Piece.textAll ps

end

/-- **The text of a document.** -/
def Source.text (s : Source) : String :=
  String.ofList (Piece.textAll s.pieces ++ s.tail)

/-! ## What is said -/

/-- An attribute with its raw value. -/
def SourceAttribute.toAttribute (a : SourceAttribute) : Attribute :=
  ⟨a.name, a.raw⟩

mutual

/-- **The elements of a construct**, with raw values: one, or none. -/
def Piece.trees : Piece → List Tree
  | .aside _ _ => []
  | .empty _ tag => [⟨tag.name, tag.attributes.map SourceAttribute.toAttribute, []⟩]
  | .element _ tag content _ _ =>
    [⟨tag.name, tag.attributes.map SourceAttribute.toAttribute, Piece.treesAll content⟩]

/-- The elements of several constructs. -/
def Piece.treesAll : List Piece → List Tree
  | [] => []
  | p :: ps => p.trees ++ Piece.treesAll ps

end

/-- **The elements of a document** that stand in no other element, with raw values. -/
def Source.trees (s : Source) : List Tree :=
  Piece.treesAll s.pieces

/-! ## Grammar -/

/-- **A well-formed attribute**: a name, and a value in quotes in which every reference stands
for a character. -/
structure SourceAttribute.WellFormed (a : SourceAttribute) : Prop where
  /-- Something stands between the attribute and what comes before it. -/
  gap_ne_nil : a.gap ≠ []
  /-- Nothing but blanks stands around its parts. -/
  isBlank : ∀ c ∈ a.gap ++ (a.before ++ a.after), isBlank c = true
  /-- It is named by a name. -/
  isName : isName a.name = true
  /-- Its value is quoted. -/
  isQuote : a.quote = '"' ∨ a.quote = '\''
  /-- The value ends at the closing quote. -/
  quote_not_mem : a.quote ∉ a.raw.toList
  /-- The value stands for a text. -/
  readable : ∃ value, expand a.raw.toList = .ok value

/-- **A well-formed tag**: a name, and attributes with names of their own each. -/
structure SourceTag.WellFormed (t : SourceTag) : Prop where
  /-- The element is named by a name. -/
  isName : isName t.name = true
  /-- The attributes are well-formed. -/
  attributes : ∀ a ∈ t.attributes, a.WellFormed
  /-- No two attributes have one name. -/
  nodup : (t.attributes.map (·.name)).Nodup
  /-- The tag ends with blanks, if with anything. -/
  isBlank : ∀ c ∈ t.gap, isBlank c = true

/-- The brackets that are open behind a stretch of a document type. -/
def openBrackets (body : List Char) : Nat :=
  body.foldl (fun depth c => if c = '<' then depth + 1 else if c = '>' then depth - 1 else depth) 0

/-- **A well-formed construct that is no element.** A comment holds no two hyphens in a row, a
section of character data ends at its first closing brackets, an instruction is not empty and
holds no `>`, and in a document type brackets are balanced. -/
def Aside.WellFormed : Aside → Prop
  | .comment body => ¬ ['-', '-'] <:+: body
  | .characters body => ¬ [']', ']', '>'] <:+: body ++ [']', ']']
  | .instruction body => body ≠ [] ∧ '>' ∉ body
  | .doctype body =>
    body.all isBlank = false ∧ openBrackets body = 0
      ∧ ∀ front, front ++ ['>'] <+: body → 0 < openBrackets front

/-- **A well-formed construct.** -/
inductive Piece.WellFormed : Piece → Prop where
  /-- One that is no element. -/
  | aside {data : List Char} {a : Aside} (hdata : '<' ∉ data) (h : a.WellFormed) :
      WellFormed (.aside data a)
  /-- An element of one tag. -/
  | empty {data : List Char} {tag : SourceTag} (hdata : '<' ∉ data) (h : tag.WellFormed) :
      WellFormed (.empty data tag)
  /-- An element of two tags. -/
  | element {data tail gap : List Char} {tag : SourceTag} {content : List Piece}
      (hdata : '<' ∉ data) (h : tag.WellFormed) (hcontent : ∀ p ∈ content, WellFormed p)
      (htail : '<' ∉ tail) (hgap : ∀ c ∈ gap, isBlank c = true) :
      WellFormed (.element data tag content tail gap)

/-- **A well-formed document**: its constructs are well-formed, and exactly one of them is an
element. -/
structure Source.WellFormed (s : Source) : Prop where
  /-- The constructs are well-formed. -/
  pieces : ∀ p ∈ s.pieces, p.WellFormed
  /-- There is one root. -/
  root : ∃ t, s.trees = [t]
  /-- Character data holds no opening bracket. -/
  tail : '<' ∉ s.tail

/-! ## Replacing prefixes -/

/-- An attribute with the known prefixes replaced. -/
def SourceAttribute.rewrite (a : SourceAttribute) : SourceAttribute :=
  { a with name := replacePrefixes a.name, raw := replacePrefixes a.raw }

/-- A tag with the known prefixes replaced. -/
def SourceTag.rewrite (t : SourceTag) : SourceTag :=
  { t with name := replacePrefixes t.name, attributes := t.attributes.map SourceAttribute.rewrite }

/-- A construct that is no element, with the known prefixes replaced. -/
def Aside.rewrite : Aside → Aside
  | .comment body => .comment (replaceAll body)
  | .characters body => .characters (replaceAll body)
  | .instruction body => .instruction (replaceAll body)
  | .doctype body => .doctype (replaceAll body)

mutual

/-- A construct with the known prefixes replaced. -/
def Piece.rewrite : Piece → Piece
  | .aside data a => .aside (replaceAll data) a.rewrite
  | .empty data tag => .empty (replaceAll data) tag.rewrite
  | .element data tag content tail gap =>
    .element (replaceAll data) tag.rewrite (Piece.rewriteAll content) (replaceAll tail) gap

/-- Several constructs with the known prefixes replaced. -/
def Piece.rewriteAll : List Piece → List Piece
  | [] => []
  | p :: ps => p.rewrite :: Piece.rewriteAll ps

end

/-- **A document with the known prefixes replaced** in all its parts. -/
def Source.rewrite (s : Source) : Source :=
  ⟨Piece.rewriteAll s.pieces, replaceAll s.tail⟩

/-- A blank divides texts. -/
theorem divides_of_isBlank {c : Char} (h : isBlank c = true) : Divides c := by
  simp only [isBlank, Bool.or_eq_true, beq_iff_eq] at h
  rcases h with ((rfl | rfl) | rfl) | rfl <;> decide

section Blanks

variable {gap : List Char} (hgap : ∀ c ∈ gap, isBlank c = true)
include hgap

/-- Blanks stay, and what follows them is rewritten. -/
theorem replaceAll_blanks_append (b : List Char) : replaceAll (gap ++ b) = gap ++ replaceAll b := by
  induction gap with
  | nil => rfl
  | cons c gap ih =>
    obtain ⟨hc, hgap⟩ := List.forall_mem_cons.mp hgap
    rw [List.cons_append, replaceAll_cons (divides_of_isBlank hc), ih hgap, List.cons_append]

/-- The parts on both sides of blanks are rewritten separately. -/
theorem replaceAll_append_blanks (hne : gap ≠ []) (a b : List Char) :
    replaceAll (a ++ (gap ++ b)) = replaceAll a ++ (gap ++ replaceAll b) := by
  obtain ⟨c, more, rfl⟩ := List.exists_cons_of_ne_nil hne
  obtain ⟨hc, hmore⟩ := List.forall_mem_cons.mp hgap
  rw [List.cons_append, replaceAll_append_cons (divides_of_isBlank hc),
    replaceAll_blanks_append hmore, List.cons_append]

/-- Blanks may stand in front of a dividing character. -/
theorem replaceAll_append_blanks_cons {c : Char} (hc : Divides c) (a b : List Char) :
    replaceAll (a ++ (gap ++ c :: b)) = replaceAll a ++ (gap ++ c :: replaceAll b) := by
  by_cases hne : gap = []
  · subst hne
    exact replaceAll_append_cons hc a b
  · rw [replaceAll_append_blanks hgap hne, replaceAll_cons hc]

end Blanks

/-- An attribute is rewritten apart from what stands on both sides. -/
theorem SourceAttribute.replaceAll_append_text {a : SourceAttribute} (h : a.WellFormed)
    (lead rest : List Char) :
    replaceAll (lead ++ (a.text ++ rest))
      = replaceAll lead ++ (a.rewrite.text ++ replaceAll rest) := by
  obtain ⟨hgap, haround⟩ := List.forall_mem_append.mp h.isBlank
  obtain ⟨hbefore, hafter⟩ := List.forall_mem_append.mp haround
  have hquote : Divides a.quote := by
    rcases h.isQuote with hq | hq <;> rw [hq] <;> decide
  have htext : lead ++ (a.text ++ rest)
      = lead ++ (a.gap ++ (a.name.toList ++ (a.before ++ '=' :: (a.after
        ++ a.quote :: (a.raw.toList ++ a.quote :: rest))))) := by
    simp [SourceAttribute.text]
  have hvalue := replaceAll_append_blanks_cons hafter hquote [] (a.raw.toList ++ a.quote :: rest)
  rw [replaceAll_nil, List.nil_append, List.nil_append] at hvalue
  rw [htext, replaceAll_append_blanks hgap h.gap_ne_nil,
    replaceAll_append_blanks_cons hbefore (by decide), hvalue, replaceAll_append_cons hquote]
  simp [SourceAttribute.text, SourceAttribute.rewrite]

/-- Attributes, and the blanks behind them, are rewritten apart from what stands on both sides. -/
theorem SourceAttribute.replaceAll_append_flatMap_text {as : List SourceAttribute}
    (h : ∀ a ∈ as, a.WellFormed) {gap : List Char} (hgap : ∀ c ∈ gap, isBlank c = true) {c : Char}
    (hc : Divides c) (lead rest : List Char) :
    replaceAll (lead ++ (as.flatMap text ++ (gap ++ c :: rest)))
      = replaceAll lead ++ ((as.map rewrite).flatMap text ++ (gap ++ c :: replaceAll rest)) := by
  induction as generalizing lead with
  | nil => exact replaceAll_append_blanks_cons hgap hc lead rest
  | cons a as ih =>
    obtain ⟨ha, has⟩ := List.forall_mem_cons.mp h
    have hrest := ih has []
    rw [replaceAll_nil, List.nil_append, List.nil_append] at hrest
    rw [List.flatMap_cons, List.append_assoc, replaceAll_append_text ha, hrest, List.map_cons,
      List.flatMap_cons, List.append_assoc]

/-- **A tag is rewritten part by part.** -/
theorem SourceTag.replaceAll_text_append {t : SourceTag} (h : t.WellFormed) {c : Char}
    (hc : Divides c) (rest : List Char) :
    replaceAll (t.text ++ c :: rest) = t.rewrite.text ++ c :: replaceAll rest := by
  have htext : t.text ++ c :: rest = t.name.toList
      ++ (t.attributes.flatMap SourceAttribute.text ++ (t.gap ++ c :: rest)) := by
    simp [SourceTag.text]
  rw [htext, SourceAttribute.replaceAll_append_flatMap_text h.attributes h.isBlank hc]
  simp [SourceTag.text, SourceTag.rewrite]

/-- What stands between dividing characters is rewritten by itself. -/
theorem replaceAll_dividing_append (lead : List Char) (c : Char)
    (h : ∀ d ∈ lead ++ [c], Divides d) (body rest : List Char) :
    replaceAll (lead ++ (body ++ c :: rest))
      = lead ++ (replaceAll body ++ c :: replaceAll rest) := by
  induction lead with
  | nil => exact replaceAll_append_cons (h c (List.mem_singleton_self c)) body rest
  | cons d lead ih =>
    obtain ⟨hd, hlead⟩ := List.forall_mem_cons.mp h
    rw [List.cons_append, replaceAll_cons hd, ih hlead, List.cons_append]

/-- A construct that is no element is rewritten inside. -/
theorem Aside.replaceAll_text_append (a : Aside) (rest : List Char) :
    replaceAll (a.text ++ '>' :: rest) = a.rewrite.text ++ '>' :: replaceAll rest := by
  cases a with
  | comment body =>
    have h := replaceAll_dividing_append ['!', '-', '-'] '-' (by decide) body
      ('-' :: '>' :: rest)
    rw [replaceAll_cons (by decide), replaceAll_cons (by decide)] at h
    simpa [Aside.text, Aside.rewrite] using h
  | characters body =>
    have h := replaceAll_dividing_append ['!', '[', 'C', 'D', 'A', 'T', 'A', '['] ']'
      (by decide) body (']' :: '>' :: rest)
    rw [replaceAll_cons (by decide), replaceAll_cons (by decide)] at h
    simpa [Aside.text, Aside.rewrite] using h
  | instruction body =>
    have h := replaceAll_dividing_append ['?'] '?' (by decide) body ('>' :: rest)
    rw [replaceAll_cons (by decide)] at h
    simpa [Aside.text, Aside.rewrite] using h
  | doctype body =>
    have h := replaceAll_dividing_append ['!', 'D', 'O', 'C', 'T', 'Y', 'P', 'E'] '>'
      (by decide) body rest
    simpa [Aside.text, Aside.rewrite] using h

/-- **Induction on constructs**: what holds of an element if it holds of its content holds of
every construct. -/
theorem Piece.induction {motive : Piece → Prop}
    (aside : ∀ data a, motive (.aside data a)) (empty : ∀ data tag, motive (.empty data tag))
    (element : ∀ data tag content tail gap, (∀ p ∈ content, motive p) →
      motive (.element data tag content tail gap))
    (p : Piece) : motive p := by
  match p with
  | .aside data a => exact aside data a
  | .empty data tag => exact empty data tag
  | .element data tag content tail gap =>
    exact element data tag content tail gap fun p _ => Piece.induction aside empty element p

/-- What is rewritten apart from what follows one construct is so for several. -/
theorem Piece.replaceAll_textAll_append {ps : List Piece}
    (h : ∀ p ∈ ps, ∀ rest, replaceAll (p.text ++ rest) = p.rewrite.text ++ replaceAll rest)
    (rest : List Char) :
    replaceAll (textAll ps ++ rest) = textAll (rewriteAll ps) ++ replaceAll rest := by
  induction ps with
  | nil => rfl
  | cons p ps ih =>
    obtain ⟨hp, hps⟩ := List.forall_mem_cons.mp h
    rw [textAll, List.append_assoc, hp, ih hps, rewriteAll, textAll, List.append_assoc]

/-- **A construct is rewritten part by part**, and apart from what follows it. -/
theorem Piece.replaceAll_text_append {p : Piece} (h : p.WellFormed) (rest : List Char) :
    replaceAll (p.text ++ rest) = p.rewrite.text ++ replaceAll rest := by
  induction p using Piece.induction generalizing rest with
  | aside data a =>
    have htext : (Piece.aside data a).text ++ rest = data ++ '<' :: (a.text ++ '>' :: rest) := by
      simp [Piece.text]
    rw [htext, replaceAll_append_cons (by decide), Aside.replaceAll_text_append]
    simp [Piece.text, Piece.rewrite]
  | empty data tag =>
    cases h with
    | empty _ htag =>
      have htext : (Piece.empty data tag).text ++ rest
          = data ++ '<' :: (tag.text ++ '/' :: '>' :: rest) := by
        simp [Piece.text]
      rw [htext, replaceAll_append_cons (by decide),
        SourceTag.replaceAll_text_append htag (by decide), replaceAll_cons (by decide)]
      simp [Piece.text, Piece.rewrite]
  | element data tag content tail gap ih =>
    cases h with
    | element _ htag hcontent _ hgap =>
      have htext : (Piece.element data tag content tail gap).text ++ rest
          = data ++ '<' :: (tag.text ++ '>' :: (textAll content
            ++ (tail ++ '<' :: '/' :: (tag.name.toList ++ (gap ++ '>' :: rest))))) := by
        simp [Piece.text]
      rw [htext, replaceAll_append_cons (by decide),
        SourceTag.replaceAll_text_append htag (by decide),
        replaceAll_textAll_append fun p hp => ih p hp (hcontent p hp),
        replaceAll_append_cons (by decide), replaceAll_cons (by decide),
        replaceAll_append_blanks_cons hgap (by decide)]
      simp [Piece.text, Piece.rewrite, SourceTag.rewrite]

/-- **Replacing the prefixes of a text replaces them in the parts of the document.** -/
theorem Source.text_rewrite {s : Source} (h : s.WellFormed) :
    replacePrefixes s.text = s.rewrite.text := by
  have htext := Piece.replaceAll_textAll_append
    (fun p hp => Piece.replaceAll_text_append (h.pieces p hp)) s.tail
  rw [replacePrefixes, Source.text, String.toList_ofList, htext]
  rfl

/-! ## The elements of a rewritten document -/

/-- The elements of rewritten constructs are the rewritten elements. -/
theorem Piece.treesAll_rewriteAll_of {ps : List Piece}
    (h : ∀ p ∈ ps, p.rewrite.trees = p.trees.map Tree.rewrite) :
    treesAll (rewriteAll ps) = (treesAll ps).map Tree.rewrite := by
  induction ps with
  | nil => rfl
  | cons p ps ih =>
    obtain ⟨hp, hps⟩ := List.forall_mem_cons.mp h
    rw [rewriteAll, treesAll, hp, ih hps, treesAll, List.map_append]

theorem Piece.trees_rewrite (p : Piece) : p.rewrite.trees = p.trees.map Tree.rewrite := by
  have hattributes : ∀ tag : SourceTag,
      tag.rewrite.attributes.map SourceAttribute.toAttribute
        = (tag.attributes.map SourceAttribute.toAttribute).map Attribute.rewrite := by
    intro tag
    rw [SourceTag.rewrite, List.map_map, List.map_map]
    rfl
  induction p using Piece.induction with
  | aside data a => rfl
  | empty data tag =>
    rw [Piece.rewrite, trees, trees, hattributes, List.map_singleton, Tree.rewrite_eq]
    rfl
  | element data tag content tail gap ih =>
    rw [Piece.rewrite, trees, trees, hattributes, treesAll_rewriteAll_of ih, List.map_singleton,
      Tree.rewrite_eq]
    rfl

/-- **The elements of a rewritten document are the rewritten elements.** -/
theorem Source.trees_rewrite (s : Source) : s.rewrite.trees = s.trees.map Tree.rewrite :=
  Piece.treesAll_rewriteAll_of fun p _ => p.trees_rewrite

end SchemaTypings.Markup
