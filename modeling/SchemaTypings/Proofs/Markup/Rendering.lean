import SchemaTypings.Proofs.Markup.TreeReading
import SchemaTypings.Proofs.PrefixScan

/-!
# Canonical writing, and rewriting prefixes in it

`Tree.render` writes a tree in one way among all those that `Written` allows: nothing stands
between tags, and an element without children is one tag. It is what a program that writes
documents would do.

Known prefixes are replaced in the text of a document, before anything is known of its
markup. However a tree is written, that comes to replacing them in every tag, every attribute
name and every value separately (`Written.replaceAll`): each of these stands between
characters that divide texts, and so does each reference inside a value, which holds no
colon. What is asked of the tree is only that it can still be written afterwards.
-/

namespace SchemaTypings.Markup

namespace Tree

mutual

/-- **The canonical text of a tree.** -/
def render : Tree → List Char
  | ⟨tag, attributes, children⟩ =>
    if children.isEmpty then emptyText tag attributes
    else startText tag attributes ++ (renderAll children ++ endText tag)

/-- The canonical text of several trees. -/
def renderAll : List Tree → List Char
  | [] => []
  | t :: ts => t.render ++ renderAll ts

end

/-- **A tree whose elements all have a property** of their tag and their attributes. -/
inductive Everywhere (property : String → List Attribute → Prop) : Tree → Prop where
  /-- The element has the property, and the elements inside have it. -/
  | intro {tag : String} {attributes : List Attribute} {children : List Tree}
      (here : property tag attributes)
      (inside : ∀ child ∈ children, Everywhere property child) :
      Everywhere property ⟨tag, attributes, children⟩

/-- **A tree that can be written**: each of its elements has a tag that can be. -/
abbrev Proper (t : Tree) : Prop :=
  t.Everywhere Writable

/-- The canonical text of a tree writes it, before whatever is written next. -/
theorem written_render_append {t : Tree} (ht : t.Proper) :
    ∀ {ts : List Tree} {w : List Char}, Written ts w → Written (t :: ts) (t.render ++ w) := by
  induction t using Tree.induction with
  | element tag attributes children ih =>
    intro ts w h
    obtain ⟨htag, hchildren⟩ := ht
    cases children with
    | nil => exact .empty htag h
    | cons first more =>
      -- over a part of the children, so that the hypothesis on trees stays about all of them
      have hinside : ∀ cs : List Tree, (∀ c ∈ cs, c ∈ first :: more) →
          Written cs (renderAll cs) := by
        intro cs hcs
        induction cs with
        | nil => exact .nil
        | cons c cs ihcs =>
          obtain ⟨hc, hcs⟩ := List.forall_mem_cons.mp hcs
          exact ih c hc (hchildren c hc) (ihcs hcs)
      have hwritten := Written.element htag (hinside (first :: more) fun _ hc => hc) h
      rw [render, if_neg (by simp), List.append_assoc, List.append_assoc]
      exact hwritten

/-- **The canonical text of a tree writes the tree.** -/
theorem written_render {t : Tree} (ht : t.Proper) : Written [t] t.render := by
  have hwritten := written_render_append ht .nil
  rwa [List.append_nil] at hwritten

/-! ## Rewriting prefixes -/

mutual

/-- **A tree with the known prefixes replaced** in its tags, in the names of its attributes and
in their values. -/
def rewrite : Tree → Tree
  | ⟨tag, attributes, children⟩ =>
    ⟨replacePrefixes tag,
      attributes.map fun a => ⟨replacePrefixes a.name, replacePrefixes a.value⟩,
      rewriteAll children⟩

/-- Several trees with the known prefixes replaced. -/
def rewriteAll : List Tree → List Tree
  | [] => []
  | t :: ts => t.rewrite :: rewriteAll ts

end

/-- Several trees are rewritten one by one. -/
theorem rewriteAll_eq_map (ts : List Tree) : rewriteAll ts = ts.map rewrite := by
  induction ts with
  | nil => rfl
  | cons t ts ih => rw [rewriteAll, ih, List.map_cons]

end Tree

open KnownPrefix

/-- What is recognized in a written value is there in the value: a prefix holds none of the
characters that are written as references. -/
theorem prefix_of_prefix_escape {lead value : List Char} (hlead : ∀ c ∈ lead, c ∉ escapedChars)
    (h : lead <+: escape value) : lead <+: value := by
  induction lead generalizing value with
  | nil => exact List.nil_prefix
  | cons c lead ih =>
    obtain ⟨hc, hlead⟩ := List.forall_mem_cons.mp hlead
    cases value with
    | nil => exact absurd (List.prefix_nil.mp h) (List.cons_ne_nil _ _)
    | cons d ds =>
      rw [escape_cons] at h
      by_cases hd : d ∈ escapedChars
      · have hreference : ∃ more, escapeChar d = '&' :: more := by
          have hall : escapedChars.all (fun d => (escapeChar d).head? == some '&') = true := by
            decide
          exact List.head?_eq_some_iff.mp (beq_iff_eq.mp (List.all_eq_true.mp hall d hd))
        obtain ⟨more, heq⟩ := hreference
        rw [heq, List.cons_append] at h
        exact absurd ((List.cons_prefix_cons.mp h).1 ▸ by decide) hc
      · rw [escapeChar_of_not_mem hd, List.singleton_append] at h
        obtain ⟨rfl, htail⟩ := List.cons_prefix_cons.mp h
        exact List.cons_prefix_cons.mpr ⟨rfl, ih hlead htail⟩

/-- A known prefix is written without special characters, and so is its replacement. -/
theorem not_mem_escapedChars (p : KnownPrefix) :
    ∀ c ∈ p.written ++ p.replacement, c ∉ escapedChars := by
  have hall : (p.written ++ p.replacement).all (fun c => !escapedChars.contains c) = true := by
    cases p <;> decide
  intro c hc hescaped
  have hnot := List.all_eq_true.mp hall c hc
  rw [List.contains_iff_mem.mpr hescaped] at hnot
  cases hnot

/-- A stretch without special characters is written by itself. -/
theorem escape_append_of_not_mem {lead : List Char} (h : ∀ c ∈ lead, c ∉ escapedChars)
    (rest : List Char) : escape (lead ++ rest) = lead ++ escape rest := by
  induction lead with
  | nil => rfl
  | cons c lead ih =>
    obtain ⟨hc, hlead⟩ := List.forall_mem_cons.mp h
    rw [List.cons_append, escape_cons, escapeChar_of_not_mem hc, ih hlead, List.singleton_append,
      List.cons_append]

/-- A reference is passed over by the scan. -/
theorem replaceAll_escapeChar_append {c : Char} (hc : c ∈ escapedChars) (rest : List Char) :
    replaceAll (escapeChar c ++ rest) = escapeChar c ++ replaceAll rest := by
  have hname : ∃ name, escapeChar c = '&' :: (name ++ [';']) ∧ ':' ∉ name := by
    fin_cases hc
    · exact ⟨['a', 'm', 'p'], rfl, by decide⟩
    · exact ⟨['l', 't'], rfl, by decide⟩
    · exact ⟨['g', 't'], rfl, by decide⟩
    · exact ⟨['q', 'u', 'o', 't'], rfl, by decide⟩
    · exact ⟨['a', 'p', 'o', 's'], rfl, by decide⟩
  obtain ⟨name, heq, hcolon⟩ := hname
  rw [heq, List.cons_append, List.append_assoc, List.singleton_append, replaceAll_cons (by decide),
    replaceAll_append_cons (by decide), replaceAll_eq_self (absent_of_not_mem hcolon),
    List.cons_append, List.append_assoc, List.singleton_append]

/-- **Rewriting a written value writes the rewritten value.** -/
theorem replaceAll_escape (value : List Char) :
    replaceAll (escape value) = escape (replaceAll value) := by
  induction value using scan_induction with
  | nil => rw [escape_nil, replaceAll_nil, escape_nil]
  | found p rest ih =>
    obtain ⟨hwritten, hreplacement⟩ := List.forall_mem_append.mp (not_mem_escapedChars p)
    rw [escape_append_of_not_mem hwritten, replaceAll_written_append, ih,
      replaceAll_written_append, escape_append_of_not_mem hreplacement]
  | other c cs hnone ih =>
    by_cases hc : c ∈ escapedChars
    · rw [escape_cons, replaceAll_escapeChar_append hc, ih, replaceAll_cons_of_none hnone,
        escape_cons]
    -- a prefix that shows in what is written would show in the value
    · have hnone' : leading? (c :: escape cs) = none :=
        leading?_eq_none_iff.mpr fun p hp => by
          have hescape : p.written <+: escape (c :: cs) := by
            rw [escape_cons, escapeChar_of_not_mem hc]
            exact hp
          exact leading?_eq_none_iff.mp hnone p
            (prefix_of_prefix_escape (List.forall_mem_append.mp (not_mem_escapedChars p)).1
              hescape)
      rw [escape_cons, escapeChar_of_not_mem hc, List.singleton_append,
        replaceAll_cons_of_none hnone', ih, replaceAll_cons_of_none hnone, escape_cons,
        escapeChar_of_not_mem hc, List.singleton_append]

/-! ## Tags -/

/-- An attribute with the known prefixes replaced. -/
def Attribute.rewrite (a : Attribute) : Attribute :=
  ⟨replacePrefixes a.name, replacePrefixes a.value⟩

theorem Tree.rewrite_eq (t : Tree) :
    t.rewrite
      = ⟨replacePrefixes t.tag, t.attributes.map Attribute.rewrite, t.children.map rewrite⟩ := by
  cases t
  rw [rewrite, rewriteAll_eq_map]
  rfl

/-- Replacing prefixes moves no element and adds no attribute. -/
theorem Tree.Within.rewrite {limits : Limits} {depth : Nat} {t : Tree} (h : t.Within limits depth) :
    t.rewrite.Within limits depth := by
  induction t using Tree.induction generalizing depth with
  | element tag attributes children ih =>
    rw [Tree.within_iff] at h ⊢
    obtain ⟨⟨hdepth, hattributes⟩, hchildren⟩ := h
    rw [Tree.rewrite_eq]
    refine ⟨⟨hdepth, by rwa [List.length_map]⟩, fun child hchild => ?_⟩
    obtain ⟨c, hc, rfl⟩ := List.mem_map.mp hchild
    exact ih c hc (hchildren c hc)

/-- What stands before the attributes of a tag is rewritten apart from them, and they apart
from what follows. -/
theorem replaceAll_append_attributesText (lead : List Char) (attributes : List Attribute)
    {c : Char} (hc : Divides c) (rest : List Char) :
    replaceAll (lead ++ (attributesText attributes ++ c :: rest))
      = replaceAll lead
        ++ (attributesText (attributes.map Attribute.rewrite) ++ c :: replaceAll rest) := by
  induction attributes generalizing lead with
  | nil => exact replaceAll_append_cons hc lead rest
  | cons a as ih =>
    have htext : lead ++ (attributesText (a :: as) ++ c :: rest)
        = lead ++ ' ' :: (a.name.toList ++ '=' :: '"' :: (escape a.value.toList
          ++ '"' :: ([] ++ (attributesText as ++ c :: rest)))) := by
      simp [attributeText]
    rw [htext, replaceAll_append_cons (by decide), replaceAll_append_cons (by decide),
      replaceAll_cons (by decide), replaceAll_append_cons (by decide), replaceAll_escape, ih,
      List.map_cons, attributesText_cons]
    simp [attributeText, Attribute.rewrite]

/-- **A start tag is rewritten part by part**, and apart from what stands on both sides. -/
theorem replaceAll_append_startText (lead : List Char) (tag : String)
    (attributes : List Attribute) (rest : List Char) :
    replaceAll (lead ++ (startText tag attributes ++ rest))
      = replaceAll lead
        ++ (startText (replacePrefixes tag) (attributes.map Attribute.rewrite)
          ++ replaceAll rest) := by
  have htext : lead ++ (startText tag attributes ++ rest)
      = lead ++ '<' :: (tag.toList ++ (attributesText attributes ++ '>' :: rest)) := by
    simp [startText, tagText]
  rw [htext, replaceAll_append_cons (by decide),
    replaceAll_append_attributesText _ _ (by decide)]
  simp [startText, tagText]

/-- **An empty-element tag is rewritten part by part**, and apart from what stands on both
sides. -/
theorem replaceAll_append_emptyText (lead : List Char) (tag : String)
    (attributes : List Attribute) (rest : List Char) :
    replaceAll (lead ++ (emptyText tag attributes ++ rest))
      = replaceAll lead
        ++ (emptyText (replacePrefixes tag) (attributes.map Attribute.rewrite)
          ++ replaceAll rest) := by
  have htext : lead ++ (emptyText tag attributes ++ rest)
      = lead ++ '<' :: (tag.toList ++ (attributesText attributes ++ '/' :: '>' :: rest)) := by
    simp [emptyText, tagText]
  rw [htext, replaceAll_append_cons (by decide),
    replaceAll_append_attributesText _ _ (by decide), replaceAll_cons (by decide)]
  simp [emptyText, tagText]

/-- **An end tag is rewritten as its name is**, and apart from what stands on both sides. -/
theorem replaceAll_append_endText (lead : List Char) (tag : String) (rest : List Char) :
    replaceAll (lead ++ (endText tag ++ rest))
      = replaceAll lead ++ (endText (replacePrefixes tag) ++ replaceAll rest) := by
  have htext : lead ++ (endText tag ++ rest) = lead ++ '<' :: '/' :: (tag.toList ++ '>' :: rest) :=
    by simp [endText]
  rw [htext, replaceAll_append_cons (by decide), replaceAll_cons (by decide),
    replaceAll_append_cons (by decide)]
  simp [endText]

/-! ## Written trees -/

/-- Any character data may stand in front of a text. -/
theorem Written.dataAppend {ts : List Tree} {w : List Char} (h : Written ts w)
    {data : List Char} (hdata : '<' ∉ data) : Written ts (data ++ w) := by
  induction data with
  | nil => exact h
  | cons c data ih =>
    obtain ⟨hc, hdata⟩ := not_or.mp (mt List.mem_cons.mpr hdata)
    exact .data (Ne.symm hc) (ih hdata)

/-- Character data stays character data. -/
theorem not_mem_replaceAll {data : List Char} (h : '<' ∉ data) : '<' ∉ replaceAll data := by
  induction data using scan_induction with
  | nil => rwa [replaceAll_nil]
  | found p rest ih =>
    have hplain : '<' ∉ p.replacement := by cases p <;> decide
    rw [replaceAll_written_append, List.mem_append]
    exact not_or.mpr ⟨hplain, ih fun hrest => h (List.mem_append_right _ hrest)⟩
  | other c cs hnone ih =>
    obtain ⟨hc, hcs⟩ := not_or.mp (mt List.mem_cons.mpr h)
    rw [replaceAll_cons_of_none hnone, List.mem_cons]
    exact not_or.mpr ⟨hc, ih hcs⟩

/-- Rewriting a text that writes trees, with character data in front. The data is carried
along, since a prefix may begin in it and end behind it. -/
theorem Written.replaceAll_append {ts : List Tree} {w : List Char} (h : Written ts w) :
    (∀ t ∈ ts, t.rewrite.Proper) → ∀ data : List Char, '<' ∉ data →
      Written (ts.map Tree.rewrite) (replaceAll (data ++ w)) := by
  induction h with
  | nil =>
    intro _ data hdata
    have hwritten := Written.nil.dataAppend (not_mem_replaceAll hdata)
    rwa [List.append_nil] at hwritten ⊢
  | @data _ c w hc _ ih =>
    intro hproper data hdata
    have hmore : '<' ∉ data ++ [c] := by
      rw [List.mem_append, List.mem_singleton]
      exact not_or.mpr ⟨hdata, Ne.symm hc⟩
    rw [show data ++ c :: w = data ++ [c] ++ w from by simp]
    exact ih hproper _ hmore
  | @empty tag attributes ts w _ _ ih =>
    intro hproper data hdata
    obtain ⟨hhead, hrest⟩ := List.forall_mem_cons.mp hproper
    rw [Tree.rewrite_eq] at hhead
    obtain ⟨htag, -⟩ := hhead
    have hafter := ih hrest [] List.not_mem_nil
    rw [replaceAll_append_emptyText, List.map_cons, Tree.rewrite_eq]
    exact (Written.empty htag hafter).dataAppend (not_mem_replaceAll hdata)
  | @element tag attributes children ts inside w _ _ _ ihinside ih =>
    intro hproper data hdata
    obtain ⟨hhead, hrest⟩ := List.forall_mem_cons.mp hproper
    rw [Tree.rewrite_eq] at hhead
    obtain ⟨htag, hchildren⟩ := hhead
    have hbetween := ihinside (List.forall_mem_map.mp hchildren) [] List.not_mem_nil
    have hafter := ih hrest [] List.not_mem_nil
    rw [replaceAll_append_startText, replaceAll_append_endText, List.map_cons, Tree.rewrite_eq]
    exact (Written.element htag hbetween hafter).dataAppend (not_mem_replaceAll hdata)

/-- **Rewriting a text that writes a tree gives a text that writes the rewritten tree**, if
that can be written. -/
theorem Written.replaceAll {t : Tree} {w : List Char} (h : Written [t] w)
    (hproper : t.rewrite.Proper) : Written [t.rewrite] (KnownPrefix.replaceAll w) :=
  h.replaceAll_append (List.forall_mem_singleton.mpr hproper) [] List.not_mem_nil

end SchemaTypings.Markup
