import Mathlib.Data.List.Basic
import SchemaTypings.Proofs.Markup.Rendering

/-!
# Rewriting prefixes in canonical texts

Replacing the known prefixes in the canonical text of a tree gives the canonical text of the
rewritten tree, whatever the tree is (`Tree.replaceAll_append_render`). Neither a tag nor what
stands around it takes part in a prefix of the other, since an angle bracket stands on each
side.

Whether the new text can be read is a question of names. A name with one colon in it, which
is what namespaces allow, stays a name when its prefix is replaced
(`IsQualified.isName_replacePrefixes`): where `xsd:` goes, a local name is left, and that
begins as names do. A text such as `xsd::a` would not stay one. What remains to be asked of a
tree is that no element has two attributes whose names become one, and then its text is read as
the rewritten tree (`Tree.replacePrefixes_render`).
-/

namespace SchemaTypings.Markup

open KnownPrefix

/-! ## Texts of trees -/

namespace Tree

/-- The texts of trees that follow each other are rewritten one by one, if the text of each is
rewritten apart from what stands on both sides. -/
theorem replaceAll_renderAll_append {ts : List Tree}
    (h : ∀ t ∈ ts, ∀ lead rest : List Char, replaceAll (lead ++ (t.render ++ rest))
      = replaceAll lead ++ (t.rewrite.render ++ replaceAll rest)) (rest : List Char) :
    replaceAll (renderAll ts ++ rest) = renderAll (ts.map rewrite) ++ replaceAll rest := by
  induction ts with
  | nil => rfl
  | cons t ts ih =>
    obtain ⟨ht, hts⟩ := List.forall_mem_cons.mp h
    have hfirst := ht [] (renderAll ts ++ rest)
    rw [replaceAll_nil, List.nil_append, List.nil_append, ih hts] at hfirst
    rw [renderAll, List.append_assoc, hfirst, List.map_cons, renderAll, List.append_assoc]

/-- **The canonical text of a tree is rewritten to that of the rewritten tree**, and apart from
what stands on both sides. -/
theorem replaceAll_append_render (t : Tree) (lead rest : List Char) :
    replaceAll (lead ++ (t.render ++ rest))
      = replaceAll lead ++ (t.rewrite.render ++ replaceAll rest) := by
  induction t using Tree.induction generalizing lead rest with
  | element tag attributes children ih =>
    rw [rewrite_eq, render, render, List.isEmpty_map]
    by_cases hempty : children.isEmpty = true
    · rw [if_pos hempty, if_pos hempty, replaceAll_append_emptyText]
    · have hend := replaceAll_append_endText [] tag rest
      rw [replaceAll_nil, List.nil_append, List.nil_append] at hend
      rw [if_neg hempty, if_neg hempty, List.append_assoc, List.append_assoc,
        replaceAll_append_startText, replaceAll_renderAll_append ih, hend, List.append_assoc,
        List.append_assoc]

/-- The canonical text of a tree is rewritten to that of the rewritten tree. -/
theorem replaceAll_render (t : Tree) : replaceAll t.render = t.rewrite.render := by
  have happend := t.replaceAll_append_render [] []
  rwa [replaceAll_nil, List.nil_append, List.nil_append, List.append_nil, List.append_nil]
    at happend

end Tree

/-! ## Names -/

/-- **A name without a colon.** -/
def isLocalName (name : String) : Bool :=
  isName name && !name.toList.contains ':'

/-- **The names that namespaces allow**: one name without a colon, or two with a colon between
them. -/
inductive IsQualified : String → Prop where
  /-- A name without a colon. -/
  | bare {name : String} (h : isLocalName name = true) : IsQualified name
  /-- Two names, the first of them a prefix. -/
  | pair {lead name : String} (hlead : isLocalName lead = true)
      (hname : isLocalName name = true) : IsQualified (lead ++ ":" ++ name)

theorem isLocalName_iff {name : String} :
    isLocalName name = true ↔ isName name = true ∧ ':' ∉ name.toList := by
  simp [isLocalName]

/-- The scan brings in no character but the underscore. -/
theorem mem_of_mem_replaceAll {cs : List Char} {c : Char} (h : c ∈ replaceAll cs) :
    c ∈ cs ∨ c = '_' := by
  induction cs using scan_induction with
  | nil => exact .inl (by rwa [replaceAll_nil] at h)
  | found p rest ih =>
    rw [replaceAll_written_append, List.mem_append] at h
    cases h with
    | inl hreplacement =>
      have hall : (p.replacement.all fun c => p.written.contains c || c == '_') = true := by
        cases p <;> decide
      have hc : c ∈ p.written ∨ c = '_' := by
        simpa using List.all_eq_true.mp hall c hreplacement
      exact hc.imp_left (List.mem_append_left rest)
    | inr hrest => exact (ih hrest).imp_left (List.mem_append_right p.written)
  | other d cs hnone ih =>
    rw [replaceAll_cons_of_none hnone, List.mem_cons] at h
    cases h with
    | inl heq => exact .inl (heq ▸ List.mem_cons_self)
    | inr hmem => exact (ih hmem).imp_left (List.mem_cons_of_mem d)

/-- A replacement is empty or begins a name. -/
theorem isNameStart_of_mem_head?_replacement (p : KnownPrefix) {c : Char}
    (h : c ∈ p.replacement.head?) : isNameStart c = true := by
  have hall : p.replacement.head?.all isNameStart = true := by cases p <;> rfl
  exact (Option.all_eq_true _ _).mp hall c h

/-- **What is left of a pair of names begins as names do**: if its prefix is taken away, the
second of them does. -/
theorem exists_head?_replaceAll_pair {lead name : List Char}
    (hlead : ∃ c ∈ lead.head?, isNameStart c = true)
    (hname : ∃ c ∈ name.head?, isNameStart c = true)
    (hcolon : ':' ∉ lead) (hcolon' : ':' ∉ name) :
    ∃ c ∈ (replaceAll (lead ++ ':' :: name)).head?, isNameStart c = true := by
  cases hfound : leading? (lead ++ ':' :: name) with
  | none =>
    obtain ⟨c, hc, hstart⟩ := hlead
    obtain ⟨more, rfl⟩ := List.head?_eq_some_iff.mp hc
    rw [List.cons_append] at hfound ⊢
    rw [replaceAll_cons_of_none hfound]
    exact ⟨c, rfl, hstart⟩
  | some found =>
    obtain ⟨p, rest⟩ := found
    -- a prefix that stands in front ends at the only colon
    have heq : lead ++ ':' :: name = p.spelling ++ ':' :: rest := by
      rw [eq_append_of_leading? hfound, written, List.append_assoc, List.singleton_append]
    obtain ⟨rfl, -, rfl⟩ := (List.append_cons_inj_of_notMem hcolon hcolon').mp heq
    rw [eq_append_of_leading? hfound, replaceAll_written_append,
      replaceAll_eq_self (absent_of_not_mem hcolon')]
    cases hreplacement : p.replacement with
    | nil => exact hname
    | cons c more =>
      exact ⟨c, rfl, isNameStart_of_mem_head?_replacement p (by rw [hreplacement]; rfl)⟩

/-- **A qualified name stays a name** when its prefix is replaced. -/
theorem IsQualified.isName_replacePrefixes {name : String} (h : IsQualified name) :
    isName (replacePrefixes name) = true := by
  cases h with
  | bare h =>
    obtain ⟨hname, hcolon⟩ := isLocalName_iff.mp h
    rwa [replacePrefixes_eq_self (absent_of_not_mem hcolon)]
  | @pair lead name hlead hname =>
    obtain ⟨hlead, hcolon⟩ := isLocalName_iff.mp hlead
    obtain ⟨hname, hcolon'⟩ := isLocalName_iff.mp hname
    have htext : (lead ++ ":" ++ name).toList = lead.toList ++ ':' :: name.toList := by simp
    have hparts : ∀ c ∈ lead.toList ++ ':' :: name.toList, isNamePart c = true := by
      rw [List.forall_mem_append, List.forall_mem_cons]
      exact ⟨(isName_iff.mp hlead).2, by decide, (isName_iff.mp hname).2⟩
    rw [isName_iff, toList_replacePrefixes, htext]
    refine ⟨exists_head?_replaceAll_pair (isName_iff.mp hlead).1 (isName_iff.mp hname).1
      hcolon hcolon', fun c hc => ?_⟩
    cases mem_of_mem_replaceAll hc with
    | inl hmem => exact hparts c hmem
    | inr heq => exact heq ▸ by decide

/-! ## Trees that stay readable -/

namespace Tree

/-- **Names are qualified**: the tag and those of the attributes. -/
def QualifiedNames (tag : String) (attributes : List Attribute) : Prop :=
  IsQualified tag ∧ ∀ a ∈ attributes, IsQualified a.name

/-- **No two attributes get one name** when prefixes are replaced. -/
def NamesStayApart (_tag : String) (attributes : List Attribute) : Prop :=
  (attributes.map fun a => replacePrefixes a.name).Nodup

/-- A tag that is rewritten can be written, if its names are qualified and stay apart. -/
theorem QualifiedNames.writable_rewrite {tag : String} {attributes : List Attribute}
    (hnames : QualifiedNames tag attributes) (hapart : NamesStayApart tag attributes) :
    Writable (replacePrefixes tag) (attributes.map Attribute.rewrite) where
  isName_tag := hnames.1.isName_replacePrefixes
  isName_name := List.forall_mem_map.mpr fun a ha => (hnames.2 a ha).isName_replacePrefixes
  nodup_names := by
    rw [List.map_map]
    exact hapart

/-- **A rewritten tree can be written**, if names are qualified and stay apart. -/
theorem Everywhere.proper_rewrite {t : Tree} (hnames : t.Everywhere QualifiedNames)
    (hapart : t.Everywhere NamesStayApart) : t.rewrite.Proper := by
  induction hnames with
  | @intro tag attributes children hhere _ ih =>
    obtain ⟨happarthere, hinside⟩ := hapart
    rw [rewrite_eq]
    exact .intro (hhere.writable_rewrite happarthere)
      (List.forall_mem_map.mpr fun child hchild => ih child hchild (hinside child hchild))

/-- **Replacing the prefixes in a text never damages its markup.** The canonical text of a tree
becomes the canonical text of the rewritten tree. If names are qualified and stay apart, it is
read as the rewritten tree, within any limits that the tree respects. -/
theorem replacePrefixes_render (t : Tree) :
    replacePrefixes (String.ofList t.render) = String.ofList t.rewrite.render
      ∧ (t.Everywhere QualifiedNames → t.Everywhere NamesStayApart →
        ∀ limits : Limits, t.Within limits 1 →
          parse limits (replacePrefixes (String.ofList t.render))
            = .ok (some t.rewrite.node)) := by
  have hrender : replacePrefixes (String.ofList t.render) = String.ofList t.rewrite.render := by
    rw [replacePrefixes, String.toList_ofList, replaceAll_render]
  refine ⟨hrender, fun hnames hapart limits hwithin => ?_⟩
  have hwritten : Written [t.rewrite] (String.ofList t.rewrite.render).toList := by
    rw [String.toList_ofList]
    exact written_render (hnames.proper_rewrite hapart)
  rw [hrender]
  exact parse_written_of_within hwritten hwithin.rewrite

/-- A tree with prefixes in its names and in a value that is written with references. -/
def prefixedTree : Tree :=
  ⟨"xsd:element", [⟨"tns:name", "a<b & tns:T"⟩, ⟨"name", "axsd:x"⟩], [⟨"axsd:b", [], []⟩]⟩

/-- **Prefixes in tags, names and values at once**: the text of such a tree is read as the
rewritten tree. -/
theorem replacePrefixes_render_prefixedTree :
    parse {} (replacePrefixes
        "<xsd:element tns:name=\"a&lt;b &amp; tns:T\" name=\"axsd:x\"><axsd:b/></xsd:element>")
      = .ok (some (node
        ⟨"element", [⟨"tns_name", "a<b & tns_T"⟩, ⟨"name", "ax"⟩], [⟨"ab", [], []⟩]⟩)) := by
  have hrender : String.ofList prefixedTree.render
      = "<xsd:element tns:name=\"a&lt;b &amp; tns:T\" name=\"axsd:x\"><axsd:b/></xsd:element>" := by
    cbv
  have hrewrite : prefixedTree.rewrite
      = ⟨"element", [⟨"tns_name", "a<b & tns_T"⟩, ⟨"name", "ax"⟩], [⟨"ab", [], []⟩]⟩ := by
    cbv
  have hpair (lead name : String) (hlead : isLocalName lead = true)
      (hname : isLocalName name = true) : IsQualified (lead ++ ":" ++ name) := .pair hlead hname
  have hnames : prefixedTree.Everywhere QualifiedNames := by
    refine .intro ⟨hpair "xsd" "element" (by decide) (by decide), ?_⟩
      (List.forall_mem_singleton.mpr ?_)
    · rw [List.forall_mem_cons, List.forall_mem_singleton]
      exact ⟨hpair "tns" "name" (by decide) (by decide), .bare (by decide)⟩
    · exact .intro ⟨hpair "axsd" "b" (by decide) (by decide), List.forall_mem_nil _⟩
        (List.forall_mem_nil _)
  have hspelled : (prefixedTree.attributes.map fun a => replacePrefixes a.name)
      = ["tns_name", "name"] := by
    cbv
  have hapart : prefixedTree.Everywhere NamesStayApart := by
    have hhere : (prefixedTree.attributes.map fun a => replacePrefixes a.name).Nodup :=
      hspelled ▸ by decide
    exact .intro hhere (List.forall_mem_singleton.mpr (.intro List.nodup_nil
      (List.forall_mem_nil _)))
  have hwithin : prefixedTree.Within {} 1 := by
    simp [prefixedTree, Within, elements, elementsAll]
  have hread := (replacePrefixes_render prefixedTree).2 hnames hapart {} hwithin
  rwa [hrender, hrewrite] at hread

end Tree

end SchemaTypings.Markup
