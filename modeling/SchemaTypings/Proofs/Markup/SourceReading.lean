import SchemaTypings.Proofs.Markup.SourceConstructs

/-!
# Reading documents as they are written

A well-formed document is read as the tree of its elements, with every raw value replaced by
the text it stands for (`parse_source`): comments, instructions, blanks and the choice of quotes
leave no trace. The two sides meet as they do for `Written`, in what a run of the reader does
over one construct (`attaches_text`).
-/

namespace SchemaTypings.Markup

open Text

/-! ## Runs -/

/-- Character data gives no event, as much of it as there is. -/
theorem eventsFrom_data_append {data : List Char} (h : '<' ∉ data) (offset : Nat)
    (cs : List Char) : ∃ next, eventsFrom ⟨offset, data ++ cs⟩ = eventsFrom ⟨next, cs⟩ := by
  induction data generalizing offset with
  | nil => exact ⟨offset, rfl⟩
  | cons c data ih =>
    obtain ⟨hc, hdata⟩ := not_or.mp (mt List.mem_cons.mpr h)
    obtain ⟨next, hevents⟩ := eventsFrom_cons_of_ne (Ne.symm hc) offset (data ++ cs)
    obtain ⟨last, hrest⟩ := ih hdata next
    exact ⟨last, hevents.trans hrest⟩

/-- **An end tag gives its event**, with the blanks that stand in it. -/
theorem eventsFrom_endTag {name : String} (h : isName name = true) {gap : List Char}
    (hgap : ∀ c ∈ gap, isBlank c = true) (offset : Nat) (rest : List Char) :
    ∃ position next, eventsFrom ⟨offset, '<' :: '/' :: (name.toList ++ (gap ++ '>' :: rest))⟩
      = .endTag (name.toList ++ gap) position :: eventsFrom ⟨next, rest⟩ := by
  have hnot : '>' ∉ name.toList ++ gap := by
    rw [List.mem_append, not_or]
    exact ⟨not_mem_of_isName h (by decide), fun hmem => absurd (hgap _ hmem) (by decide)⟩
  obtain ⟨position, next, hread⟩ := readConstruct_end hnot (offset + 1) rest
  refine ⟨position, next, ?_⟩
  rw [← List.append_assoc, eventsFrom_construct hread]
  rfl

namespace Builder

variable (limits : Limits)

/-- **The element of a well-formed tag**, within the limits. -/
theorem element_sourceTag {t : SourceTag} (h : t.WellFormed) {around : Nat}
    (hdepth : around + 1 ≤ limits.maxDepth)
    (hattributes : t.attributes.length ≤ limits.maxAttributes) :
    element limits around t.text
      = .ok ⟨t.name, t.attributes.map fun a => a.toAttribute.expanded, []⟩ := by
  rw [element, SourceTag.tagAttributes_text h, SourceTag.tagName_text h, String.ofList_toList,
    require_eq_refuse, (Limits.excess?_eq_none_iff limits _ _).mpr hdepth]
  show (limits.require .attributes (t.attributes.map fun a => a.toAttribute.expanded).length
    >>= fun _ => _) = _
  rw [List.length_map, require_eq_refuse,
    (Limits.excess?_eq_none_iff limits _ _).mpr hattributes]
  rfl

/-- **Reading a text attaches trees**: from wherever the reader stands, what it does over the text
is to attach their nodes to what is open, if they are within the limits there. -/
def Attaches (ts : List Tree) (text : List Char) : Prop :=
  ∀ (b : Builder), (∀ t ∈ ts, t.Within limits (b.stack.length + 1)) →
    ∀ (offset : Nat) (rest : List Char), ∃ next,
      (eventsFrom ⟨offset, text ++ rest⟩).foldlM (step limits) b
        = (eventsFrom ⟨next, rest⟩).foldlM (step limits)
          ((ts.map fun t => t.expanded.node).foldl attach b)

/-- Attaching nodes changes nothing about how many elements are open. -/
theorem length_stack_foldl_attach (b : Builder) (ns : List Node) :
    (ns.foldl attach b).stack.length = b.stack.length := by
  induction ns generalizing b with
  | nil => rfl
  | cons n ns ih => rw [List.foldl_cons, ih, length_stack_attach]

variable {limits}

/-- Texts are read one after another. -/
theorem Attaches.append {ts us : List Tree} {text more : List Char} (h : Attaches limits ts text)
    (hmore : Attaches limits us more) : Attaches limits (ts ++ us) (text ++ more) := by
  intro b hwithin offset rest
  obtain ⟨hts, hus⟩ := List.forall_mem_append.mp hwithin
  obtain ⟨next, hfirst⟩ := h b hts offset (more ++ rest)
  obtain ⟨last, hsecond⟩ := hmore ((ts.map fun t => t.expanded.node).foldl attach b)
    (by rwa [length_stack_foldl_attach]) next rest
  refine ⟨last, ?_⟩
  rw [List.append_assoc, hfirst, hsecond, List.map_append, List.foldl_append]

/-- What each construct attaches, several attach one after another. -/
theorem attaches_textAll {ps : List Piece} (h : ∀ p ∈ ps, Attaches limits p.trees p.text) :
    Attaches limits (Piece.treesAll ps) (Piece.textAll ps) := by
  induction ps with
  | nil => exact fun b _ offset rest => ⟨offset, rfl⟩
  | cons p ps ih =>
    obtain ⟨hp, hps⟩ := List.forall_mem_cons.mp h
    exact hp.append (ih hps)

/-- Character data attaches nothing. -/
theorem attaches_data {data : List Char} (h : '<' ∉ data) : Attaches limits [] data := by
  intro b _ offset rest
  obtain ⟨next, hevents⟩ := eventsFrom_data_append h offset rest
  exact ⟨next, by rw [hevents]; rfl⟩

/-- A construct that is no element attaches nothing. -/
theorem attaches_aside {a : Aside} (h : a.WellFormed) :
    Attaches limits [] ('<' :: (a.text ++ ['>'])) := by
  intro b _ offset rest
  obtain ⟨next, hevents⟩ := Aside.eventsFrom_text h offset rest
  refine ⟨next, ?_⟩
  rw [List.cons_append, List.append_assoc, List.singleton_append, hevents]
  rfl

/-- An element of one tag attaches itself. -/
theorem attaches_empty {tag : SourceTag} (h : tag.WellFormed) :
    Attaches limits [⟨tag.name, tag.attributes.map SourceAttribute.toAttribute, []⟩]
      ('<' :: (tag.text ++ ['/', '>'])) := by
  intro b hwithin offset rest
  obtain ⟨next, hevents⟩ := SourceTag.eventsFrom_empty h offset rest
  obtain ⟨⟨hdepth, hattributes⟩, -⟩ :=
    (Tree.within_iff limits _ _).mp (hwithin _ (List.mem_singleton_self _))
  rw [List.length_map] at hattributes
  refine ⟨next, ?_⟩
  rw [List.cons_append, List.append_assoc, List.cons_append, List.singleton_append, hevents,
    List.foldlM_cons, step, element_sourceTag limits h hdepth hattributes, List.map_singleton,
    Tree.expanded, List.map_map]
  rfl

/-- **An element of two tags attaches itself**, once what stands inside is attached to it. -/
theorem attaches_element {tag : SourceTag} (h : tag.WellFormed) {gap : List Char}
    (hgap : ∀ c ∈ gap, isBlank c = true) {children : List Tree} {inside : List Char}
    (hinside : Attaches limits children inside) :
    Attaches limits [⟨tag.name, tag.attributes.map SourceAttribute.toAttribute, children⟩]
      ('<' :: (tag.text
        ++ '>' :: (inside ++ '<' :: '/' :: (tag.name.toList ++ (gap ++ ['>']))))) := by
  intro b hwithin offset rest
  obtain ⟨⟨hdepth, hattributes⟩, hchildren⟩ :=
    (Tree.within_iff limits _ _).mp (hwithin _ (List.mem_singleton_self _))
  rw [List.length_map] at hattributes
  let attributes := tag.attributes.map fun a => a.toAttribute.expanded
  let opened : Builder := { b with stack := ⟨tag.name, attributes, []⟩ :: b.stack }
  let ending := '<' :: '/' :: (tag.name.toList ++ (gap ++ '>' :: rest))
  obtain ⟨first, hstart⟩ := SourceTag.eventsFrom_start h offset (inside ++ ending)
  obtain ⟨middle, hmiddle⟩ := hinside opened hchildren first ending
  obtain ⟨position, last, hend⟩ := eventsFrom_endTag h.isName hgap middle rest
  have htext : '<' :: (tag.text ++ '>' :: (inside ++ '<' :: '/'
      :: (tag.name.toList ++ (gap ++ ['>'])))) ++ rest
      = '<' :: (tag.text ++ '>' :: (inside ++ ending)) := by
    simp [ending]
  -- once what is inside is attached, what is open is the node of the tree
  have hopen : (children.map fun t => t.expanded.node).foldl attach opened
      = ⟨Tree.node ⟨tag.name, attributes, Tree.expandedAll children⟩ :: b.stack, b.root⟩ := by
    rw [foldl_attach, Node.foldl_addChild, Tree.node, Tree.nodes_eq_map, Tree.expandedAll_eq_map,
      List.map_map]
    rfl
  refine ⟨last, ?_⟩
  rw [htext, hstart, List.foldlM_cons, step, element_sourceTag limits h hdepth hattributes]
  show (eventsFrom ⟨first, inside ++ ending⟩).foldlM (step limits) opened = _
  rw [hmiddle, hend, List.foldlM_cons, hopen,
    step_endTag limits (endName_append_blanks h.isName hgap) position (Tree.tag_node _),
    List.map_singleton, Tree.expanded, List.map_map]
  rfl

/-- **The run of the reader over a construct** attaches its element, if it is one. -/
theorem attaches_text {p : Piece} (h : p.WellFormed) : Attaches limits p.trees p.text := by
  induction p using Piece.induction with
  | aside data a =>
    cases h with
    | aside hdata ha => exact (attaches_data hdata).append (attaches_aside ha)
  | empty data tag =>
    cases h with
    | empty hdata htag => exact (attaches_data hdata).append (attaches_empty htag)
  | element data tag content tail gap ih =>
    cases h with
    | element hdata htag hcontent htail hgap =>
      have hinside := (attaches_textAll fun p hp => ih p hp (hcontent p hp)).append
        (attaches_data htail)
      have helement := (attaches_data hdata).append (attaches_element htag hgap hinside)
      rw [List.append_nil, List.nil_append, List.append_assoc] at helement
      exact helement

end Builder

/-- A byte order mark can stand in character data only. -/
theorem dropByteOrderMark_append_cons {data : List Char} (h : '<' ∉ data) (more : List Char) :
    '<' ∉ dropByteOrderMark data
      ∧ dropByteOrderMark (data ++ '<' :: more) = dropByteOrderMark data ++ '<' :: more := by
  cases data with
  | nil => exact ⟨List.not_mem_nil, rfl⟩
  | cons c data =>
    by_cases hbom : c = '\uFEFF'
    · subst hbom
      exact ⟨fun hmem => h (List.mem_cons_of_mem _ hmem), rfl⟩
    · have hkeep : ∀ cs, dropByteOrderMark (c :: cs) = c :: cs := by
        intro cs
        rw [dropByteOrderMark]
        rintro rest heq
        exact hbom (List.cons_eq_cons.mp heq).1
      rw [hkeep, List.cons_append, hkeep]
      exact ⟨h, rfl⟩

/-- What is left without a byte order mark in front is as well-formed and says the same. -/
theorem Piece.exists_text_eq_dropByteOrderMark {p : Piece} (h : p.WellFormed) (rest : List Char) :
    ∃ q : Piece, q.WellFormed ∧ q.trees = p.trees
      ∧ q.text ++ rest = dropByteOrderMark (p.text ++ rest) := by
  cases h with
  | @aside data a hdata ha =>
    obtain ⟨hnot, htext⟩ := dropByteOrderMark_append_cons hdata (a.text ++ ['>'] ++ rest)
    refine ⟨.aside (dropByteOrderMark data) a, .aside hnot ha, rfl, ?_⟩
    rw [Piece.text, Piece.text, List.append_assoc, List.append_assoc]
    exact htext.symm
  | @empty data tag hdata htag =>
    obtain ⟨hnot, htext⟩ := dropByteOrderMark_append_cons hdata (tag.text ++ ['/', '>'] ++ rest)
    refine ⟨.empty (dropByteOrderMark data) tag, .empty hnot htag, rfl, ?_⟩
    rw [Piece.text, Piece.text, List.append_assoc, List.append_assoc]
    exact htext.symm
  | @element data tail gap tag content hdata htag hcontent htail hgap =>
    obtain ⟨hnot, htext⟩ := dropByteOrderMark_append_cons hdata
      (tag.text ++ '>' :: (Piece.textAll content
        ++ (tail ++ '<' :: '/' :: (tag.name.toList ++ (gap ++ ['>'])))) ++ rest)
    refine ⟨.element (dropByteOrderMark data) tag content tail gap,
      .element hnot htag hcontent htail hgap, rfl, ?_⟩
    rw [Piece.text, Piece.text, List.append_assoc, List.append_assoc]
    exact htext.symm

/-- **A well-formed document is read as the tree of its elements**, with their values read, if
that is within the limits. -/
theorem parse_source {limits : Limits} {s : Source} (h : s.WellFormed) {t : Tree}
    (hroot : s.trees = [t]) (hwithin : t.Within limits 1) :
    parse limits s.text = .ok (some t.expanded.node) := by
  obtain ⟨pieces, tail⟩ := s
  cases pieces with
  | nil => cases hroot
  | cons p ps =>
    obtain ⟨hp, hps⟩ := List.forall_mem_cons.mp h.pieces
    obtain ⟨q, hq, htrees, htext⟩ :=
      Piece.exists_text_eq_dropByteOrderMark hp (Piece.textAll ps ++ tail)
    have helements : q.trees ++ Piece.treesAll ps = [t] := by
      rw [htrees]
      exact hroot
    have hread : Builder.Attaches limits [t] (q.text ++ Piece.textAll ps ++ tail) := by
      have hmore : Builder.Attaches limits (Piece.treesAll ps) (Piece.textAll ps) :=
        Builder.attaches_textAll fun p hp => Builder.attaches_text (hps p hp)
      have hpieces := (Builder.attaches_text hq).append hmore
      rw [helements] at hpieces
      exact hpieces.append (Builder.attaches_data h.tail)
    obtain ⟨next, hrun⟩ := hread {} (List.forall_mem_singleton.mpr hwithin) 0 []
    have hevents : events (Source.text ⟨p :: ps, tail⟩)
        = eventsFrom ⟨0, q.text ++ Piece.textAll ps ++ tail ++ []⟩ := by
      rw [events, Source.text, String.toList_ofList, Piece.textAll, List.append_assoc, ← htext,
        List.append_nil, List.append_assoc]
    rw [parse, hevents, hrun, eventsFrom_nil]
    rfl

end SchemaTypings.Markup
