import SchemaTypings.Proofs.Markup.Source

/-!
# Reading the constructs of a document

What the reader makes of each construct that a well-formed document writes, whatever follows it.

* A tag is read with its name and its attributes, every value as it is written; no quote or
  bracket in a value ends it early (`SourceTag.eventsFrom_start`, `SourceTag.eventsFrom_empty`).
* A comment, a section of character data, an instruction or a declaration is read to its end and
  is no event (`Aside.eventsFrom_text`).
-/

namespace SchemaTypings.Markup

open Text

/-! ## Raw values -/

/-- **The text that a raw value stands for**; one that cannot be read stands for none. -/
def standsFor (raw : String) : String :=
  match expand raw.toList with
  | .ok value => String.ofList value
  | .error _ => ""

theorem standsFor_eq {raw : String} {value : List Char} (h : expand raw.toList = .ok value) :
    standsFor raw = String.ofList value := by
  unfold standsFor
  rw [h]

/-- An escaped text stands for the text. -/
theorem standsFor_escape (value : String) :
    standsFor (String.ofList (escape value.toList)) = value := by
  have hread : expand (String.ofList (escape value.toList)).toList = .ok value.toList := by
    rw [String.toList_ofList, expand_escape]
  rw [standsFor_eq hread, String.ofList_toList]

/-- A text in which nothing must be escaped is read as it stands. -/
theorem expand_of_not_mem {raw : List Char} (h : ∀ c ∈ raw, c ∉ escapedChars) :
    expand raw = .ok raw := by
  have hself := escape_append_of_not_mem h []
  rw [List.append_nil, escape_nil, List.append_nil] at hself
  have hread := expand_escape raw
  rwa [hself] at hread

theorem standsFor_eq_self {raw : String} (h : ∀ c ∈ raw.toList, c ∉ escapedChars) :
    standsFor raw = raw := by
  rw [standsFor_eq (expand_of_not_mem h), String.ofList_toList]

/-- An attribute with its value read. -/
def Attribute.expanded (a : Attribute) : Attribute :=
  ⟨a.name, standsFor a.value⟩

namespace Tree

mutual

/-- **A tree with its values read.** -/
def expanded : Tree → Tree
  | ⟨tag, attributes, children⟩ => ⟨tag, attributes.map Attribute.expanded, expandedAll children⟩

/-- Several trees with their values read. -/
def expandedAll : List Tree → List Tree
  | [] => []
  | t :: ts => t.expanded :: expandedAll ts

end

theorem expandedAll_eq_map (ts : List Tree) : expandedAll ts = ts.map expanded := by
  induction ts with
  | nil => rfl
  | cons t ts ih => rw [expandedAll, ih, List.map_cons]

end Tree

/-! ## Attributes -/

namespace SourceAttribute

variable {a : SourceAttribute}

/-- **A well-formed attribute is read**, with its key and its raw value, if its name is new. -/
theorem nextAttribute_text_append (h : a.WellFormed) {seen : List (List Char × Nat)}
    (hseen : seen.lookup a.name.toList = none) (offset : Nat) (rest : List Char) :
    ∃ position next, nextAttribute seen ⟨offset, a.text ++ rest⟩
      = .ok (some (⟨a.name.toList, position, a.raw.toList⟩, ⟨next, rest⟩)) := by
  obtain ⟨hgap, haround⟩ := List.forall_mem_append.mp h.isBlank
  obtain ⟨hbefore, hafter⟩ := List.forall_mem_append.mp haround
  obtain ⟨first, more, heq, hfirst, hmore⟩ := exists_cons_of_isName h.isName
  have htext : a.text ++ rest = a.gap ++ first :: (more ++ (a.before ++ '=' :: (a.after
      ++ a.quote :: (a.raw.toList ++ a.quote :: rest)))) := by
    simp [SourceAttribute.text, heq]
  obtain ⟨afterKey, hkey⟩ := readKey_name first hmore hbefore
    (offset + byteLength a.gap + first.utf8Size)
    (a.after ++ a.quote :: (a.raw.toList ++ a.quote :: rest))
  obtain ⟨next, hvalue⟩ := readValue_quoted h.isQuote h.quote_not_mem hafter afterKey rest
  refine ⟨offset + byteLength a.gap, next, ?_⟩
  rw [heq] at hseen ⊢
  rw [nextAttribute, htext, skip_append offset hgap fun d hd => by
    cases hd; exact isBlank_eq_false hfirst]
  simp only [hkey, hseen, hvalue, bind, Except.bind, pure, Except.pure]

/-- **Well-formed attributes are read** in their order, up to the blanks behind them. -/
theorem attributesFrom_flatMap_text {as : List SourceAttribute} (h : ∀ a ∈ as, a.WellFormed)
    (hnodup : (as.map (·.name)).Nodup) {gap : List Char} (hgap : ∀ c ∈ gap, isBlank c = true)
    {seen : List (List Char × Nat)} (hseen : ∀ a ∈ as, seen.lookup a.name.toList = none)
    (offset : Nat) :
    attributesFrom seen ⟨offset, as.flatMap text ++ gap⟩
      = .ok (as.map fun a => a.toAttribute.expanded) := by
  induction as generalizing seen offset with
  | nil =>
    have hskip := skip_append (b := []) offset hgap fun d hd => by cases hd
    rw [List.append_nil] at hskip
    refine attributesFrom_of_none ?_
    rw [List.flatMap_nil, List.nil_append, nextAttribute, hskip]
  | cons a as ih =>
    obtain ⟨ha, has⟩ := List.forall_mem_cons.mp h
    obtain ⟨hnew, hsome⟩ := List.forall_mem_cons.mp hseen
    obtain ⟨hnot, hnodup⟩ := List.nodup_cons.mp hnodup
    obtain ⟨value, hvalue⟩ := ha.readable
    obtain ⟨position, next, hread⟩ := nextAttribute_text_append ha hnew offset
      (as.flatMap text ++ gap)
    -- the key just read is none of those to come
    have hkeys : ∀ b ∈ as, ((a.name.toList, position) :: seen).lookup b.name.toList = none := by
      intro b hb
      have hne : b.name.toList ≠ a.name.toList := fun h =>
        hnot (List.mem_map.mpr ⟨b, hb, String.toList_inj.mp h⟩)
      rw [List.lookup_cons, beq_eq_false_iff_ne.mpr hne]
      exact hsome b hb
    rw [List.flatMap_cons, List.append_assoc, attributesFrom_of_some hread hvalue,
      ih has hnodup hkeys]
    simp only [Except.map, String.ofList_toList, List.map_cons, toAttribute, Attribute.expanded,
      standsFor_eq hvalue]

end SourceAttribute

/-! ## Tags -/

/-- **A stretch of a tag in which no tag ends**: every `>` in it stands in quotes, and the quotes
that open in it are closed in it. -/
def PassedInTag (stretch : List Char) : Prop :=
  ∀ rest, splitTag (stretch ++ rest) = (splitTag rest).map fun p => (stretch ++ p.1, p.2)

namespace PassedInTag

theorem append {a b : List Char} (ha : PassedInTag a) (hb : PassedInTag b) :
    PassedInTag (a ++ b) := by
  intro rest
  rw [List.append_assoc, ha, hb, Option.map_map]
  refine congrArg (Option.map · (splitTag rest)) ?_
  funext p
  rw [Function.comp_apply, List.append_assoc]

/-- A stretch with neither quotes nor closing brackets. -/
theorem of_not_mem {stretch : List Char} (h : ∀ c ∈ ['>', '"', '\''], c ∉ stretch) :
    PassedInTag stretch := by
  intro rest
  rw [splitTag, splitAtClose_append (h '>' (by decide)),
    foldl_quoteStep_none (h '"' (by decide)) (h '\'' (by decide))]

/-- Blanks hold neither quotes nor closing brackets. -/
theorem of_blanks {gap : List Char} (h : ∀ c ∈ gap, isBlank c = true) : PassedInTag gap := by
  refine of_not_mem fun c hc hmem => ?_
  have hblank := h c hmem
  fin_cases hc <;> cases hblank

/-- A name holds neither quotes nor closing brackets. -/
theorem of_isName {name : String} (h : isName name = true) : PassedInTag name.toList := by
  have hsub : ['>', '"', '\''] ⊆ markupChars := by decide
  exact of_not_mem fun c hc => not_mem_of_isName h (hsub hc)

/-- A quoted value may hold closing brackets. -/
theorem quoted {quote : Char} (hquote : quote = '"' ∨ quote = '\'') {raw : List Char}
    (hraw : quote ∉ raw) : PassedInTag (quote :: (raw ++ [quote])) := by
  intro rest
  have hne : quote ≠ '>' := by
    rcases hquote with rfl | rfl <;> decide
  -- inside the quotes no bracket closes the tag
  have hinside : ∀ rest, splitAtClose quoteStep Option.isNone (some quote) (raw ++ quote :: rest)
      = (splitTag rest).map fun p => (raw ++ quote :: p.1, p.2) := by
    intro rest
    clear hne
    induction raw with
    | nil =>
      rw [List.nil_append, splitAtClose, if_neg fun h => Bool.false_ne_true h.2, quoteStep,
        if_pos rfl]
      rfl
    | cons c raw ih =>
      obtain ⟨hc, hraw⟩ := not_or.mp (mt List.mem_cons.mpr hraw)
      rw [List.cons_append, splitAtClose, if_neg fun h => Bool.false_ne_true h.2, quoteStep,
        if_neg (Ne.symm hc), ih hraw, Option.map_map]
      rfl
  rw [List.cons_append, List.append_assoc, List.singleton_append, splitTag, splitAtClose,
    if_neg fun h => hne h.1, quoteStep, if_pos hquote, hinside, Option.map_map]
  refine congrArg (Option.map · (splitTag rest)) ?_
  funext p
  rw [Function.comp_apply, List.cons_append, List.append_assoc, List.singleton_append]

/-- An attribute closes the quotes it opens. -/
theorem attributeText {a : SourceAttribute} (h : a.WellFormed) : PassedInTag a.text := by
  obtain ⟨hgap, haround⟩ := List.forall_mem_append.mp h.isBlank
  obtain ⟨hbefore, hafter⟩ := List.forall_mem_append.mp haround
  have hequals : PassedInTag ['='] := of_not_mem (by decide)
  have htext : a.text = a.gap ++ (a.name.toList ++ (a.before ++ (['='] ++ (a.after
      ++ a.quote :: (a.raw.toList ++ [a.quote]))))) := rfl
  rw [htext]
  exact (of_blanks hgap).append ((of_isName h.isName).append ((of_blanks hbefore).append
    (hequals.append ((of_blanks hafter).append (quoted h.isQuote h.quote_not_mem)))))

/-- **No tag ends inside its text.** -/
theorem tagText {t : SourceTag} (h : t.WellFormed) : PassedInTag t.text := by
  have hattributes : PassedInTag (t.attributes.flatMap SourceAttribute.text) := by
    have hall := h.attributes
    generalize t.attributes = as at hall
    induction as with
    | nil => exact of_not_mem (by decide)
    | cons a as ih =>
      obtain ⟨ha, has⟩ := List.forall_mem_cons.mp hall
      exact (attributeText ha).append (ih has)
  exact (of_isName h.isName).append (hattributes.append (of_blanks h.isBlank))

end PassedInTag

namespace SourceTag

variable {t : SourceTag}

/-- The name of a tag ends before the blanks and attributes that follow it. -/
theorem span_text (h : t.WellFormed) :
    Cursor.span (!isBlank ·) ⟨0, t.text⟩
      = (t.name.toList, ⟨0 + byteLength t.name.toList,
        t.attributes.flatMap SourceAttribute.text ++ t.gap⟩) := by
  refine span_append 0 (fun c hc => ?_) fun c hc => ?_
  · rw [isBlank_eq_false (isNamePart_of_mem h.isName hc)]
    rfl
  · have hblank : isBlank c = true := by
      cases hattributes : t.attributes with
      | nil =>
        rw [hattributes, List.flatMap_nil, List.nil_append] at hc
        exact h.isBlank c (List.mem_of_mem_head? hc)
      | cons a as =>
        have ha := h.attributes a (hattributes ▸ List.mem_cons_self)
        obtain ⟨d, gap, hgap⟩ := List.exists_cons_of_ne_nil ha.gap_ne_nil
        rw [hattributes, List.flatMap_cons, SourceAttribute.text, hgap] at hc
        obtain rfl := Option.some.inj hc
        exact ha.isBlank _ (List.mem_append_left _ (hgap ▸ List.mem_cons_self))
    rw [hblank]
    rfl

theorem tagName_text (h : t.WellFormed) : tagName t.text = t.name.toList :=
  congrArg Prod.fst (span_text h)

/-- **A well-formed tag has the attributes that are written in it**, with their values read. -/
theorem tagAttributes_text (h : t.WellFormed) :
    tagAttributes t.text = .ok (t.attributes.map fun a => a.toAttribute.expanded) := by
  rw [tagAttributes, Cursor.skip, span_text h]
  exact SourceAttribute.attributesFrom_flatMap_text h.attributes h.nodup h.isBlank
    (fun _ _ => rfl) _

/-- The text of a tag does not end in a slash. -/
theorem getLast?_text (h : t.WellFormed) : t.text.getLast? ≠ some '/' := by
  have hattributes : (t.attributes.flatMap SourceAttribute.text).getLast? ≠ some '/' := by
    cases t.attributes.eq_nil_or_concat with
    | inl hnil =>
      rw [hnil]
      exact fun h => by cases h
    | inr hconcat =>
      obtain ⟨front, a, hconcat⟩ := hconcat
      rw [List.concat_eq_append] at hconcat
      have ha := h.attributes a (hconcat ▸ List.mem_append_right _ List.mem_cons_self)
      have htext : t.attributes.flatMap SourceAttribute.text
          = front.flatMap SourceAttribute.text ++ (a.gap ++ (a.name.toList ++ (a.before
            ++ '=' :: (a.after ++ a.quote :: a.raw.toList)))) ++ [a.quote] := by
        simp [hconcat, SourceAttribute.text]
      rw [htext, List.getLast?_concat]
      rcases ha.isQuote with hq | hq <;> rw [hq] <;> decide
  rw [text, List.getLast?_append, List.getLast?_append]
  intro hlast
  rcases Option.or_eq_some_iff.mp hlast with hrest | ⟨-, hname⟩
  · rcases Option.or_eq_some_iff.mp hrest with hgap | ⟨-, hlast⟩
    · exact absurd (h.isBlank _ (List.mem_of_getLast? hgap)) (by decide)
    · exact hattributes hlast
  · exact not_mem_of_isName h.isName (by decide) (List.mem_of_getLast? hname)

/-- A tag gives its event, whether a slash stands behind its text or nothing. -/
theorem eventsFrom_text_append (h : t.WellFormed) {slash : List Char} (hslash : slash ⊆ ['/'])
    (offset : Nat) (rest : List Char) :
    ∃ next, eventsFrom ⟨offset, '<' :: (t.text ++ (slash ++ '>' :: rest))⟩
      = tagEvent (t.text ++ slash) :: eventsFrom ⟨next, rest⟩ := by
  obtain ⟨first, more, heq, hfirst, -⟩ := exists_cons_of_isName h.isName
  have hpassed : PassedInTag (t.text ++ slash) := by
    refine (PassedInTag.tagText h).append (PassedInTag.of_not_mem fun c hc hmem => ?_)
    rw [List.mem_singleton.mp (hslash hmem)] at hc
    exact absurd hc (by decide)
  have hsplit : splitTag (t.text ++ (slash ++ '>' :: rest)) = some (t.text ++ slash, rest) := by
    rw [← List.append_assoc, hpassed, splitTag, splitAtClose, if_pos ⟨rfl, rfl⟩, Option.map_some,
      List.append_nil]
  have htext : t.text ++ (slash ++ '>' :: rest) = first :: (more
      ++ (t.attributes.flatMap SourceAttribute.text ++ t.gap ++ (slash ++ '>' :: rest))) := by
    simp [SourceTag.text, heq]
  obtain ⟨next, hread⟩ := readConstruct_tag hfirst (htext ▸ hsplit) (offset + 1)
  refine ⟨next, ?_⟩
  rw [htext, eventsFrom_construct hread]
  rfl

/-- **A start tag gives its event.** -/
theorem eventsFrom_start (h : t.WellFormed) (offset : Nat) (rest : List Char) :
    ∃ next, eventsFrom ⟨offset, '<' :: (t.text ++ '>' :: rest)⟩
      = .startTag t.text :: eventsFrom ⟨next, rest⟩ := by
  obtain ⟨next, hevents⟩ := eventsFrom_text_append h (List.nil_subset _) offset rest
  rw [List.nil_append, List.append_nil, tagEvent, if_neg (getLast?_text h)] at hevents
  exact ⟨next, hevents⟩

/-- **An empty-element tag gives its event.** -/
theorem eventsFrom_empty (h : t.WellFormed) (offset : Nat) (rest : List Char) :
    ∃ next, eventsFrom ⟨offset, '<' :: (t.text ++ '/' :: '>' :: rest)⟩
      = .emptyTag t.text :: eventsFrom ⟨next, rest⟩ := by
  obtain ⟨next, hevents⟩ := eventsFrom_text_append h (List.Subset.refl ['/']) offset rest
  rw [tagEvent, if_pos List.getLast?_concat, List.dropLast_concat] at hevents
  exact ⟨next, hevents⟩

end SourceTag

/-! ## Constructs that are no elements -/

/-- A construct ends at the first `>` at which it may. -/
theorem splitAtClose_eq {σ : Type} {step : σ → Char → σ} {ends : σ → Bool} {content : List Char}
    {s : σ} (hinside : ∀ front, front ++ ['>'] <+: content → ends (front.foldl step s) = false)
    (hend : ends (content.foldl step s) = true) (rest : List Char) :
    splitAtClose step ends s (content ++ '>' :: rest) = some (content, rest) := by
  induction content generalizing s with
  | nil => rw [List.nil_append, splitAtClose, if_pos ⟨rfl, hend⟩]
  | cons c content ih =>
    have hgoes : ¬ (c = '>' ∧ ends s = true) := by
      rintro ⟨rfl, hends⟩
      have hfirst := hinside [] ⟨content, rfl⟩
      exact Bool.false_ne_true (hfirst.symm.trans hends)
    have hmore := ih (fun front hfront =>
      hinside (c :: front) (List.cons_prefix_cons.mpr ⟨rfl, hfront⟩)) hend
    rw [List.cons_append, splitAtClose, if_neg hgoes, hmore]
    rfl

/-- What ends in a stretch, and is met again behind a beginning that does not hold the stretch,
ends behind the beginning. -/
theorem exists_append_of_append_cons_prefix {lead body front : List Char} {c : Char}
    {rest : List Char} (hc : c ∉ lead) (h : front ++ c :: rest <+: lead ++ body) :
    ∃ more, front = lead ++ more ∧ more ++ c :: rest <+: body := by
  have hfront : front ++ [c] <+: lead ++ body := by
    refine List.IsPrefix.trans ?_ h
    exact ⟨rest, by rw [List.append_assoc, List.singleton_append]⟩
  have hlead : lead <+: front := by
    rcases List.prefix_or_prefix_of_prefix hfront (List.prefix_append lead body) with hin | hin
    · exact absurd (hin.subset (List.mem_append_right _ List.mem_cons_self)) hc
    · rcases List.prefix_concat_iff.mp hin with heq | hin
      · exact absurd (heq ▸ List.mem_append_right _ List.mem_cons_self) hc
      · exact hin
  obtain ⟨more, rfl⟩ := hlead
  refine ⟨more, rfl, ?_⟩
  rwa [List.append_assoc, List.prefix_append_right_inj] at h

/-- A stretch that ends otherwise than a text ends before that. -/
theorem prefix_of_prefix_concat {a b : List Char} {c d : Char} (hne : c ≠ d)
    (h : a ++ [c] <+: b ++ [d]) : a ++ [c] <+: b := by
  rcases List.prefix_concat_iff.mp h with heq | hprefix
  · exact absurd (List.cons_eq_cons.mp (List.append_inj_right' heq rfl)).1 hne
  · exact hprefix

/-- The characters seen so far, the last one first, are the stretch backwards. -/
theorem foldl_seen (stretch : List Char) :
    stretch.foldl (fun seen c => c :: seen) [] = stretch.reverse :=
  List.reverse_eq_iff.mp List.reverse_foldl

/-- A stretch ends in the two characters that were seen last. -/
theorem exists_append_pair_of_take_reverse {stretch : List Char} {c : Char}
    (h : stretch.reverse.take 2 = [c, c]) : ∃ before, stretch = before ++ [c, c] := by
  have hsplit := List.take_append_drop 2 stretch.reverse
  rw [h] at hsplit
  refine ⟨(stretch.reverse.drop 2).reverse, ?_⟩
  rw [← List.reverse_reverse stretch, ← hsplit]
  simp

namespace Special

/-- **A comment ends at the first two hyphens behind its opening ones.** -/
theorem split_comment {body : List Char} (h : ¬ ['-', '-'] <:+: body) (rest : List Char) :
    comment.split (comment.opening ++ (body ++ ['-', '-']) ++ '>' :: rest)
      = some (comment.opening ++ (body ++ ['-', '-']), rest) := by
  refine splitAtClose_eq (fun front hfront => ?_) ?_ rest
  · obtain ⟨more, rfl, hmore⟩ := exists_append_of_append_cons_prefix (by decide) hfront
    have hbody : more ++ ['>'] <+: body := by
      refine prefix_of_prefix_concat (d := '-') (by decide)
        (prefix_of_prefix_concat (d := '-') (by decide) ?_)
      rwa [List.append_assoc]
    rw [foldl_seen, Bool.and_eq_false_imp, decide_eq_false_iff_not]
    intro hseen hlength
    -- four characters are enough for two hyphens behind the opening ones
    have hdashes : more.reverse.take 2 = ['-', '-'] := by
      have htwo : 2 ≤ more.reverse.length := by
        simpa [opening] using hlength
      rw [List.reverse_append, List.take_append_of_le_length htwo] at hseen
      exact beq_iff_eq.mp hseen
    obtain ⟨before, rfl⟩ := exists_append_pair_of_take_reverse hdashes
    refine h (List.IsInfix.trans ?_ hbody.isInfix)
    exact ⟨before, ['>'], rfl⟩
  · rw [foldl_seen]
    simp [opening]

/-- **A section of character data ends at its first closing brackets.** -/
theorem split_cdata {body : List Char} (h : ¬ [']', ']', '>'] <:+: body ++ [']', ']'])
    (rest : List Char) :
    cdata.split (cdata.opening ++ (body ++ [']', ']']) ++ '>' :: rest)
      = some (cdata.opening ++ (body ++ [']', ']']), rest) := by
  refine splitAtClose_eq (fun front hfront => ?_) ?_ rest
  · rw [foldl_seen, beq_eq_false_iff_ne]
    intro hseen
    obtain ⟨before, rfl⟩ := exists_append_pair_of_take_reverse hseen
    rw [List.append_assoc] at hfront
    obtain ⟨more, -, hmore⟩ := exists_append_of_append_cons_prefix (by decide) hfront
    refine h (List.IsInfix.trans ?_ hmore.isInfix)
    exact ⟨more, [], by rw [List.append_nil]; rfl⟩
  · rw [foldl_seen]
    simp [opening]

/-- **A document type ends where no bracket is open.** -/
theorem split_doctype {body : List Char} (hend : openBrackets body = 0)
    (hinside : ∀ front, front ++ ['>'] <+: body → 0 < openBrackets front) (rest : List Char) :
    doctype.split (doctype.opening ++ body ++ '>' :: rest)
      = some (doctype.opening ++ body, rest) := by
  refine splitAtClose_eq (fun front hfront => ?_) ?_ rest
  · obtain ⟨more, rfl, hmore⟩ := exists_append_of_append_cons_prefix (by decide) hfront
    rw [List.foldl_append]
    exact beq_eq_false_iff_ne.mpr (Nat.pos_iff_ne_zero.mp (hinside more hmore))
  · rw [List.foldl_append]
    exact beq_iff_eq.mpr hend

end Special

/-- **A special construct is passed over** if it opens and ends as its kind does. -/
theorem readSpecial_of_split {kind : Special} {c : Char} {content cs rest : List Char}
    (hkind : Special.ofLead? c = some kind) (hsplit : kind.split (c :: cs) = some (content, rest))
    (hopens : kind.opens content = true)
    (hbody : kind = .doctype →
      (content.drop Special.doctype.opening.length).all isBlank = false) (start : Nat) :
    ∃ next, readSpecial start (c :: cs) = .ok ⟨next, rest⟩ := by
  refine ⟨start + 1 + byteLength content + 1, ?_⟩
  rw [readSpecial]
  simp only [hkind, hsplit, hopens, Bool.not_true, if_neg Bool.false_ne_true]
  refine if_neg fun hblank => ?_
  exact Bool.false_ne_true ((hbody hblank.1).symm.trans hblank.2)

/-- An instruction is passed over if something stands in it. -/
theorem readConstruct_instruction {body : List Char} (hne : body ≠ []) (hbody : '>' ∉ body)
    (offset : Nat) (rest : List Char) :
    ∃ next, readConstruct ⟨offset, '?' :: (body ++ '?' :: '>' :: rest)⟩
      = .ok (none, ⟨next, rest⟩) := by
  have hnot : '>' ∉ '?' :: (body ++ ['?']) := by
    simp [hbody]
  have hsplit : splitPlain ('?' :: (body ++ '?' :: '>' :: rest))
      = some ('?' :: (body ++ ['?']), rest) := by
    have hplain := splitPlain_append hnot rest
    rwa [List.cons_append, List.append_assoc] at hplain
  have hlength : 2 < ('?' :: (body ++ ['?'])).length := by
    have hpos := List.length_pos_iff.mpr hne
    simpa using hpos
  refine ⟨offset + byteLength ('?' :: (body ++ ['?'])) + 1, ?_⟩
  rw [readConstruct]
  simp only [enclosed, hsplit]
  exact if_pos ⟨hlength, by rw [← List.cons_append, List.getLast?_concat]⟩

namespace Aside

/-- **A construct that is no element gives no event.** -/
theorem eventsFrom_text {a : Aside} (h : a.WellFormed) (offset : Nat) (rest : List Char) :
    ∃ next, eventsFrom ⟨offset, '<' :: (a.text ++ '>' :: rest)⟩ = eventsFrom ⟨next, rest⟩ := by
  have hspecial : ∀ cs, (∃ next, readSpecial (offset + 1) cs = .ok ⟨next, rest⟩) →
      ∃ next, eventsFrom ⟨offset, '<' :: '!' :: cs⟩ = eventsFrom ⟨next, rest⟩ := by
    rintro cs ⟨next, hread⟩
    refine ⟨next, ?_⟩
    have hconstruct : readConstruct ⟨offset + 1, '!' :: cs⟩ = .ok (none, ⟨next, rest⟩) := by
      rw [readConstruct]
      simp only [hread]
      rfl
    rw [eventsFrom_construct hconstruct]
    rfl
  cases a with
  | comment body =>
    have hsplit := Special.split_comment h rest
    exact hspecial _ (readSpecial_of_split rfl hsplit rfl (fun hkind => by cases hkind) _)
  | characters body =>
    have hsplit := Special.split_cdata h rest
    exact hspecial _ (readSpecial_of_split rfl hsplit rfl (fun hkind => by cases hkind) _)
  | instruction body =>
    obtain ⟨hne, hbody⟩ := h
    obtain ⟨next, hread⟩ := readConstruct_instruction hne hbody (offset + 1) rest
    have htext : (instruction body).text ++ '>' :: rest = '?' :: (body ++ '?' :: '>' :: rest) := by
      simp [Aside.text]
    refine ⟨next, ?_⟩
    rw [htext, eventsFrom_construct hread]
    rfl
  | doctype body =>
    obtain ⟨hblank, hend, hinside⟩ := h
    have hsplit := Special.split_doctype hend hinside rest
    exact hspecial _ (readSpecial_of_split rfl hsplit rfl (fun _ => hblank) _)

end Aside

end SchemaTypings.Markup
