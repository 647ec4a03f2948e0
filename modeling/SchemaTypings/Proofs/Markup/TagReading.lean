import Mathlib.Data.List.TakeWhile
import Mathlib.Tactic.FinCases
import SchemaTypings.Markup.Document
import SchemaTypings.Proofs.Markup.Spelling

/-!
# Reading written tags

The reader of constructs meets the written forms: each of the three kinds of tags gives its
event (`eventsFrom_startText`, `eventsFrom_emptyText`, `eventsFrom_endText`), whatever follows
it, and the element that the tag begins has the attributes that were written
(`tagAttributes_tagText`). The values come back by `expand_escape`.

Every statement leaves the offsets behind a reading open: they matter to messages only.
-/

namespace SchemaTypings.Markup

open Text

/-! ## Moving over a stretch -/

/-- A stretch ends where its characters stop satisfying the condition. -/
theorem span_append {p : Char → Bool} {a b : List Char} (offset : Nat)
    (ha : ∀ c ∈ a, p c = true) (hb : ∀ c ∈ b.head?, p c = false) :
    Cursor.span p ⟨offset, a ++ b⟩ = (a, ⟨offset + byteLength a, b⟩) := by
  have hnone : b.takeWhile p = [] ∧ b.dropWhile p = b := by
    cases b with
    | nil => exact ⟨rfl, rfl⟩
    | cons c cs =>
      have hc := hb c rfl
      exact ⟨by rw [List.takeWhile_cons, hc]; rfl, by rw [List.dropWhile_cons, hc]; rfl⟩
  rw [Cursor.span, List.takeWhile_append_of_pos ha, List.dropWhile_append_of_pos ha, hnone.1,
    hnone.2, List.append_nil]

theorem skip_append {p : Char → Bool} {a b : List Char} (offset : Nat)
    (ha : ∀ c ∈ a, p c = true) (hb : ∀ c ∈ b.head?, p c = false) :
    Cursor.skip p ⟨offset, a ++ b⟩ = ⟨offset + byteLength a, b⟩ :=
  congrArg Prod.snd (span_append offset ha hb)

/-- Nothing is passed where the first character does not satisfy the condition. -/
theorem skip_cons_of_neg {p : Char → Bool} {c : Char} (cs : List Char) (offset : Nat)
    (h : p c = false) : Cursor.skip p ⟨offset, c :: cs⟩ = ⟨offset, c :: cs⟩ := by
  have hskip := skip_append (a := []) (b := c :: cs) offset (p := p) (fun _ h => by cases h)
    fun d hd => by cases hd; exact h
  exact hskip

/-! ## Values -/

theorem expandFrom_nil (offset : Nat) : expandFrom ⟨offset, []⟩ = .ok [] := by
  rw [expandFrom]

/-- A character that begins no reference stands for itself. -/
theorem expandFrom_cons_of_ne {c : Char} (hc : c ≠ '&') (offset : Nat) (cs : List Char) :
    expandFrom ⟨offset, c :: cs⟩
      = (expandFrom ⟨offset + c.utf8Size, cs⟩).map (c :: ·) := by
  rw [expandFrom]
  split
  · rename_i heq
    cases heq
  · rename_i heq
    cases heq
    exact absurd rfl hc
  · rename_i heq
    cases heq
    cases expandFrom ⟨offset + c.utf8Size, cs⟩ with
    | error e => rfl
    | ok tail => rfl

/-- A reference stands for what its name resolves to. -/
theorem expandFrom_reference {name : List Char} {c : Char} (offset : Nat) (cs : List Char)
    (hname : name.all isReferenceName = true)
    (hc : ∀ first last, resolveReference first last name = .ok c) :
    ∃ next, expandFrom ⟨offset, '&' :: (name ++ ';' :: cs)⟩
      = (expandFrom ⟨next, cs⟩).map (c :: ·) := by
  have hspan := span_append (a := name) (b := ';' :: cs) (offset + 1) (List.all_eq_true.mp hname)
    fun d hd => by cases hd; rfl
  have hskip := congrArg Prod.snd hspan
  refine ⟨offset + 1 + byteLength name + 1, ?_⟩
  rw [expandFrom]
  split
  · rename_i heq
    cases heq
  · rename_i rest heq
    cases heq
    dsimp only
    -- what follows the name is the semicolon, so the reference is closed
    split
    · rename_i more hmore
      rw [Cursor.skip, hspan] at hmore
      cases hmore
      rw [Cursor.skip, hspan, hc]
      cases expandFrom ⟨offset + 1 + byteLength name + 1, cs⟩ with
      | error e => rfl
      | ok tail => rfl
    · rename_i hnot
      exact absurd (congrArg Cursor.rest hskip) (hnot cs)
  · rename_i hnot heq
    cases heq
    exact (hnot rfl).elim

/-- The five characters come back from their references. -/
theorem resolveReference_predefined {name : List Char} {c : Char}
    (h : (name, c) ∈ predefined) (first last : Nat) : resolveReference first last name = .ok c := by
  fin_cases h <;> rfl

/-- **A written value is read back**, wherever it stands. -/
theorem expandFrom_escape (value : List Char) (offset : Nat) :
    expandFrom ⟨offset, escape value⟩ = .ok value := by
  induction value generalizing offset with
  | nil => exact expandFrom_nil offset
  | cons c cs ih =>
    rw [escape_cons]
    by_cases hesc : c ∈ escapedChars
    · have hname : ∃ name, (name, c) ∈ predefined ∧ name.all isReferenceName = true
          ∧ escapeChar c = '&' :: (name ++ [';']) := by
        fin_cases hesc
        · exact ⟨['a', 'm', 'p'], by decide, rfl, rfl⟩
        · exact ⟨['l', 't'], by decide, rfl, rfl⟩
        · exact ⟨['g', 't'], by decide, rfl, rfl⟩
        · exact ⟨['q', 'u', 'o', 't'], by decide, rfl, rfl⟩
        · exact ⟨['a', 'p', 'o', 's'], by decide, rfl, rfl⟩
      obtain ⟨name, hpre, hall, htext⟩ := hname
      obtain ⟨next, hnext⟩ := expandFrom_reference offset (escape cs) hall
        (resolveReference_predefined hpre)
      rw [htext, List.cons_append, List.append_assoc, List.singleton_append, hnext, ih]
      rfl
    · have hne : c ≠ '&' := fun h => hesc (h ▸ by decide)
      rw [escapeChar_of_not_mem hesc, List.singleton_append, expandFrom_cons_of_ne hne, ih]
      rfl

/-- **A written value stands for the value.** -/
theorem expand_escape (value : List Char) : expand (escape value) = .ok value :=
  expandFrom_escape value 0

/-! ## Attributes -/

theorem isBlank_eq_false {c : Char} (h : isNamePart c = true) : isBlank c = false := by
  by_contra hblank
  have hmem : c ∈ markupChars := by
    simp only [isBlank, Bool.not_eq_false, Bool.or_eq_true, beq_iff_eq] at hblank
    rcases hblank with ((rfl | rfl) | rfl) | rfl <;> decide
  rw [isNamePart_eq_false hmem] at h
  cases h

theorem isKeyPart_of_isNamePart {c : Char} (h : isNamePart c = true) : isKeyPart c = true := by
  have hne : c ≠ '=' := by
    rintro rfl
    rw [isNamePart_eq_false (by decide)] at h
    cases h
  simp [isKeyPart, hne, isBlank_eq_false h]

/-- A key is read up to its equals sign, in front of which blanks may stand. -/
theorem readKey_name (first : Char) {more : List Char} (hmore : more.all isNamePart = true)
    {blanks : List Char} (hblanks : ∀ c ∈ blanks, isBlank c = true) (offset : Nat)
    (rest : List Char) :
    ∃ next, readKey first ⟨offset, more ++ (blanks ++ '=' :: rest)⟩
      = .ok (first :: more, ⟨next, rest⟩) := by
  have hspan := span_append (p := isKeyPart) (b := blanks ++ '=' :: rest) offset
    (fun c hc => isKeyPart_of_isNamePart (List.all_eq_true.mp hmore c hc)) fun d hd => by
      cases blanks with
      | nil => cases hd; rfl
      | cons c blanks =>
        obtain rfl := Option.some.inj hd
        rw [isKeyPart, hblanks _ List.mem_cons_self, Bool.not_true, Bool.and_false]
  have hskip : Cursor.skip isKeyPart ⟨offset, more ++ (blanks ++ '=' :: rest)⟩
      = ⟨offset + byteLength more, blanks ++ '=' :: rest⟩ := congrArg Prod.snd hspan
  refine ⟨offset + byteLength more + byteLength blanks + 1, ?_⟩
  rw [readKey, hspan, hskip, skip_append _ hblanks fun d hd => by cases hd; rfl]
  rfl

/-- A quoted value is read up to its closing quote; blanks may stand in front of it. -/
theorem readValue_quoted {quote : Char} (hquote : quote = '"' ∨ quote = '\'') {raw : List Char}
    (hraw : quote ∉ raw) {blanks : List Char} (hblanks : ∀ c ∈ blanks, isBlank c = true)
    (offset : Nat) (rest : List Char) :
    ∃ next, readValue ⟨offset, blanks ++ quote :: (raw ++ quote :: rest)⟩
      = .ok (raw, ⟨next, rest⟩) := by
  have hspan := span_append (p := (· != quote)) (a := raw) (b := quote :: rest)
    (offset + byteLength blanks + 1) (fun c hc => bne_iff_ne.mpr fun h => hraw (h ▸ hc))
    fun d hd => by cases hd; exact bne_self_eq_false quote
  have hopening : isBlank quote = false := by
    rcases hquote with rfl | rfl <;> rfl
  refine ⟨offset + byteLength blanks + 1 + byteLength raw + 1, ?_⟩
  rw [readValue, skip_append _ hblanks fun d hd => by cases hd; exact hopening]
  simp only [hquote, if_true, Cursor.skip, hspan]

/-- **A written attribute is read**, with its key and its raw value, if its name is new. -/
theorem nextAttribute_attributeText {a : Attribute} (ha : isName a.name = true)
    {seen : List (List Char × Nat)} (hseen : seen.lookup a.name.toList = none) (offset : Nat)
    (rest : List Char) :
    ∃ position next, nextAttribute seen ⟨offset, attributeText a ++ rest⟩
      = .ok (some (⟨a.name.toList, position, escape a.value.toList⟩, ⟨next, rest⟩)) := by
  obtain ⟨first, more, heq, hfirst, hmore⟩ := exists_cons_of_isName ha
  have htext : attributeText a ++ rest
      = [' '] ++ first :: (more ++ '=' :: '"' :: (escape a.value.toList ++ '"' :: rest)) := by
    simp [attributeText, heq]
  have hskip := skip_append (p := isBlank) (a := [' '])
    (b := first :: (more ++ '=' :: '"' :: (escape a.value.toList ++ '"' :: rest))) offset
    (List.forall_mem_singleton.mpr rfl) fun d hd => by cases hd; exact isBlank_eq_false hfirst
  obtain ⟨afterKey, hkey⟩ := readKey_name first hmore (List.forall_mem_nil _)
    (offset + byteLength [' '] + first.utf8Size) ('"' :: (escape a.value.toList ++ '"' :: rest))
  obtain ⟨next, hvalue⟩ := readValue_quoted (.inl rfl) (not_mem_escape (by decide) a.value.toList)
    (List.forall_mem_nil _) afterKey rest
  rw [List.nil_append] at hkey hvalue
  refine ⟨offset + byteLength [' '], next, ?_⟩
  rw [heq] at hseen ⊢
  rw [nextAttribute, htext, hskip]
  simp only [hkey, hseen, hvalue, bind, Except.bind, pure, Except.pure]

theorem attributesFrom_of_none {seen : List (List Char × Nat)} {c : Cursor}
    (h : nextAttribute seen c = .ok none) : attributesFrom seen c = .ok [] := by
  rw [attributesFrom]
  split
  · rename_i hfound
    rw [h] at hfound
    cases hfound
  · rfl
  · rename_i hfound
    rw [h] at hfound
    cases hfound

theorem attributesFrom_of_some {seen : List (List Char × Nat)} {c next : Cursor}
    {raw : RawAttribute} {value : List Char} (h : nextAttribute seen c = .ok (some (raw, next)))
    (hvalue : expand raw.value = .ok value) :
    attributesFrom seen c
      = (attributesFrom ((raw.name, raw.position) :: seen) next).map
        (⟨String.ofList raw.name, String.ofList value⟩ :: ·) := by
  rw [attributesFrom]
  split
  · rename_i hfound
    rw [h] at hfound
    cases hfound
  · rename_i hfound
    rw [h] at hfound
    cases hfound
  · rename_i hfound
    rw [h] at hfound
    cases hfound
    simp only [hvalue]
    cases attributesFrom ((raw.name, raw.position) :: seen) next with
    | error e => rfl
    | ok more => rfl

/-- **Written attributes are read back** in the order in which they are written. -/
theorem attributesFrom_attributesText {attributes : List Attribute}
    (hname : ∀ a ∈ attributes, isName a.name = true)
    (hnodup : (attributes.map (·.name)).Nodup) {seen : List (List Char × Nat)}
    (hseen : ∀ a ∈ attributes, seen.lookup a.name.toList = none) (offset : Nat) :
    attributesFrom seen ⟨offset, attributesText attributes⟩ = .ok attributes := by
  induction attributes generalizing seen offset with
  | nil => exact attributesFrom_of_none rfl
  | cons a as ih =>
    obtain ⟨ha, has⟩ := List.forall_mem_cons.mp hname
    obtain ⟨hnew, hsome⟩ := List.forall_mem_cons.mp hseen
    obtain ⟨hnot, hnodup⟩ := List.nodup_cons.mp hnodup
    obtain ⟨position, next, hread⟩ :=
      nextAttribute_attributeText ha hnew offset (attributesText as)
    rw [attributesText_cons, attributesFrom_of_some hread (expand_escape _)]
    -- the key just read is none of those to come
    have hkeys : ∀ b ∈ as, ((a.name.toList, position) :: seen).lookup b.name.toList = none := by
      intro b hb
      have hne : b.name.toList ≠ a.name.toList := fun h =>
        hnot (List.mem_map.mpr ⟨b, hb, String.toList_inj.mp h⟩)
      rw [List.lookup_cons, beq_eq_false_iff_ne.mpr hne]
      exact hsome b hb
    rw [ih has hnodup hkeys]
    simp only [Except.map, String.ofList_toList]

/-- The name of a written tag ends before its first attribute. -/
theorem span_tagText {tag : String} {attributes : List Attribute} (h : Writable tag attributes) :
    Cursor.span (!isBlank ·) ⟨0, tagText tag attributes⟩
      = (tag.toList, ⟨0 + byteLength tag.toList, attributesText attributes⟩) := by
  refine span_append 0 (fun c hc => ?_) fun c hc => ?_
  · rw [isBlank_eq_false (isNamePart_of_mem h.isName_tag hc)]
    rfl
  · cases attributes with
    | nil => cases hc
    | cons a as => cases hc; rfl

theorem tagName_tagText {tag : String} {attributes : List Attribute}
    (h : Writable tag attributes) : tagName (tagText tag attributes) = tag.toList :=
  congrArg Prod.fst (span_tagText h)

/-- **A written tag has the attributes that were written.** -/
theorem tagAttributes_tagText {tag : String} {attributes : List Attribute}
    (h : Writable tag attributes) : tagAttributes (tagText tag attributes) = .ok attributes := by
  rw [tagAttributes, Cursor.skip, span_tagText h]
  exact attributesFrom_attributesText h.isName_name h.nodup_names (fun _ _ => rfl) _

/-! ## Constructs -/

/-- The end of a construct lies behind a stretch without closing brackets. -/
theorem splitAtClose_append {σ : Type} {step : σ → Char → σ} {ends : σ → Bool} {a : List Char}
    (h : '>' ∉ a) (s : σ) (b : List Char) :
    splitAtClose step ends s (a ++ b)
      = (splitAtClose step ends (a.foldl step s) b).map fun p => (a ++ p.1, p.2) := by
  induction a generalizing s with
  | nil =>
    rw [List.nil_append, List.foldl_nil]
    cases splitAtClose step ends s b with
    | none => rfl
    | some p => rfl
  | cons c cs ih =>
    simp only [List.mem_cons, not_or] at h
    rw [List.cons_append, splitAtClose, if_neg fun hc => h.1 hc.1.symm, ih h.2, List.foldl_cons,
      Option.map_map]
    rfl

/-- A tag ends at the first closing bracket if its quotes are closed there. -/
theorem splitTag_append {content : List Char} (h : '>' ∉ content)
    (hquotes : content.foldl quoteStep none = none) (rest : List Char) :
    splitTag (content ++ '>' :: rest) = some (content, rest) := by
  rw [splitTag, splitAtClose_append h, hquotes, splitAtClose, if_pos ⟨rfl, rfl⟩, Option.map_some,
    List.append_nil]

/-- An end tag ends at the first closing bracket. -/
theorem splitPlain_append {content : List Char} (h : '>' ∉ content) (rest : List Char) :
    splitPlain (content ++ '>' :: rest) = some (content, rest) := by
  rw [splitPlain, splitAtClose_append h, splitAtClose, if_pos ⟨rfl, rfl⟩, Option.map_some,
    List.append_nil]

/-- **A construct that begins like a name is a tag.** -/
theorem readConstruct_tag {first : Char} {cs content rest : List Char}
    (hfirst : isNamePart first = true) (h : splitTag (first :: cs) = some (content, rest))
    (offset : Nat) :
    ∃ next, readConstruct ⟨offset, first :: cs⟩
      = .ok (some (tagEvent content), ⟨next, rest⟩) := by
  have hne : ∀ c ∈ markupChars, first ≠ c := by
    rintro c hc rfl
    rw [isNamePart_eq_false hc] at hfirst
    cases hfirst
  refine ⟨offset + byteLength content + 1, ?_⟩
  rw [readConstruct]
  split
  · rename_i heq
    cases heq
  · rename_i heq
    cases heq
    exact absurd rfl (hne '!' (by decide))
  · rename_i heq
    cases heq
    exact absurd rfl (hne '/' (by decide))
  · rename_i heq
    cases heq
    exact absurd rfl (hne '?' (by decide))
  · rw [enclosed, h]

/-- **A construct that begins with a slash is an end tag.** -/
theorem readConstruct_end {name : List Char} (h : '>' ∉ name) (offset : Nat) (rest : List Char) :
    ∃ position next, readConstruct ⟨offset, '/' :: (name ++ '>' :: rest)⟩
      = .ok (some (.endTag name position), ⟨next, rest⟩) := by
  have hsplit : splitPlain ('/' :: (name ++ '>' :: rest)) = some ('/' :: name, rest) := by
    rw [← List.cons_append]
    refine splitPlain_append ?_ rest
    rw [List.mem_cons, not_or]
    exact ⟨by decide, h⟩
  let after := offset + byteLength ('/' :: name) + 1
  refine ⟨after - byteLength ('/' :: name), after, ?_⟩
  rw [readConstruct]
  simp only [enclosed, hsplit]
  rfl

/-! ## Events -/

/-- The events from a place on, with the construct that comes next. -/
theorem eventsFrom_construct {offset : Nat} {cs : List Char} {event : Option Event}
    {next : Cursor} (h : readConstruct ⟨offset + 1, cs⟩ = .ok (event, next)) :
    eventsFrom ⟨offset, '<' :: cs⟩ = event.toList ++ eventsFrom next := by
  have hskip := skip_cons_of_neg (p := (· != '<')) (c := '<') cs offset rfl
  rw [eventsFrom]
  split
  · rename_i hrest
    rw [hskip] at hrest
    cases hrest
  · rename_i hrest
    rw [hskip] at hrest
    cases hrest
    split
    · rename_i hread
      rw [hskip, h] at hread
      cases hread
    · rename_i hread
      rw [hskip, h] at hread
      cases hread
      rfl

/-- There are no events where nothing is left. -/
theorem eventsFrom_nil (offset : Nat) : eventsFrom ⟨offset, []⟩ = [] := by
  rw [eventsFrom]
  split
  · rfl
  · rename_i hrest
    cases hrest

/-- **Character data gives no event.** -/
theorem eventsFrom_cons_of_ne {c : Char} (hc : c ≠ '<') (offset : Nat) (cs : List Char) :
    ∃ next, eventsFrom ⟨offset, c :: cs⟩ = eventsFrom ⟨next, cs⟩ := by
  have hpass : (c != '<') = true := bne_iff_ne.mpr hc
  have hskip : Cursor.skip (· != '<') ⟨offset, c :: cs⟩
      = Cursor.skip (· != '<') ⟨offset + c.utf8Size, cs⟩ := by
    simp [Cursor.skip, Cursor.span, hpass, Nat.add_assoc]
  refine ⟨offset + c.utf8Size, ?_⟩
  -- one step on both sides, since they pass to the same place
  conv_lhs => rw [eventsFrom]
  conv_rhs => rw [eventsFrom]
  rw [hskip]

/-- The text of a tag does not end in a slash. -/
theorem getLast?_tagText {tag : String} {attributes : List Attribute}
    (h : Writable tag attributes) : (tagText tag attributes).getLast? ≠ some '/' := by
  have hlast : attributesText attributes = []
      ∨ ∃ front, attributesText attributes = front ++ ['"'] := by
    cases attributes.eq_nil_or_concat with
    | inl hnil => exact .inl (by rw [hnil]; rfl)
    | inr hconcat =>
      obtain ⟨front, a, rfl⟩ := hconcat
      refine .inr ⟨attributesText front
        ++ ' ' :: (a.name.toList ++ '=' :: '"' :: escape a.value.toList), ?_⟩
      simp [attributesText, attributeText]
  rw [tagText]
  rcases hlast with hnil | ⟨front, hfront⟩
  · rw [hnil, List.append_nil]
    exact fun hget => not_mem_of_isName h.isName_tag (by decide) (List.mem_of_getLast? hget)
  · rw [hfront, ← List.append_assoc, List.getLast?_concat]
    decide

/-- What begins a tag begins a name. -/
theorem exists_cons_tagText {tag : String} {attributes : List Attribute}
    (h : Writable tag attributes) :
    ∃ first more, tagText tag attributes = first :: more ∧ isNamePart first = true := by
  obtain ⟨first, more, heq, hfirst, -⟩ := exists_cons_of_isName h.isName_tag
  exact ⟨first, more ++ attributesText attributes, by rw [tagText, heq, List.cons_append], hfirst⟩

/-- **A start tag gives its event.** -/
theorem eventsFrom_startText {tag : String} {attributes : List Attribute}
    (h : Writable tag attributes) (offset : Nat) (rest : List Char) :
    ∃ next, eventsFrom ⟨offset, startText tag attributes ++ rest⟩
      = .startTag (tagText tag attributes) :: eventsFrom ⟨next, rest⟩ := by
  obtain ⟨first, more, heq, hfirst⟩ := exists_cons_tagText h
  have hsplit : splitTag (first :: (more ++ '>' :: rest))
      = some (tagText tag attributes, rest) := by
    rw [← List.cons_append, ← heq]
    exact splitTag_append (not_mem_tagText h (by decide)) (foldl_quoteStep_tagText h) rest
  obtain ⟨next, hread⟩ := readConstruct_tag hfirst hsplit (offset + 1)
  refine ⟨next, ?_⟩
  rw [tagEvent, if_neg (getLast?_tagText h)] at hread
  rw [startText, List.cons_append, List.append_assoc, List.singleton_append, heq,
    List.cons_append, eventsFrom_construct hread, ← heq]
  rfl

/-- **An empty-element tag gives its event.** -/
theorem eventsFrom_emptyText {tag : String} {attributes : List Attribute}
    (h : Writable tag attributes) (offset : Nat) (rest : List Char) :
    ∃ next, eventsFrom ⟨offset, emptyText tag attributes ++ rest⟩
      = .emptyTag (tagText tag attributes) :: eventsFrom ⟨next, rest⟩ := by
  have hnot : '>' ∉ tagText tag attributes ++ ['/'] := by
    rw [List.mem_append, not_or]
    exact ⟨not_mem_tagText h (by decide), by decide⟩
  have hquotes : (tagText tag attributes ++ ['/']).foldl quoteStep none = none := by
    rw [List.foldl_append, foldl_quoteStep_tagText h]
    rfl
  obtain ⟨first, more, heq, hfirst⟩ := exists_cons_tagText h
  have hsplit : splitTag (first :: (more ++ ['/'] ++ '>' :: rest))
      = some (tagText tag attributes ++ ['/'], rest) := by
    rw [← List.cons_append, ← List.cons_append, ← heq]
    exact splitTag_append hnot hquotes rest
  obtain ⟨next, hread⟩ := readConstruct_tag hfirst hsplit (offset + 1)
  refine ⟨next, ?_⟩
  rw [tagEvent, if_pos List.getLast?_concat, List.dropLast_concat] at hread
  rw [emptyText, List.cons_append, show tagText tag attributes ++ ['/', '>'] ++ rest
      = first :: (more ++ ['/'] ++ '>' :: rest) from by rw [heq]; simp,
    eventsFrom_construct hread]
  rfl

/-- **An end tag gives its event.** -/
theorem eventsFrom_endText {tag : String} (h : isName tag = true) (offset : Nat)
    (rest : List Char) :
    ∃ position next, eventsFrom ⟨offset, endText tag ++ rest⟩
      = .endTag tag.toList position :: eventsFrom ⟨next, rest⟩ := by
  obtain ⟨position, next, hread⟩ :=
    readConstruct_end (not_mem_of_isName h (by decide)) (offset + 1) rest
  refine ⟨position, next, ?_⟩
  rw [endText, List.cons_append, List.cons_append, List.append_assoc, List.singleton_append,
    eventsFrom_construct hread]
  rfl

/-- **An end tag names the element that it ends**, whatever blanks stand behind the name. -/
theorem endName_append_blanks {tag : String} (h : isName tag = true) {blanks : List Char}
    (hblanks : ∀ c ∈ blanks, isBlank c = true) :
    Builder.endName (tag.toList ++ blanks) = tag.toList := by
  have hname : tag.toList.reverse.dropWhile isBlank = tag.toList.reverse := by
    cases hrev : tag.toList.reverse with
    | nil => rfl
    | cons c cs =>
      have hmem : c ∈ tag.toList := List.mem_reverse.mp (hrev ▸ List.mem_cons_self)
      rw [List.dropWhile_cons, isBlank_eq_false (isNamePart_of_mem h hmem)]
      rfl
  have htrimmed : ((tag.toList ++ blanks).reverse.dropWhile isBlank).reverse = tag.toList := by
    rw [List.reverse_append, List.dropWhile_append_of_pos fun c hc =>
      hblanks c (List.mem_reverse.mp hc), hname, List.reverse_reverse]
  obtain ⟨first, more, heq, -, -⟩ := exists_cons_of_isName h
  rw [Builder.endName, htrimmed]
  exact if_neg (by rw [heq]; exact Bool.false_ne_true)

/-- The name of a written end tag is the name that was written. -/
theorem endName_of_isName {tag : String} (h : isName tag = true) :
    Builder.endName tag.toList = tag.toList := by
  have hname := endName_append_blanks h (List.forall_mem_nil _)
  rwa [List.append_nil] at hname

end SchemaTypings.Markup
