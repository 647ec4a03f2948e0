import SchemaTypings.Markup.Event

/-!
# How markup is written

The written form of tags: names, escaped values, attributes between double quotes, and the
three kinds of tags made of them. Nothing is read here. What is said of the written forms is
what a reader has to rely on: which characters do not occur in them, and that every quote
that opens is closed.
-/

namespace SchemaTypings.Markup

/-! ## Names -/

/-- Whether a character is a letter. Beyond ASCII every character counts as one, which takes in
the letters of every script. -/
def isLetter (c : Char) : Bool :=
  c.isAlpha || 0x80 ≤ c.toNat

/-- Whether a character can begin a name. -/
def isNameStart (c : Char) : Bool :=
  isLetter c || c == '_'

/-- Whether a character can stand in a name. -/
def isNamePart (c : Char) : Bool :=
  isNameStart c || c.isDigit || c == '-' || c == '.' || c == ':'

/-- **Whether a text is a name**: a letter or an underscore, and then letters, digits,
underscores, hyphens, points and colons. -/
def isName (name : String) : Bool :=
  match name.toList with
  | [] => false
  | c :: cs => isNameStart c && cs.all isNamePart

/-- The characters that mean something to a reader of markup. -/
def markupChars : List Char :=
  ['<', '>', '/', '!', '?', '=', '"', '\'', '&', ' ', '\t', '\r', '\n']

theorem isNamePart_eq_false {c : Char} (h : c ∈ markupChars) : isNamePart c = false := by
  have hall : markupChars.all (fun c => !isNamePart c) = true := by decide
  exact Bool.not_eq_true' _ ▸ List.all_eq_true.mp hall c h

theorem exists_cons_of_isName {name : String} (h : isName name = true) :
    ∃ c cs, name.toList = c :: cs ∧ isNamePart c = true ∧ cs.all isNamePart = true := by
  unfold isName at h
  split at h
  · cases h
  · rename_i c cs heq
    rw [Bool.and_eq_true] at h
    exact ⟨c, cs, heq, by simp [isNamePart, h.1], h.2⟩

theorem isNamePart_of_mem {name : String} (h : isName name = true) {c : Char}
    (hc : c ∈ name.toList) : isNamePart c = true := by
  obtain ⟨first, more, heq, hfirst, hmore⟩ := exists_cons_of_isName h
  rw [heq] at hc
  cases List.mem_cons.mp hc with
  | inl h => exact h ▸ hfirst
  | inr h => exact List.all_eq_true.mp hmore c h

/-- A name begins as names do, and goes on so. -/
theorem isName_iff {name : String} :
    isName name = true
      ↔ (∃ c ∈ name.toList.head?, isNameStart c = true)
        ∧ ∀ c ∈ name.toList, isNamePart c = true := by
  rw [isName]
  cases name.toList with
  | nil => simp
  | cons c cs =>
    have hpart : isNameStart c = true → isNamePart c = true := fun h => by simp [isNamePart, h]
    simp only [List.head?_cons, Option.mem_some_iff, exists_eq_left', List.forall_mem_cons,
      Bool.and_eq_true, List.all_eq_true]
    exact ⟨fun h => ⟨h.1, hpart h.1, h.2⟩, fun h => ⟨h.1, h.2.2⟩⟩

/-- **A name holds no character that means something to a reader.** -/
theorem not_mem_of_isName {name : String} (h : isName name = true) {c : Char}
    (hc : c ∈ markupChars) : c ∉ name.toList := by
  intro hmem
  have hpart := isNamePart_of_mem h hmem
  rw [isNamePart_eq_false hc] at hpart
  cases hpart

/-! ## Values -/

/-- A character inside a quoted value. -/
def escapeChar (c : Char) : List Char :=
  if c = '&' then ['&', 'a', 'm', 'p', ';']
  else if c = '<' then ['&', 'l', 't', ';']
  else if c = '>' then ['&', 'g', 't', ';']
  else if c = '"' then ['&', 'q', 'u', 'o', 't', ';']
  else if c = '\'' then ['&', 'a', 'p', 'o', 's', ';']
  else [c]

/-- **A value as it is written**: the five characters that have a predefined reference are
written by it, and every other character stands for itself. -/
def escape (value : List Char) : List Char :=
  value.flatMap escapeChar

@[simp] theorem escape_nil : escape [] = [] := rfl

@[simp] theorem escape_cons (c : Char) (cs : List Char) :
    escape (c :: cs) = escapeChar c ++ escape cs :=
  List.flatMap_cons ..

/-- The characters that are not written by themselves. -/
def escapedChars : List Char := ['&', '<', '>', '"', '\'']

theorem escapeChar_of_not_mem {c : Char} (h : c ∉ escapedChars) : escapeChar c = [c] := by
  simp only [escapedChars, List.mem_cons, List.not_mem_nil, or_false, not_or] at h
  simp [escapeChar, h]

/-- **A written value holds no quote and no angle bracket.** -/
theorem not_mem_escape {c : Char} (h : c ∈ ['<', '>', '"', '\'']) (value : List Char) :
    c ∉ escape value := by
  intro hmem
  obtain ⟨d, -, hd⟩ := List.mem_flatMap.mp hmem
  by_cases hesc : d ∈ escapedChars
  · have hall : escapedChars.all (fun d =>
        (escapeChar d).all fun c => !(['<', '>', '"', '\''].contains c)) = true := by decide
    have hnot := List.all_eq_true.mp (List.all_eq_true.mp hall d hesc) c hd
    rw [List.contains_iff_mem.mpr h] at hnot
    cases hnot
  · rw [escapeChar_of_not_mem hesc, List.mem_singleton] at hd
    have hsub : ['<', '>', '"', '\''].Sublist escapedChars := by decide
    exact hesc (hd ▸ hsub.subset h)

/-! ## Tags -/

/-- **An attribute as it is written**, after a space. -/
def attributeText (a : Attribute) : List Char :=
  ' ' :: (a.name.toList ++ '=' :: '"' :: (escape a.value.toList ++ ['"']))

/-- The attributes of a tag as they are written. -/
def attributesText (attributes : List Attribute) : List Char :=
  attributes.flatMap attributeText

/-- **The text of a tag**: its name and its attributes. -/
def tagText (tag : String) (attributes : List Attribute) : List Char :=
  tag.toList ++ attributesText attributes

/-- A start tag. -/
def startText (tag : String) (attributes : List Attribute) : List Char :=
  '<' :: (tagText tag attributes ++ ['>'])

/-- An empty-element tag. -/
def emptyText (tag : String) (attributes : List Attribute) : List Char :=
  '<' :: (tagText tag attributes ++ ['/', '>'])

/-- An end tag. -/
def endText (tag : String) : List Char :=
  '<' :: '/' :: (tag.toList ++ ['>'])

/-- **A tag that can be written**: it has a name, and its attributes have names of their own
each. -/
structure Writable (tag : String) (attributes : List Attribute) : Prop where
  /-- The tag is a name. -/
  isName_tag : isName tag = true
  /-- The attributes are named by names. -/
  isName_name : ∀ a ∈ attributes, isName a.name = true
  /-- No two attributes have one name. -/
  nodup_names : (attributes.map (·.name)).Nodup

instance (tag : String) (attributes : List Attribute) : Decidable (Writable tag attributes) :=
  decidable_of_iff (isName tag = true ∧ (∀ a ∈ attributes, isName a.name = true)
      ∧ (attributes.map (·.name)).Nodup)
    ⟨fun h => ⟨h.1, h.2.1, h.2.2⟩, fun h => ⟨h.isName_tag, h.isName_name, h.nodup_names⟩⟩

@[simp] theorem attributesText_nil : attributesText [] = [] := rfl

@[simp] theorem attributesText_cons (a : Attribute) (as : List Attribute) :
    attributesText (a :: as) = attributeText a ++ attributesText as :=
  List.flatMap_cons ..

/-- An attribute holds no angle bracket. -/
theorem not_mem_attributeText {a : Attribute} (h : isName a.name = true) {c : Char}
    (hc : c ∈ ['<', '>']) : c ∉ attributeText a := by
  have hmarkup : ['<', '>'].Sublist markupChars := by decide
  have hquote : ['<', '>'].Sublist ['<', '>', '"', '\''] := by decide
  have hother : c ≠ ' ' ∧ c ≠ '=' ∧ c ≠ '"' := by
    simp only [List.mem_cons, List.not_mem_nil, or_false] at hc
    rcases hc with rfl | rfl
    · decide
    · decide
  have hname := not_mem_of_isName h (hmarkup.subset hc)
  have hvalue := not_mem_escape (hquote.subset hc) a.value.toList
  simp [attributeText, hname, hvalue, hother]

/-- **The text of a tag holds no angle bracket.** -/
theorem not_mem_tagText {tag : String} {attributes : List Attribute}
    (h : Writable tag attributes) {c : Char} (hc : c ∈ ['<', '>']) :
    c ∉ tagText tag attributes := by
  have hmarkup : ['<', '>'].Sublist markupChars := by decide
  rw [tagText, List.mem_append, not_or]
  refine ⟨not_mem_of_isName h.isName_tag (hmarkup.subset hc), fun hmem => ?_⟩
  obtain ⟨a, ha, hca⟩ := List.mem_flatMap.mp hmem
  exact not_mem_attributeText (h.isName_name a ha) hc hca

/-! ## Quotes -/

/-- A stretch without quotes lies where it begins: outside quotes. -/
theorem foldl_quoteStep_none {cs : List Char} (h₁ : '"' ∉ cs) (h₂ : '\'' ∉ cs) :
    cs.foldl quoteStep none = none := by
  induction cs with
  | nil => rfl
  | cons c cs ih =>
    simp only [List.mem_cons, not_or] at h₁ h₂
    rw [List.foldl_cons, quoteStep, if_neg (by simp [Ne.symm h₁.1, Ne.symm h₂.1])]
    exact ih h₁.2 h₂.2

/-- A stretch without the quote that is open leaves it open. -/
theorem foldl_quoteStep_some {quote : Char} {cs : List Char} (h : quote ∉ cs) :
    cs.foldl quoteStep (some quote) = some quote := by
  induction cs with
  | nil => rfl
  | cons c cs ih =>
    simp only [List.mem_cons, not_or] at h
    rw [List.foldl_cons, quoteStep, if_neg (Ne.symm h.1)]
    exact ih h.2

theorem foldl_quoteStep_name {name : String} (h : isName name = true) :
    name.toList.foldl quoteStep none = none :=
  foldl_quoteStep_none (not_mem_of_isName h (by decide)) (not_mem_of_isName h (by decide))

/-- An attribute closes the quotes it opens. -/
theorem foldl_quoteStep_attributeText {a : Attribute} (h : isName a.name = true) :
    (attributeText a).foldl quoteStep none = none := by
  have hvalue : (escape a.value.toList).foldl quoteStep (some '"') = some '"' :=
    foldl_quoteStep_some (not_mem_escape (by decide) _)
  rw [attributeText, List.foldl_cons, List.foldl_append]
  rw [show quoteStep none ' ' = none from rfl, foldl_quoteStep_name h, List.foldl_cons,
    List.foldl_cons, List.foldl_append]
  rw [show quoteStep (quoteStep none '=') '"' = some '"' from rfl, hvalue]
  rfl

/-- **The text of a tag closes the quotes it opens.** -/
theorem foldl_quoteStep_tagText {tag : String} {attributes : List Attribute}
    (h : Writable tag attributes) : (tagText tag attributes).foldl quoteStep none = none := by
  rw [tagText, List.foldl_append, foldl_quoteStep_name h.isName_tag]
  have hnames := h.isName_name
  clear h
  induction attributes with
  | nil => rfl
  | cons a as ih =>
    rw [attributesText_cons, List.foldl_append,
      foldl_quoteStep_attributeText (hnames a List.mem_cons_self)]
    exact ih fun b hb => hnames b (List.mem_cons_of_mem a hb)

end SchemaTypings.Markup
