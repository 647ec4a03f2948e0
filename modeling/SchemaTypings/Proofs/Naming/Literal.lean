import SchemaTypings.Naming.Literal
import SchemaTypings.Proofs.PrefixFree
import SchemaTypings.Proofs.Text.Line
import SchemaTypings.Text.Digit

/-!
# Telling identifiers, literals and keys apart

A literal is read character by character, as the language does it: `readLiteralChar` undoes
the escaping of every character, and `readLiteral?` goes on to the closing quote and stops there.
What was quoted is read back, whatever follows it (`readLiteral?_quote_append`), so a literal is
told from what follows it (`prefixFree_quote`).

What a literal denotes is said without the reader as well (`Denotes`), and comes to the same: it is
what is read from it with nothing left (`denotes_iff`). So a quoted value is a literal that denotes
the value and no other (`denotes_quote`, `Denotes.unique`).

Inside a literal every line terminator is escaped, so it does not break the line that it stands in
(`noBreak_quote`). The key of a member is bare or quoted. Either way it does not break the line
(`noBreak_memberKey`) and is told from what follows it in a member's line
(`memberKey_append_cons_inj`).
-/

namespace SchemaTypings.Naming

/-! ## Identifiers -/

theorem exists_cons_of_isIdentifier {name : String} (h : isIdentifier name = true) :
    ∃ c cs, name.toList = c :: cs ∧ isIdentifierStart c = true
      ∧ ∀ d ∈ cs, isIdentifierPart d = true := by
  unfold isIdentifier at h
  cases hname : name.toList with
  | nil => rw [hname] at h; cases h
  | cons c cs =>
    rw [hname, Bool.and_eq_true, List.all_eq_true] at h
    exact ⟨c, cs, rfl, h.1, h.2⟩

/-- What can begin an identifier can continue one. -/
theorem isIdentifierPart_of_start {c : Char} (h : isIdentifierStart c = true) :
    isIdentifierPart c = true := by
  rw [isIdentifierPart, h, Bool.true_or]

/-- An identifier has no other characters than those that can continue one. -/
theorem isIdentifierPart_of_mem {name : String} (h : isIdentifier name = true) :
    ∀ c ∈ name.toList, isIdentifierPart c = true := by
  obtain ⟨c, cs, hname, hstart, hparts⟩ := exists_cons_of_isIdentifier h
  rw [hname]
  exact List.forall_mem_cons.mpr ⟨isIdentifierPart_of_start hstart, hparts⟩

/-- **An identifier is told from what follows it** if that begins with a character that no
identifier has. -/
theorem identifier_append_cons_inj {a b : String} (ha : isIdentifier a = true)
    (hb : isIdentifier b = true) {c d : Char} (hc : isIdentifierPart c = false)
    (hd : isIdentifierPart d = false) {r s : List Char}
    (h : a.toList ++ c :: r = b.toList ++ d :: s) : a = b ∧ c = d ∧ r = s := by
  obtain ⟨hname, hrest⟩ := eq_of_append_cons_eq (isIdentifierPart_of_mem ha)
    (isIdentifierPart_of_mem hb) hc hd h
  exact ⟨String.toList_inj.mp hname, hrest⟩

/-! ## Literals -/

/-- **What an escape stands for**, and what follows it: a line or a space by its letter, a
character by its code, and most characters for themselves. Escapes that begin with a digit and
lines that are continued are left out. -/
def readEscape : List Char → Option (Char × List Char)
  | 'n' :: rest => some ('\n', rest)
  | 'r' :: rest => some ('\r', rest)
  | 't' :: rest => some ('\t', rest)
  | 'b' :: rest => some ('\x08', rest)
  | 'v' :: rest => some ('\x0B', rest)
  | 'f' :: rest => some ('\x0C', rest)
  | 'x' :: a :: b :: rest =>
    (Text.number? 16 Text.hexDigit? [a, b]).map fun code => (Char.ofNat code, rest)
  | 'u' :: a :: b :: c :: d :: rest =>
    (Text.number? 16 Text.hexDigit? [a, b, c, d]).map fun code => (Char.ofNat code, rest)
  | c :: rest =>
    if c.isDigit || c ∈ ['x', 'u', '\n', '\r', '\u2028', '\u2029'] then none else some (c, rest)
  | [] => none

theorem length_of_readEscape {cs rest : List Char} {c : Char} (h : readEscape cs = some (c, rest)) :
    rest.length < cs.length := by
  unfold readEscape at h
  split at h
  case h_7 | h_8 =>
    obtain ⟨_, -, heq⟩ := Option.map_eq_some_iff.mp h
    cases heq
    simp only [List.length_cons]
    omega
  case h_9 =>
    split at h
    · cases h
    · cases h
      exact Nat.lt_succ_self _
  case h_10 => cases h
  all_goals
    cases h
    exact Nat.lt_succ_self _

/-- **One character of a literal** between single quotes, and what follows it; nothing if the
literal ends here or cannot go on. -/
def readLiteralChar : List Char → Option (Char × List Char)
  | '\\' :: rest => readEscape rest
  | c :: rest => if c ∈ ['\'', '\n', '\r'] then none else some (c, rest)
  | [] => none

theorem length_of_readLiteralChar {cs rest : List Char} {c : Char}
    (h : readLiteralChar cs = some (c, rest)) : rest.length < cs.length := by
  unfold readLiteralChar at h
  split at h
  · exact Nat.lt_succ_of_lt (length_of_readEscape h)
  · split at h
    · cases h
    · cases h
      exact Nat.lt_succ_self _
  · cases h

/-- **The inside of a literal**, up to the first quote that is not escaped: the characters that it
denotes, and what follows that quote. -/
def readInside (cs : List Char) : Option (List Char × List Char) :=
  if cs.head? = some '\'' then some ([], cs.tail)
  else
    match _found : readLiteralChar cs with
    | none => none
    | some (c, rest) => (readInside rest).map fun (value, after) => (c :: value, after)
termination_by cs.length
decreasing_by exact length_of_readLiteralChar _found

/-- **A literal at the front of a text**: the value that it denotes, and what follows it. -/
def readLiteral? : List Char → Option (String × List Char)
  | '\'' :: rest => (readInside rest).map fun (value, after) => (String.ofList value, after)
  | _ => none

theorem readInside_quote (rest : List Char) : readInside ('\'' :: rest) = some ([], rest) := by
  rw [readInside]
  exact if_pos rfl

/-- Where no quote stands, a character is read, and then the rest. -/
theorem readInside_of_head?_ne {cs : List Char} (h : cs.head? ≠ some '\'') :
    readInside cs = (readLiteralChar cs).bind fun found =>
      (readInside found.2).map fun inside => (found.1 :: inside.1, inside.2) := by
  rw [readInside, if_neg h]
  split
  · rename_i hnone
    rw [hnone]
    rfl
  · rename_i hfound
    rw [hfound]
    rfl

theorem readInside_of_readLiteralChar {cs rest : List Char} {c : Char}
    (h : readLiteralChar cs = some (c, rest)) :
    readInside cs = (readInside rest).map fun inside => (c :: inside.1, inside.2) := by
  have hopen : cs.head? ≠ some '\'' := by
    intro hhead
    obtain ⟨more, rfl⟩ := List.head?_eq_some_iff.mp hhead
    cases h
  rw [readInside_of_head?_ne hopen, h]
  rfl

/-- Most characters stand for themselves in a literal. -/
theorem quoteChar_of_not_mem {c : Char}
    (h : c ∉ ['\\', '\'', '\n', '\r', '\u2028', '\u2029']) : quoteChar c = [c] := by
  simp only [List.mem_cons, List.not_mem_nil, or_false, not_or] at h
  obtain ⟨hbackslash, hquote, hline, hreturn, hseparator, hparagraph⟩ := h
  rw [quoteChar, if_neg hbackslash, if_neg hquote, if_neg hline, if_neg hreturn,
    if_neg hseparator, if_neg hparagraph]

/-- **Reading takes escaping back**, one character at a time. -/
theorem readLiteralChar_quoteChar_append (c : Char) (rest : List Char) :
    readLiteralChar (quoteChar c ++ rest) = some (c, rest) := by
  by_cases hspecial : c ∈ ['\\', '\'', '\n', '\r', '\u2028', '\u2029']
  · simp only [List.mem_cons, List.not_mem_nil, or_false] at hspecial
    rcases hspecial with rfl | rfl | rfl | rfl | rfl | rfl <;> rfl
  · have hends : c ∉ ['\'', '\n', '\r'] := by
      simp only [List.mem_cons, List.not_mem_nil, or_false, not_or] at hspecial ⊢
      exact ⟨hspecial.2.1, hspecial.2.2.1, hspecial.2.2.2.1⟩
    rw [quoteChar_of_not_mem hspecial, List.singleton_append, readLiteralChar]
    · rw [if_neg hends]
    · exact fun heq => hspecial (heq ▸ List.mem_cons_self)

/-- The characters of a literal, up to the closing quote. -/
theorem toList_quote (value : String) :
    (quote value).toList = '\'' :: (value.toList.flatMap quoteChar ++ ['\'']) :=
  String.toList_ofList

/-- What is escaped is read back up to the quote after it. -/
theorem readInside_flatMap_quoteChar_append (value rest : List Char) :
    readInside (value.flatMap quoteChar ++ '\'' :: rest) = some (value, rest) := by
  induction value with
  | nil => exact readInside_quote rest
  | cons c value ih =>
    have hread := readLiteralChar_quoteChar_append c (value.flatMap quoteChar ++ '\'' :: rest)
    rw [List.flatMap_cons, List.append_assoc, readInside_of_readLiteralChar hread, ih]
    rfl

/-- **A quoted text is read back**, whatever follows it. -/
theorem readLiteral?_quote_append (value : String) (rest : List Char) :
    readLiteral? ((quote value).toList ++ rest) = some (value, rest) := by
  have hinside := readInside_flatMap_quoteChar_append value.toList rest
  rw [toList_quote, List.cons_append, List.append_assoc]
  show (readInside (value.toList.flatMap quoteChar ++ '\'' :: rest)).map _ = _
  rw [hinside, Option.map_some]
  exact congrArg (fun read => some (read, rest)) String.ofList_toList

/-- **A literal is told from what follows it**, whatever that is and whatever it denotes. -/
theorem prefixFree_quote : PrefixFree (fun _ => True) fun value => (quote value).toList :=
  .of_read readLiteral? fun value _ => readLiteral?_quote_append value

/-! ## What literals denote -/

/-- **What the inside of a literal denotes**, up to the closing quote: character by character. -/
inductive LiteralBody : List Char → List Char → Prop where
  /-- The closing quote ends it. -/
  | quote : LiteralBody ['\''] []
  /-- A character is read, and more follows. -/
  | char {cs rest value : List Char} {c : Char} (hread : readLiteralChar cs = some (c, rest))
      (h : LiteralBody rest value) : LiteralBody cs (c :: value)

/-- **A text is a literal that denotes a value.** -/
def Denotes (literal value : String) : Prop :=
  ∃ body, literal.toList = '\'' :: body ∧ LiteralBody body value.toList

/-- What the inside of a literal denotes is what is read from it with nothing left. -/
theorem literalBody_iff {cs value : List Char} :
    LiteralBody cs value ↔ readInside cs = some (value, []) := by
  constructor
  · intro h
    induction h with
    | quote => exact readInside_quote []
    | char hread _ ih =>
      rw [readInside_of_readLiteralChar hread, ih]
      rfl
  · intro h
    induction cs using readInside.induct generalizing value with
    | case1 cs hquote =>
      obtain ⟨rest, rfl⟩ := List.head?_eq_some_iff.mp hquote
      cases (readInside_quote rest).symm.trans h
      exact .quote
    | case2 cs hopen hnone =>
      rw [readInside_of_head?_ne hopen, hnone] at h
      cases h
    | case3 cs hopen c rest hread ih =>
      rw [readInside_of_readLiteralChar hread] at h
      obtain ⟨⟨inner, after⟩, hinner, heq⟩ := Option.map_eq_some_iff.mp h
      cases heq
      exact .char hread (ih hinner)

/-- **What a literal denotes is what is read from it with nothing left.** -/
theorem denotes_iff {literal value : String} :
    Denotes literal value ↔ readLiteral? literal.toList = some (value, []) := by
  constructor
  · rintro ⟨body, htext, hbody⟩
    rw [htext]
    show (readInside body).map _ = _
    rw [literalBody_iff.mp hbody]
    exact congrArg (fun read => some (read, [])) String.ofList_toList
  · intro h
    unfold readLiteral? at h
    split at h
    · rename_i body htext
      obtain ⟨⟨inner, after⟩, hinner, heq⟩ := Option.map_eq_some_iff.mp h
      cases heq
      exact ⟨body, htext, by rw [String.toList_ofList]; exact literalBody_iff.mpr hinner⟩
    · cases h

/-- **A literal denotes one value.** -/
theorem Denotes.unique {literal a b : String} (ha : Denotes literal a) (hb : Denotes literal b) :
    a = b := by
  have hread := (denotes_iff.mp ha).symm.trans (denotes_iff.mp hb)
  exact (Prod.mk.inj (Option.some.inj hread)).1

/-- What is read back whatever follows it is read back with nothing behind it. -/
theorem Denotes.of_read {literal value : String}
    (h : ∀ rest, readLiteral? (literal.toList ++ rest) = some (value, rest)) :
    Denotes literal value := by
  have hread := h []
  rw [List.append_nil] at hread
  exact denotes_iff.mpr hread

/-- **A quoted value denotes the value.** -/
theorem denotes_quote (value : String) : Denotes (quote value) value :=
  .of_read (readLiteral?_quote_append value)

/-- A literal without escapes denotes no character but its own. -/
theorem Denotes.mem_of_mem {literal value : String} (h : Denotes literal value)
    (hescape : '\\' ∉ literal.toList) {c : Char} (hc : c ∈ value.toList) : c ∈ literal.toList := by
  obtain ⟨body, htext, hbody⟩ := h
  rw [htext] at hescape ⊢
  refine List.mem_cons_of_mem _ ?_
  replace hescape := fun hmem => hescape (List.mem_cons_of_mem _ hmem)
  clear htext
  generalize value.toList = chars at hbody hc
  induction hbody with
  | quote => exact absurd hc List.not_mem_nil
  | @char cs rest value d hread _ ih =>
    obtain ⟨rfl, hrest⟩ : cs = d :: rest ∧ '\\' ∉ rest := by
      unfold readLiteralChar at hread
      split at hread
      · exact absurd List.mem_cons_self hescape
      · split at hread
        · cases hread
        · cases hread
          exact ⟨rfl, fun hmem => hescape (List.mem_cons_of_mem _ hmem)⟩
      · cases hread
    rcases List.mem_cons.mp hc with rfl | hc
    · exact List.mem_cons_self
    · exact List.mem_cons_of_mem _ (ih hrest hc)

/-! ## Lines -/

/-- Escaping leaves no line terminator. -/
theorem not_mem_quoteChar {c : Char} (hc : c ∈ lineTerminators) (d : Char) : c ∉ quoteChar d := by
  have hescaped : ∀ d ∈ ['\\', '\'', '\n', '\r', '\u2028', '\u2029'],
      ∀ c ∈ lineTerminators, c ∉ quoteChar d := by decide
  by_cases hd : d ∈ ['\\', '\'', '\n', '\r', '\u2028', '\u2029']
  · exact hescaped d hd c hc
  -- a character without an escape is no line terminator, since each of these has one
  · rw [quoteChar_of_not_mem hd, List.mem_singleton]
    rintro rfl
    exact hd (List.mem_cons_of_mem _ (List.mem_cons_of_mem _ hc))

/-- **A literal does not break the line**, whatever it denotes. -/
theorem noBreak_quote (value : String) : NoBreak (quote value) := by
  intro c hc hmem
  rw [toList_quote, List.mem_cons, List.mem_append, List.mem_flatMap, List.mem_singleton] at hmem
  have hquote : c ≠ '\'' := fun heq => absurd (heq ▸ hc) (by decide)
  rcases hmem with heq | ⟨d, -, hd⟩ | heq
  · exact hquote heq
  · exact not_mem_quoteChar hc d hd
  · exact hquote heq

/-! ## Keys -/

/-- A key is bare, and has no other characters than identifiers have, or it is quoted. -/
theorem memberKey_cases (name : String) :
    (memberKey name = name ∧ ∀ c ∈ name.toList, isIdentifierPart c = true)
      ∨ memberKey name = quote name := by
  by_cases h : (name = "" || isIdentifier name) = true
  · refine .inl ⟨by rw [memberKey, if_pos h], ?_⟩
    rw [Bool.or_eq_true, decide_eq_true_iff] at h
    rcases h with rfl | h
    · exact List.forall_mem_nil _
    · exact isIdentifierPart_of_mem h
  · exact .inr (by rw [memberKey, if_neg h])

/-- A text of identifier characters is no literal, however both go on. -/
theorem append_cons_ne_quote_append {bare : List Char}
    (hbare : ∀ c ∈ bare, isIdentifierPart c = true) {c : Char} (hc : c ≠ '\'') (value : String)
    (r s : List Char) : bare ++ c :: r ≠ (quote value).toList ++ s := by
  rw [toList_quote]
  intro h
  cases bare with
  | nil => exact hc (List.cons_eq_cons.mp h).1
  | cons d bare =>
    have hd : isIdentifierPart d = true := hbare d List.mem_cons_self
    rw [(List.cons_eq_cons.mp h).1] at hd
    exact absurd hd (by decide)

/-- **A key is told from what follows it** if that begins with a character that stands neither
in an identifier nor around a literal. Different names have different keys, the empty name
among them. -/
theorem memberKey_append_cons_inj {a b : String} {c d : Char} (hc : isIdentifierPart c = false)
    (hd : isIdentifierPart d = false) (hcquote : c ≠ '\'') (hdquote : d ≠ '\'')
    {r s : List Char} (h : (memberKey a).toList ++ c :: r = (memberKey b).toList ++ d :: s) :
    a = b ∧ c = d ∧ r = s := by
  rcases memberKey_cases a with ⟨ha, hbare⟩ | ha
  · rcases memberKey_cases b with ⟨hb, hbare'⟩ | hb
    · rw [ha, hb] at h
      obtain ⟨hname, hrest⟩ := eq_of_append_cons_eq hbare hbare' hc hd h
      exact ⟨String.toList_inj.mp hname, hrest⟩
    · rw [ha, hb] at h
      exact absurd h (append_cons_ne_quote_append hbare hcquote b r _)
  · rcases memberKey_cases b with ⟨hb, hbare'⟩ | hb
    · rw [ha, hb] at h
      exact absurd h.symm (append_cons_ne_quote_append hbare' hdquote a s _)
    · rw [ha, hb] at h
      obtain ⟨hname, hrest⟩ := prefixFree_quote trivial trivial h
      exact ⟨hname, List.cons_eq_cons.mp hrest⟩

/-- **A key does not break the line**, whatever the name. -/
theorem noBreak_memberKey (name : String) : NoBreak (memberKey name) := by
  rcases memberKey_cases name with ⟨hbare, hparts⟩ | hquoted
  · have hterminators : ∀ c ∈ lineTerminators, isIdentifierPart c = false := by decide
    rw [hbare]
    intro c hc hmem
    exact Bool.false_ne_true ((hterminators c hc).symm.trans (hparts c hmem))
  · rw [hquoted]
    exact noBreak_quote name

end SchemaTypings.Naming
