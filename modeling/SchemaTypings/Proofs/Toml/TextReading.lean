import SchemaTypings.Proofs.Toml.Grammar

/-!
# Reading TOML texts and keys

The parts of a document that hold no values, read as they are written: spaces, line breaks and
comments are skipped to their end, a text in quotes gives its characters, and a key its parts.
Each lemma takes a relation of the grammar and says what the reader of that part makes of the
text: exactly what was written, and exactly the rest.
-/

namespace SchemaTypings.Toml

open Text

variable {text rest more start after : List Char} {c : Char}

/-! ## Spaces, lines and comments -/

/-- The characters of a line are no line breaks. -/
theorem ne_of_isPlain (h : isPlain c = true) : c ≠ '\n' ∧ c ≠ '\r' := by
  constructor <;> rintro rfl <;> exact absurd h (by decide)

theorem isSpace_iff : isSpace c = true ↔ c = ' ' ∨ c = '\t' := by
  rw [isSpace, Bool.or_eq_true, beq_iff_eq, beq_iff_eq]

/-- Where a run of one kind of characters ends. -/
theorem dropWhile_append_eq {kind : Char → Bool} {run : List Char} (hrun : ∀ c ∈ run, kind c = true)
    (hrest : ∀ c ∈ rest.head?, kind c = false) : (run ++ rest).dropWhile kind = rest := by
  rw [List.dropWhile_append_of_pos hrun]
  cases rest with
  | nil => rfl
  | cons d rest => exact List.dropWhile_cons_of_neg (Bool.eq_false_iff.mp (hrest d rfl))

/-- What such a run holds. -/
theorem takeWhile_append_eq {kind : Char → Bool} {run : List Char} (hrun : ∀ c ∈ run, kind c = true)
    (hrest : ∀ c ∈ rest.head?, kind c = false) : (run ++ rest).takeWhile kind = run := by
  rw [List.takeWhile_append_of_pos hrun]
  cases rest with
  | nil => exact List.append_nil run
  | cons d rest =>
    rw [List.takeWhile_cons_of_neg (Bool.eq_false_iff.mp (hrest d rfl)), List.append_nil]

theorem Spaces.skipSpace_eq (h : Spaces text rest) : skipSpace text = rest := by
  obtain ⟨run, rfl, hrun, hrest⟩ := h
  exact dropWhile_append_eq hrun hrest

theorem Spaces.length_le (h : Spaces text rest) : rest.length ≤ text.length := by
  obtain ⟨run, rfl, -, -⟩ := h
  rw [List.length_append]
  omega

/-- Behind no spaces the text goes on. -/
theorem Spaces.refl (h : ∀ c ∈ text.head?, isSpace c = false) : Spaces text text :=
  ⟨[], rfl, List.forall_mem_nil _, h⟩

theorem LineBreak.lineBreak?_eq (h : LineBreak text rest) : lineBreak? text = some rest := by
  rcases h with rfl | rfl <;> rfl

theorem lineBreak?_eq_none (h : ∀ rest, ¬ LineBreak text rest) : lineBreak? text = none := by
  unfold lineBreak?
  split
  · exact absurd (.inl rfl) (h _)
  · exact absurd (.inr rfl) (h _)
  · rfl

theorem LineBreak.length_lt (h : LineBreak text rest) : rest.length < text.length :=
  length_of_lineBreak? h.lineBreak?_eq

/-- **A line break ends a comment**, and is skipped. -/
theorem LineBreak.skipFiller_eq (h : LineBreak text more) (comment : Bool) :
    skipFiller comment text = skipFiller false more := by
  rcases h with rfl | rfl
  · rw [skipFiller, if_pos rfl]
  · rw [skipFiller, if_neg (by decide), if_pos ⟨rfl, rfl⟩, skipFiller, if_pos rfl]

theorem skipFiller_true_append {body : List Char} (hbody : ∀ c ∈ body, isPlain c = true)
    (text : List Char) : skipFiller true (body ++ text) = skipFiller true text := by
  induction body with
  | nil => rfl
  | cons c body ih =>
    obtain ⟨hc, hbody⟩ := List.forall_mem_cons.mp hbody
    obtain ⟨hline, hreturn⟩ := ne_of_isPlain hc
    rw [List.cons_append, skipFiller, if_neg hline, if_neg fun h => hreturn h.1, if_pos rfl,
      if_pos hc, ih hbody]

theorem skipFiller_space (hc : isSpace c = true) (text : List Char) :
    skipFiller false (c :: text) = skipFiller false text := by
  have hne : c ≠ '\n' ∧ c ≠ '\r' ∧ c ≠ '#' := by rcases isSpace_iff.mp hc with rfl | rfl <;> decide
  rw [skipFiller, if_neg hne.1, if_neg fun h => hne.2.1 h.1, if_neg (by decide), if_neg hne.2.2,
    if_pos hc]

theorem Solid.skipFiller_eq (h : Solid text) : skipFiller false text = text := by
  cases text with
  | nil => rfl
  | cons c text =>
    have hreturn : ¬ (c = '\r' ∧ text.head? = some '\n') := by
      rintro ⟨rfl, hhead⟩
      obtain ⟨more, rfl⟩ := List.head?_eq_some_iff.mp hhead
      exact h.not_break more (.inr rfl)
    rw [skipFiller, if_neg fun hc => h.not_break text (.inl (by rw [hc])), if_neg hreturn,
      if_neg (by decide), if_neg fun hc => h.not_comment (by rw [hc]; rfl),
      if_neg (Bool.eq_false_iff.mp (h.not_space c rfl))]

/-- **What may stand between statements is skipped.** -/
theorem Filler.skipFiller_eq (h : Filler text rest) : skipFiller false text = rest := by
  induction h with
  | done h => exact h.skipFiller_eq
  | space hc _ ih => rw [skipFiller_space hc, ih]
  | newline hbreak _ ih => rw [hbreak.skipFiller_eq, ih]
  | comment hbody hbreak _ ih =>
    rw [skipFiller, if_neg (by decide), if_neg fun h => absurd h.1 (by decide), if_neg (by decide),
      if_pos rfl, skipFiller_true_append hbody, hbreak.skipFiller_eq, ih]
  | @lastComment body hbody =>
    have hend := skipFiller_true_append hbody []
    rw [List.append_nil] at hend
    rw [skipFiller, if_neg (by decide), if_neg fun h => absurd h.1 (by decide), if_neg (by decide),
      if_pos rfl, hend, skipFiller]

theorem Filler.length_le (h : Filler text rest) : rest.length ≤ text.length := by
  induction h with
  | done _ => exact Nat.le_refl _
  | space _ _ ih => exact Nat.le_succ_of_le ih
  | newline hbreak _ ih => exact Nat.le_of_lt (Nat.lt_of_le_of_lt ih hbreak.length_lt)
  | comment _ hbreak _ ih =>
    have := hbreak.length_lt
    rw [List.length_cons, List.length_append]
    omega
  | lastComment _ => exact Nat.zero_le _

/-- Where a line ends, no space stands. -/
theorem BreakOrEnd.head?_ne (h : BreakOrEnd text rest) :
    ∀ c ∈ text.head?, isPlain c = false := by
  rcases h with (rfl | rfl) | ⟨rfl, -⟩
  · rintro c ⟨⟩
    decide
  · rintro c ⟨⟩
    decide
  · exact nofun

/-- **The end of a line is found.** -/
theorem LineEnd.endLine?_eq (h : LineEnd text rest) : endLine? text = some rest := by
  have hend : ∀ {end_ : List Char}, BreakOrEnd end_ rest →
      (if end_.isEmpty then some [] else lineBreak? end_) = some rest := by
    rintro end_ (hbreak | ⟨rfl, rfl⟩)
    · have hne : end_.isEmpty = false := by rcases hbreak with rfl | rfl <;> rfl
      rw [hne, if_neg (by decide), hbreak.lineBreak?_eq]
    · rfl
  cases h with
  | @plain end_ _ hspaces hbreak =>
    have hcomment : ∀ body, end_ ≠ '#' :: body := by
      rintro body rfl
      rcases hbreak with (h | h) | ⟨h, -⟩ <;> cases h
    unfold endLine?
    rw [hspaces.skipSpace_eq]
    dsimp only
    split
    · rename_i body
      exact absurd rfl (hcomment body)
    · exact hend hbreak
  | @comment body end_ _ hspaces hbody hbreak =>
    unfold endLine?
    rw [hspaces.skipSpace_eq]
    show (if ((body ++ end_).dropWhile isPlain).isEmpty then some []
      else lineBreak? ((body ++ end_).dropWhile isPlain)) = _
    rw [dropWhile_append_eq hbody hbreak.head?_ne]
    exact hend hbreak

theorem LineEnd.length_le (h : LineEnd text rest) : rest.length ≤ text.length := by
  have hend : ∀ {end_ : List Char}, BreakOrEnd end_ rest → rest.length ≤ end_.length := by
    rintro end_ (hbreak | ⟨-, rfl⟩)
    · exact Nat.le_of_lt hbreak.length_lt
    · exact Nat.zero_le _
  cases h with
  | plain hspaces hbreak => exact Nat.le_trans (hend hbreak) hspaces.length_le
  | comment hspaces _ hbreak =>
    have := hend hbreak
    have := hspaces.length_le
    rw [List.length_cons, List.length_append] at this
    omega

/-! ## Texts in quotes -/

/-- A character is told by its number. -/
theorem codeEscape?_eq {digits : List Char} {count : Nat} (hlength : digits.length = count)
    (hnumber : number? 16 hexDigit? digits = some c.toNat) (rest : List Char) :
    codeEscape? count (digits ++ rest) = some (c, rest) := by
  have htake : (digits ++ rest).take count = digits := List.take_left' hlength
  have hdrop : (digits ++ rest).drop count = rest := List.drop_left' hlength
  have hvalid : c.toNat.isValidChar := c.valid
  unfold codeEscape?
  rw [htake, hdrop]
  show (number? 16 hexDigit? digits).bind (fun code =>
    if digits.length = count ∧ code.isValidChar then some (Char.ofNat code, rest) else none) = _
  rw [hnumber]
  show (if digits.length = count ∧ c.toNat.isValidChar then some (Char.ofNat c.toNat, rest)
    else none) = _
  rw [if_pos ⟨hlength, hvalid⟩, Char.ofNat_toNat]

theorem shortEscape?_of_mem {letter : Char} (h : (letter, c) ∈ escapeLetters) :
    letter ≠ 'u' ∧ letter ≠ 'U' ∧ shortEscape? letter = some c := by
  have hall : ∀ entry ∈ escapeLetters,
      entry.1 ≠ 'u' ∧ entry.1 ≠ 'U' ∧ shortEscape? entry.1 = some entry.2 := by decide
  exact hall _ h

/-- **An escape is read.** -/
theorem EscapeText.readEscape_eq (h : EscapeText text c rest) :
    readEscape text = some (c, rest) := by
  cases h with
  | letter hletter =>
    obtain ⟨hshort, hlong, heq⟩ := shortEscape?_of_mem hletter
    rw [readEscape, if_neg hshort, if_neg hlong, heq]
    rfl
  | short hlength hnumber => exact codeEscape?_eq hlength hnumber rest
  | long hlength hnumber => exact codeEscape?_eq hlength hnumber rest

/-- **A text in double quotes is read.** -/
theorem BasicBody.readBasic_eq {body : List Char} (h : BasicBody text body rest) :
    readBasic text = some (body, rest) := by
  induction h with
  | close => rw [readBasic]
  | plain hplain hquote hbackslash _ ih =>
    rw [readBasic]
    · rw [if_pos hplain, ih]
      rfl
    · exact hquote
    · exact hbackslash
  | escape hescape _ ih =>
    rw [readBasic]
    split
    · rename_i hnone
      rw [hescape.readEscape_eq] at hnone
      cases hnone
    · rename_i hfound
      rw [hescape.readEscape_eq] at hfound
      cases hfound
      rw [ih]
      rfl

theorem LiteralBody.readLiteral_eq {body : List Char} (h : LiteralBody text body rest) :
    readLiteral text = some (body, rest) := by
  obtain ⟨hbody⟩ := h
  have hparts : ∀ c ∈ body, (isPlain c && c != '\'') = true := fun c hc =>
    Bool.and_eq_true_iff.mpr ⟨(hbody c hc).1, bne_iff_ne.mpr (hbody c hc).2⟩
  have hrest : ∀ c ∈ ('\'' :: rest).head?, (isPlain c && c != '\'') = false := by
    rintro c ⟨⟩
    decide
  unfold readLiteral
  dsimp only
  rw [dropWhile_append_eq hparts hrest, takeWhile_append_eq hparts hrest]
  rfl

theorem Blanks.dropBlanks_eq (h : Blanks text rest) : dropBlanks text = rest := by
  induction h with
  | @done rest hspace hbreak =>
    cases rest with
    | nil => rfl
    | cons c rest =>
      have hhere : ¬ (isSpace c = true ∨ c = '\n') := by
        rintro (hc | rfl)
        · rw [hspace c rfl] at hc
          cases hc
        · exact hbreak rest (.inl rfl)
      have hreturn : ¬ (c = '\r' ∧ rest.head? = some '\n') := by
        rintro ⟨rfl, hhead⟩
        obtain ⟨more, rfl⟩ := List.head?_eq_some_iff.mp hhead
        exact hbreak more (.inr rfl)
      rw [dropBlanks, if_neg hhere, if_neg hreturn]
  | space hc _ ih => rw [dropBlanks, if_pos (.inl hc), ih]
  | newline hbreak _ ih =>
    rcases hbreak with rfl | rfl
    · rw [dropBlanks, if_pos (.inr rfl), ih]
    · rw [dropBlanks, if_neg (by decide), if_pos ⟨rfl, rfl⟩, dropBlanks, if_pos (.inr rfl), ih]

section Long

variable {quote : Char} (hquote : quote ∈ ['"', '\''])

/-- Quotes with something else behind them are the end exactly if there are three of them. -/
theorem tripleEnd?_replicate_append {count : Nat} (hcount : count ≤ 5)
    (htext : text.head? ≠ some quote) :
    tripleEnd? quote (List.replicate count quote ++ text)
      = if 3 ≤ count then some (List.replicate (count - 3) quote, text) else none := by
  have hrun : (List.replicate count quote ++ text).takeWhile (· == quote)
      = List.replicate count quote := by
    refine takeWhile_append_eq (fun c hc => ?_) fun c hc => ?_
    · rw [List.eq_of_mem_replicate hc]
      exact beq_self_eq_true quote
    · exact beq_eq_false_iff_ne.mpr fun heq => htext (heq ▸ hc)
  have hmin :
      min ((List.replicate count quote ++ text).takeWhile (· == quote)).length 5 = count := by
    rw [hrun, List.length_replicate]
    omega
  have hdrop : (List.replicate count quote ++ text).drop count = text :=
    List.drop_left' List.length_replicate
  unfold tripleEnd?
  rw [hmin]
  dsimp only
  rw [hdrop]

theorem tripleEnd?_eq_none (htext : text.head? ≠ some quote) : tripleEnd? quote text = none :=
  show tripleEnd? quote (List.replicate 0 quote ++ text) = none from
    tripleEnd?_replicate_append (Nat.zero_le _) htext

/-- One step of reading a text in triple quotes. -/
theorem readLong_of_piece (piece : List Char) {body : List Char}
    (hend : tripleEnd? quote text = none) (hpiece : longPiece? quote text = some (piece, more))
    (hmore : readLong quote more = some (body, rest)) :
    readLong quote text = some (piece ++ body, rest) := by
  rw [readLong, hend]
  dsimp only
  split
  · rename_i hfound
    rw [hpiece] at hfound
    cases hfound
    rw [hmore]
    rfl
  · rename_i hnone
    rw [hpiece] at hnone
    cases hnone

/-- A character that stands for itself is a piece. -/
theorem longPiece?_plain (hplain : isPlain c = true) (hbackslash : c = '\\' → quote ≠ '"')
    (text : List Char) : longPiece? quote (c :: text) = some ([c], text) := by
  obtain ⟨hline, hreturn⟩ := ne_of_isPlain hplain
  have hbreak : lineBreak? (c :: text) = none := lineBreak?_eq_none fun rest h => by
    rcases h with h | h
    · exact hline (List.cons_eq_cons.mp h).1
    · exact hreturn (List.cons_eq_cons.mp h).1
  unfold longPiece?
  rw [hbreak]
  dsimp only
  rw [if_neg fun h => hbackslash h.1 h.2, if_pos hplain]

include hquote in
/-- Quotes of the text are read one by one. -/
theorem readLong_replicate_append {body : List Char} {count : Nat} (hcount : count ≤ 2)
    (htext : text.head? ≠ some quote) (hread : readLong quote text = some (body, rest)) :
    readLong quote (List.replicate count quote ++ text)
      = some (List.replicate count quote ++ body, rest) := by
  induction count with
  | zero => exact hread
  | succ count ih =>
    have hplain : isPlain quote = true ∧ quote ≠ '\\' := by
      revert hquote
      simp only [List.mem_cons, List.not_mem_nil, or_false]
      rintro (rfl | rfl) <;> decide
    have hend : tripleEnd? quote (List.replicate (count + 1) quote ++ text) = none := by
      rw [tripleEnd?_replicate_append (by omega) htext, if_neg (by omega)]
    refine readLong_of_piece [quote] hend ?_ (ih (by omega))
    exact longPiece?_plain hplain.1 (fun h => absurd h hplain.2) _

/-- A backslash between double quotes takes a line break away or begins an escape. -/
theorem longPiece?_backslash (text : List Char) :
    longPiece? '"' ('\\' :: text)
      = match joinedLine? text with
        | some rest => some ([], rest)
        | none => (readEscape text).map fun (c, rest) => ([c], rest) :=
  rfl

/-- An escape does not take a line break away. -/
theorem EscapeText.joinedLine?_eq (h : EscapeText text c rest) : joinedLine? text = none := by
  have hsolid : ∀ {letter : Char} {tail : List Char}, isSpace letter = false → letter ≠ '\n' →
      letter ≠ '\r' → joinedLine? (letter :: tail) = none := by
    intro letter tail hspace hline hreturn
    have hbreak : lineBreak? (letter :: tail) = none := lineBreak?_eq_none fun rest h => by
      rcases h with h | h
      · exact hline (List.cons_eq_cons.mp h).1
      · exact hreturn (List.cons_eq_cons.mp h).1
    unfold joinedLine?
    rw [List.dropWhile_cons_of_neg (Bool.eq_false_iff.mp hspace), hbreak]
    rfl
  cases h with
  | letter hletter =>
    have hall : ∀ entry ∈ escapeLetters,
        isSpace entry.1 = false ∧ entry.1 ≠ '\n' ∧ entry.1 ≠ '\r' := by decide
    obtain ⟨hspace, hline, hreturn⟩ := hall _ hletter
    exact hsolid hspace hline hreturn
  | short _ _ => exact hsolid (by decide) (by decide) (by decide)
  | long _ _ => exact hsolid (by decide) (by decide) (by decide)

include hquote in
/-- **A text in triple quotes is read.** -/
theorem LongBody.readLong_eq {body : List Char} (h : LongBody quote text body rest) :
    readLong quote text = some (body, rest) := by
  have hbackslash : ∀ text : List Char, ('\\' :: text).head? ≠ some quote := by
    rintro text ⟨⟩
    exact absurd hquote (by decide)
  induction h with
  | close hcount hrest =>
    rw [readLong, tripleEnd?_replicate_append (by omega) hrest, if_pos (by omega)]
    rfl
  | quotes hcount htext _ ih => exact readLong_replicate_append hquote hcount htext ih
  | newline hbreak _ ih =>
    refine readLong_of_piece ['\n'] (tripleEnd?_eq_none ?_) ?_ ih
    · rcases hbreak with rfl | rfl <;> (rintro ⟨⟩; exact absurd hquote (by decide))
    · unfold longPiece?
      rw [hbreak.lineBreak?_eq]
  | plain hplain hne hback _ ih =>
    refine readLong_of_piece [_] (tripleEnd?_eq_none ?_)
      (longPiece?_plain hplain hback _) ih
    exact fun heq => hne (Option.some.inj heq)
  | @escape c text more _ _ hdouble hescape _ ih =>
    refine readLong_of_piece [c] (tripleEnd?_eq_none (hbackslash text)) ?_ ih
    rw [hdouble, longPiece?_backslash, hescape.joinedLine?_eq, hescape.readEscape_eq]
    rfl
  | @joined text end_ more start _ _ hdouble hspaces hbreak hblanks _ ih =>
    have hjoined : joinedLine? text = some start := by
      have hskip : text.dropWhile isSpace = end_ := hspaces.skipSpace_eq
      rw [joinedLine?, hskip, hbreak.lineBreak?_eq, Option.map_some, hblanks.dropBlanks_eq]
    refine readLong_of_piece [] (tripleEnd?_eq_none (hbackslash text)) ?_ ih
    rw [hdouble, longPiece?_backslash, hjoined]

end Long

theorem Blanks.length_le (h : Blanks text rest) : rest.length ≤ text.length := by
  rw [← h.dropBlanks_eq]
  exact length_dropBlanks_le text

theorem EscapeText.length_lt (h : EscapeText text c rest) : rest.length < text.length :=
  length_of_readEscape h.readEscape_eq

theorem LongBody.length_le {quote : Char} {body : List Char} (h : LongBody quote text body rest) :
    rest.length ≤ text.length := by
  induction h with
  | close _ _ =>
    rw [List.length_append]
    omega
  | quotes _ _ _ ih =>
    rw [List.length_append]
    omega
  | newline hbreak _ ih => exact Nat.le_trans ih (Nat.le_of_lt hbreak.length_lt)
  | plain _ _ _ _ ih => exact Nat.le_succ_of_le ih
  | escape _ hescape _ ih =>
    exact Nat.le_succ_of_le (Nat.le_trans ih (Nat.le_of_lt hescape.length_lt))
  | joined _ hspaces hbreak hblanks _ ih =>
    have := hspaces.length_le
    have := hbreak.length_lt
    have := hblanks.length_le
    rw [List.length_cons]
    omega

theorem LeadingBreak.dropLineBreak_eq (h : LeadingBreak text rest) : dropLineBreak text = rest := by
  unfold dropLineBreak
  rcases h with hbreak | ⟨rfl, hnone⟩
  · rw [hbreak.lineBreak?_eq, Option.getD_some]
  · rw [lineBreak?_eq_none hnone, Option.getD_none]

theorem LeadingBreak.length_le (h : LeadingBreak text rest) : rest.length ≤ text.length := by
  rcases h with hbreak | ⟨rfl, -⟩
  · exact Nat.le_of_lt hbreak.length_lt
  · exact Nat.le_refl _

/-- A body that is not empty does not begin with its closing quote. -/
theorem BasicBody.head?_ne {body : List Char} (h : BasicBody text body rest) (hne : body ≠ []) :
    text.head? ≠ some '"' := by
  cases h with
  | close => exact absurd rfl hne
  | plain _ hquote _ _ => exact fun heq => hquote (Option.some.inj heq)
  | escape _ _ => exact nofun

theorem LiteralBody.head?_ne {body : List Char} (h : LiteralBody text body rest) (hne : body ≠ []) :
    text.head? ≠ some '\'' := by
  obtain ⟨hbody⟩ := h
  cases body with
  | nil => exact absurd rfl hne
  | cons c body => exact fun heq => (hbody c List.mem_cons_self).2 (Option.some.inj heq)

/-- What stands between double quotes does not go on with two more. -/
theorem BasicBody.ne_quotes {body : List Char} (h : BasicBody text body rest)
    (hempty : body = [] → rest.head? ≠ some '"') (more : List Char) :
    text ≠ '"' :: '"' :: more := by
  rintro rfl
  by_cases hbody : body = []
  · subst hbody
    cases h
    exact hempty rfl rfl
  · exact h.head?_ne hbody rfl

theorem LiteralBody.ne_quotes {body : List Char} (h : LiteralBody text body rest)
    (hempty : body = [] → rest.head? ≠ some '\'') (more : List Char) :
    text ≠ '\'' :: '\'' :: more := by
  rintro rfl
  by_cases hbody : body = []
  · subst hbody
    generalize hall : '\'' :: '\'' :: more = all at h
    obtain ⟨-⟩ := h
    obtain ⟨-, rfl⟩ := List.cons_eq_cons.mp hall
    exact hempty rfl rfl
  · exact h.head?_ne hbody rfl

/-- **A text in quotes is read**, whatever kind they are. -/
theorem QuotedText.readQuoted_eq {s : String} (h : QuotedText text s rest) :
    readQuoted text = some (s, rest) := by
  cases h with
  | basic h hempty =>
    unfold readQuoted
    split
    case h_1 heq => exact absurd (List.cons_eq_cons.mp heq).2 (h.ne_quotes hempty _)
    case h_2 heq =>
      cases heq
      rw [h.readBasic_eq]
      rfl
    case h_5 hbasic _ _ => exact absurd rfl (hbasic _)
    all_goals
      rename_i heq
      cases heq
  | literal h hempty =>
    unfold readQuoted
    split
    case h_3 heq => exact absurd (List.cons_eq_cons.mp heq).2 (h.ne_quotes hempty _)
    case h_4 heq =>
      cases heq
      rw [h.readLiteral_eq]
      rfl
    case h_5 hliteral => exact absurd rfl (hliteral _)
    all_goals
      rename_i heq
      cases heq
  | @long quote text start body _ hquote hbreak h =>
    have hread := h.readLong_eq hquote
    rw [← hbreak.dropLineBreak_eq] at hread
    have hmap : (readLong quote (dropLineBreak text)).map
          (fun found => (String.ofList found.1, found.2))
        = some (String.ofList body, rest) := by
      rw [hread]
      rfl
    simp only [List.mem_cons, List.not_mem_nil, or_false] at hquote
    rcases hquote with rfl | rfl <;> exact hmap

/-! ## Keys -/

/-- What begins with a character that is no quote is read as a bare part. -/
theorem readKeyPart_of_bare {part : List Char} (hne : part ≠ [])
    (hpart : ∀ c ∈ part, isBareKey c = true) (hrest : ∀ c ∈ rest.head?, isBareKey c = false) :
    readKeyPart (part ++ rest) = some (String.ofList part, rest) := by
  obtain ⟨c, tail, rfl⟩ := List.exists_cons_of_ne_nil hne
  have hquote : c ≠ '"' ∧ c ≠ '\'' := by
    constructor <;> rintro rfl <;> exact absurd (hpart _ List.mem_cons_self) (by decide)
  have htake := takeWhile_append_eq hpart hrest
  have hdrop := dropWhile_append_eq hpart hrest
  unfold readKeyPart
  split
  · rename_i heq
    exact absurd (List.cons_eq_cons.mp heq).1 hquote.1
  · rename_i heq
    exact absurd (List.cons_eq_cons.mp heq).1 hquote.2
  · rw [htake, hdrop]
    rfl

theorem KeyPart.readKeyPart_eq {part : String} (h : KeyPart text part rest) :
    readKeyPart text = some (part, rest) := by
  cases h with
  | bare hne hpart hrest => exact readKeyPart_of_bare hne hpart hrest
  | basic h =>
    show (readBasic _).map _ = _
    rw [h.readBasic_eq]
    rfl
  | literal h =>
    show (readLiteral _).map _ = _
    rw [h.readLiteral_eq]
    rfl

/-- What a part of a key begins with. -/
theorem KeyPart.exists_cons {part : String} (h : KeyPart text part rest) :
    ∃ c tail, text = c :: tail ∧ (isBareKey c = true ∨ c = '"' ∨ c = '\'') := by
  cases h with
  | @bare part rest hne hpart _ =>
    obtain ⟨c, tail, rfl⟩ := List.exists_cons_of_ne_nil hne
    exact ⟨c, tail ++ rest, rfl, .inl (hpart c List.mem_cons_self)⟩
  | basic _ => exact ⟨_, _, rfl, .inr (.inl rfl)⟩
  | literal _ => exact ⟨_, _, rfl, .inr (.inr rfl)⟩

theorem KeyParts.exists_cons {key : List String} (h : KeyParts text key rest) :
    ∃ c tail, text = c :: tail ∧ (isBareKey c = true ∨ c = '"' ∨ c = '\'') := by
  cases h with
  | last hpart _ _ => exact hpart.exists_cons
  | more hpart _ _ _ => exact hpart.exists_cons

theorem BasicBody.length_lt {body : List Char} (h : BasicBody text body rest) :
    rest.length < text.length := by
  induction h with
  | close => exact Nat.lt_succ_self _
  | plain _ _ _ _ ih => exact Nat.lt_succ_of_lt ih
  | escape hescape _ ih => exact Nat.lt_succ_of_lt (Nat.lt_trans ih hescape.length_lt)

theorem LiteralBody.length_lt {body : List Char} (h : LiteralBody text body rest) :
    rest.length < text.length := by
  obtain ⟨-⟩ := h
  rw [List.length_append, List.length_cons]
  omega

theorem KeyPart.length_lt {part : String} (h : KeyPart text part rest) :
    rest.length < text.length := by
  cases h with
  | bare hne _ _ =>
    have := List.length_pos_iff.mpr hne
    rw [List.length_append]
    omega
  | basic h => exact Nat.lt_succ_of_lt h.length_lt
  | literal h => exact Nat.lt_succ_of_lt h.length_lt

theorem KeyParts.length_lt {key : List String} (h : KeyParts text key rest) :
    rest.length < text.length := by
  induction h with
  | last hpart hspaces _ => exact Nat.lt_of_le_of_lt hspaces.length_le hpart.length_lt
  | more hpart hspaces hdotted _ ih =>
    have := hpart.length_lt
    have := hspaces.length_le
    have := hdotted.length_le
    rw [List.length_cons] at *
    omega

theorem KeyParts.ne_nil {key : List String} (h : KeyParts text key rest) : key ≠ [] := by
  cases h with
  | last _ _ _ => exact List.cons_ne_nil _ _
  | more _ _ _ _ => exact List.cons_ne_nil _ _

/-- No space is bare, and no quote is a space. -/
theorem isSpace_eq_false_of_begins (h : isBareKey c = true ∨ c = '"' ∨ c = '\'') :
    isSpace c = false := by
  refine Bool.eq_false_iff.mpr fun hspace => ?_
  rcases isSpace_iff.mp hspace with rfl | rfl <;> revert h <;> decide

/-- **The parts of a key are read**, whatever spaces stand in front of them. -/
theorem KeyParts.readKeyParts_eq {key : List String} (h : KeyParts text key rest)
    {spaced : List Char} (hspaced : Spaces spaced text) :
    readKeyParts spaced = some (key, rest) := by
  induction h generalizing spaced with
  | last hpart hspaces hdot =>
    rw [readKeyParts, hspaced.skipSpace_eq, hpart.readKeyPart_eq]
    dsimp only
    rw [hspaces.skipSpace_eq]
    split
    · exact absurd rfl hdot
    · rfl
  | more hpart hspaces hdotted _ ih =>
    have hshort := Nat.lt_of_le_of_lt hspaces.length_le
      (Nat.lt_of_lt_of_le hpart.length_lt hspaced.length_le)
    rw [readKeyParts, hspaced.skipSpace_eq, hpart.readKeyPart_eq]
    dsimp only
    rw [hspaces.skipSpace_eq]
    show (if _ then (readKeyParts _).map _ else none) = _
    rw [if_pos (Nat.lt_of_succ_lt hshort), ih hdotted]
    rfl

/-- **A key is read.** -/
theorem KeyText.readKey_eq {key : List String} (h : KeyText text key rest) :
    readKey text = some (key, rest) := by
  obtain ⟨start, hspaces, hparts⟩ := h.parts
  rw [readKey, hparts.readKeyParts_eq hspaces]
  exact Option.filter_some_pos (decide_eq_true h.length_le)

theorem KeyText.length_lt {key : List String} (h : KeyText text key rest) :
    rest.length < text.length := by
  obtain ⟨start, hspaces, hparts⟩ := h.parts
  exact Nat.lt_of_lt_of_le hparts.length_lt hspaces.length_le

theorem KeyText.ne_nil {key : List String} (h : KeyText text key rest) : key ≠ [] := by
  obtain ⟨start, -, hparts⟩ := h.parts
  exact hparts.ne_nil

end SchemaTypings.Toml
