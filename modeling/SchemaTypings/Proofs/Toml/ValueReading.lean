import SchemaTypings.Proofs.Toml.TableBuilding
import SchemaTypings.Proofs.Toml.TextReading

/-!
# Reading TOML values and documents

What is written as a value is read as that value (`ValueText.reads`), and what is written as a
document is parsed as the table that its statements make (`DocumentText.parse?_eq`).

A value without quotes and brackets is read as one run of characters, of which the reader tries
several forms. A whole decimal number is no date, since it holds no hyphen, no time, since it holds
no colon, and no number with a fraction or an exponent, since nothing but digits is in it
(`scalar?_decimal`).
-/

namespace SchemaTypings.Toml

open Text

variable {text rest more start after run : List Char} {c : Char} {v : Value}

/-! ## Whole numbers -/

theorem decimalDigit?_of_isDigit (h : c.isDigit = true) :
    decimalDigit? c = some (c.toNat - '0'.toNat) :=
  if_pos h

/-- Digits write the number that they write. -/
theorem number?_of_isDigit {digits : List Char} (h : ∀ c ∈ digits, c.isDigit = true) :
    number? 10 decimalDigit? digits = some (Nat.ofDigitChars 10 digits 0) := by
  suffices hall : ∀ start : Nat,
      digits.foldlM (fun number c => (decimalDigit? c).map (number * 10 + ·)) start
        = some (Nat.ofDigitChars 10 digits start) from hall 0
  induction digits with
  | nil => exact fun start => rfl
  | cons c digits ih =>
    intro start
    obtain ⟨hc, htail⟩ := List.forall_mem_cons.mp h
    rw [List.foldlM_cons, decimalDigit?_of_isDigit hc, Nat.ofDigitChars_cons, Nat.mul_comm 10]
    exact ih htail _

/-- A number but zero is not written with a zero in front. -/
theorem head?_toDigits_ne {number : Nat} (h : 0 < number) :
    (Nat.toDigits 10 number).head? ≠ some '0' := by
  induction number using Nat.strongRecOn with
  | ind number ih =>
    by_cases hsmall : number < 10
    · have hdigit : ∀ n < 10, 0 < n → Nat.digitChar n ≠ '0' := by decide
      rw [Nat.toDigits_of_lt_base hsmall]
      exact fun heq => hdigit number hsmall h (Option.some.inj heq)
    · have hpos : 0 < number / 10 := Nat.div_pos (Nat.le_of_not_lt hsmall) (by decide)
      rw [Nat.toDigits_of_base_le (by decide) (Nat.le_of_not_lt hsmall),
        List.head?_append, Option.or_of_isSome (List.isSome_head?.mpr Nat.toDigits_ne_nil)]
      exact ih (number / 10) (Nat.div_lt_self h (by decide)) hpos

section Grouped

variable {digits : List Char} (h : Grouped text digits)
include h

theorem Grouped.exists_cons : ∃ c tail, text = c :: tail ∧ c.isDigit = true := by
  cases h with
  | last hc => exact ⟨_, _, rfl, hc⟩
  | digit hc _ => exact ⟨_, _, rfl, hc⟩
  | group hc _ => exact ⟨_, _, rfl, hc⟩

/-- Digits and underscores are all that there is. -/
theorem Grouped.isDigitPart_of_mem : ∀ c ∈ text, isDigitPart c = true := by
  have hpart : ∀ {c : Char}, c.isDigit = true → isDigitPart c = true := fun hc =>
    Bool.or_eq_true_iff.mpr (.inl hc)
  induction h with
  | last hc => exact List.forall_mem_cons.mpr ⟨hpart hc, List.forall_mem_nil _⟩
  | digit hc _ ih => exact List.forall_mem_cons.mpr ⟨hpart hc, ih⟩
  | group hc _ ih => exact List.forall_mem_cons.mpr ⟨hpart hc, List.forall_mem_cons.mpr ⟨rfl, ih⟩⟩

/-- The digits are found between the underscores. -/
theorem Grouped.ungroup_eq : ungroup Char.isDigit text = some digits := by
  induction h with
  | last hc => exact if_pos hc
  | @digit c text digits hc htail ih =>
    obtain ⟨d, tail, rfl, hd⟩ := htail.exists_cons
    have hne : d ≠ '_' := by
      rintro rfl
      exact absurd hd (by decide)
    rw [ungroup, hc, if_neg (by decide), if_neg hne, ih]
    rfl
  | group hc _ ih =>
    rw [ungroup, hc, if_neg (by decide), if_pos rfl, ih]
    rfl

end Grouped

/-! ### What a decimal number is not -/

theorem eq_cons_of_readChar {expected : Char} (h : readChar expected text = some rest) :
    text = expected :: rest := by
  cases text with
  | nil => cases h
  | cons c text =>
    rw [readChar] at h
    split at h
    · rename_i hc
      rw [hc, Option.some.inj h]
    · cases h

theorem eq_drop_of_readDigits {count lowest highest number : Nat}
    (h : readDigits count lowest highest text = some (number, rest)) : rest = text.drop count := by
  obtain ⟨n, -, h⟩ := Option.bind_eq_some_iff.mp h
  split at h
  · cases h
    rfl
  · cases h

/-- A date holds a hyphen. -/
theorem hyphen_mem_of_readDate (h : readDate text = some rest) : '-' ∈ text := by
  obtain ⟨⟨year, after⟩, hyear, h⟩ := Option.bind_eq_some_iff.mp h
  obtain ⟨month, hhyphen, -⟩ := Option.bind_eq_some_iff.mp h
  have hdrop := eq_drop_of_readDigits hyear
  rw [eq_cons_of_readChar hhyphen] at hdrop
  exact List.mem_of_mem_drop (hdrop ▸ List.mem_cons_self)

/-- A time holds a colon. -/
theorem colon_mem_of_readTime (h : readTime text = some rest) : ':' ∈ text := by
  obtain ⟨⟨hour, after⟩, hhour, h⟩ := Option.bind_eq_some_iff.mp h
  obtain ⟨minute, hcolon, -⟩ := Option.bind_eq_some_iff.mp h
  have hdrop := eq_drop_of_readDigits hhour
  rw [eq_cons_of_readChar hcolon] at hdrop
  exact List.mem_of_mem_drop (hdrop ▸ List.mem_cons_self)

theorem isMoment_eq_false (hhyphen : '-' ∉ text) (hcolon : ':' ∉ text) : isMoment text = false := by
  have hdate : readDate text = none := Option.eq_none_iff_forall_not_mem.mpr fun rest h =>
    hhyphen (hyphen_mem_of_readDate h)
  have htime : readTime text = none := Option.eq_none_iff_forall_not_mem.mpr fun rest h =>
    hcolon (colon_mem_of_readTime h)
  rw [isMoment, hdate]
  dsimp only
  rw [htime]
  rfl

section Decimal

variable {sign digits : List Char} {number : Nat} (hsign : sign = [] ∨ sign = ['+'])
  (hdigits : Grouped digits (Nat.toDigits 10 number))
include hsign hdigits

/-- The characters of a decimal number. -/
theorem mem_decimal (hc : c ∈ sign ++ digits) : c = '+' ∨ isDigitPart c = true := by
  rcases List.mem_append.mp hc with hc | hc
  · rcases hsign with rfl | rfl
    · exact absurd hc List.not_mem_nil
    · exact .inl (List.mem_singleton.mp hc)
  · exact .inr (hdigits.isDigitPart_of_mem c hc)

theorem splitSign_decimal : splitSign (sign ++ digits) = (false, digits) := by
  obtain ⟨c, tail, rfl, hc⟩ := hdigits.exists_cons
  rcases hsign with rfl | rfl
  · rw [List.nil_append]
    unfold splitSign
    split
    · rename_i heq
      obtain ⟨rfl, -⟩ := List.cons_eq_cons.mp heq
      exact absurd hc (by decide)
    · rename_i heq
      obtain ⟨rfl, -⟩ := List.cons_eq_cons.mp heq
      exact absurd hc (by decide)
    · rfl
  · rfl

theorem isReal_decimal : isReal (sign ++ digits) = false := by
  obtain ⟨c, tail, hcons, hc⟩ := hdigits.exists_cons
  have hword : ¬ (digits = ['i', 'n', 'f'] ∨ digits = ['n', 'a', 'n']) := by
    rintro (h | h)
    · obtain ⟨rfl, -⟩ := List.cons_eq_cons.mp (hcons.symm.trans h)
      exact absurd hc (by decide)
    · obtain ⟨rfl, -⟩ := List.cons_eq_cons.mp (hcons.symm.trans h)
      exact absurd hc (by decide)
  have hdrop : digits.dropWhile isDigitPart = [] := by
    have hall : (digits ++ []).dropWhile isDigitPart = [] :=
      dropWhile_append_eq hdigits.isDigitPart_of_mem nofun
    rwa [List.append_nil] at hall
  unfold isReal
  rw [splitSign_decimal hsign hdigits]
  dsimp only
  rw [if_neg hword, hdrop]
  cases decimalDigits? (digits.takeWhile isDigitPart) <;> rfl

theorem integer?_decimal (hnumber : number ≤ maxInteger) :
    integer? (sign ++ digits) = some (number : Int) := by
  have hfirst : (decimalDigits? digits).bind (number? 10 decimalDigit?) = some number := by
    have hzero : Nat.toDigits 10 number = ['0'] ∨ (Nat.toDigits 10 number).head? ≠ some '0' := by
      rcases Nat.eq_zero_or_pos number with rfl | hpos
      · exact .inl rfl
      · exact .inr (head?_toDigits_ne hpos)
    have hkeep : decimalDigits? digits = some (Nat.toDigits 10 number) := by
      rw [decimalDigits?, hdigits.ungroup_eq]
      exact Option.filter_some_pos (decide_eq_true hzero)
    have hdecimal : ∀ c ∈ Nat.toDigits 10 number, c.isDigit = true := fun c hc =>
      Nat.isDigit_of_mem_toDigits (by decide) (by decide) hc
    rw [hkeep, Option.bind_some, number?_of_isDigit hdecimal, Nat.ofDigitChars_ten_toDigits]
  have hletter : ∀ letter ∈ ['x', 'o', 'b'], ∀ more, sign ++ digits ≠ '0' :: letter :: more := by
    intro letter hletter more heq
    have hmem : letter ∈ sign ++ digits := heq ▸ List.mem_cons_of_mem _ List.mem_cons_self
    rcases mem_decimal hsign hdigits hmem with rfl | hpart
    · exact absurd hletter (by decide)
    · revert hletter
      simp only [List.mem_cons, List.not_mem_nil, or_false]
      rintro (rfl | rfl | rfl) <;> exact absurd hpart (by decide)
  unfold integer?
  split
  · rename_i heq
    exact absurd heq (hletter 'x' (by decide) _)
  · rename_i heq
    exact absurd heq (hletter 'o' (by decide) _)
  · rename_i heq
    exact absurd heq (hletter 'b' (by decide) _)
  · rw [splitSign_decimal hsign hdigits]
    dsimp only
    rw [hfirst]
    exact if_pos hnumber

/-- **A whole decimal number is read as that number** and as nothing else. -/
theorem scalar?_decimal (hnumber : number ≤ maxInteger) :
    scalar? (sign ++ digits) = some (.integer number) := by
  have hnot : ∀ c : Char, c ≠ '+' → isDigitPart c = false → c ∉ sign ++ digits := by
    intro c hplus hpart hmem
    rcases mem_decimal hsign hdigits hmem with rfl | hc
    · exact hplus rfl
    · rw [hc] at hpart
      cases hpart
  have htrue : sign ++ digits ≠ ['t', 'r', 'u', 'e'] := fun heq =>
    hnot 't' (by decide) (by decide) (heq ▸ List.mem_cons_self)
  have hfalse : sign ++ digits ≠ ['f', 'a', 'l', 's', 'e'] := fun heq =>
    hnot 'f' (by decide) (by decide) (heq ▸ List.mem_cons_self)
  have hmoment : isMoment (sign ++ digits) = false :=
    isMoment_eq_false (hnot '-' (by decide) (by decide)) (hnot ':' (by decide) (by decide))
  rw [scalar?, if_neg htrue, if_neg hfalse, hmoment, isReal_decimal hsign hdigits,
    if_neg (by decide), if_neg (by decide), integer?_decimal hsign hdigits hnumber]
  rfl

end Decimal

/-! ## Values without brackets -/

section Follows

variable (h : Follows rest)
include h

/-- What follows a value does not go on with it. -/
theorem Follows.isScalarPart_eq_false : ∀ c ∈ rest.head?, isScalarPart c = false := by
  obtain ⟨end_, ⟨run, rfl, hrun, -⟩, hend⟩ := h
  have hends : ∀ c ∈ ['\n', '\r', '#', ',', ']', '\x7d'], isScalarPart c = false := by decide
  cases run with
  | nil => exact fun c hc => hends c (hend c hc)
  | cons d run =>
    rintro c ⟨⟩
    rcases isSpace_iff.mp (hrun _ List.mem_cons_self) with rfl | rfl <;> decide

/-- What follows a date is no blank with a digit behind it. -/
theorem Follows.isDigit_eq_false (heq : rest = ' ' :: c :: more) : c.isDigit = false := by
  obtain ⟨end_, ⟨run, rfl, hrun, -⟩, hend⟩ := h
  have hends : ∀ c ∈ ['\n', '\r', '#', ',', ']', '\x7d'], c ≠ ' ' ∧ c.isDigit = false := by decide
  match run with
  | [] => exact absurd rfl (hends ' ' (hend ' ' (by rw [List.nil_append] at heq; rw [heq]; rfl))).1
  | [space] =>
    obtain ⟨rfl, rfl⟩ := List.cons_eq_cons.mp heq
    exact (hends c (hend c rfl)).2
  | space :: other :: run =>
    obtain ⟨rfl, hother⟩ := List.cons_eq_cons.mp heq
    obtain ⟨rfl, -⟩ := List.cons_eq_cons.mp hother
    rcases isSpace_iff.mp (hrun other (by simp)) with rfl | rfl <;> decide

theorem Follows.splitRun_append (hrun : ∀ c ∈ run, isScalarPart c = true) :
    splitRun (run ++ rest) = (run, rest) := by
  unfold splitRun
  rw [takeWhile_append_eq hrun h.isScalarPart_eq_false,
    dropWhile_append_eq hrun h.isScalarPart_eq_false]
  dsimp only
  split
  · rw [if_neg fun hdate => ?_]
    rw [h.isDigit_eq_false rfl] at hdate
    exact absurd hdate.2 (by decide)
  · rfl

/-- A date goes on behind a blank with a digit behind it. -/
theorem Follows.splitRun_moment {date time : List Char} (hdate : isDate date = true)
    (hc : c.isDigit = true) (hparts : ∀ d ∈ date ++ c :: time, isScalarPart d = true) :
    splitRun (date ++ ' ' :: c :: (time ++ rest)) = (date ++ ' ' :: c :: time, rest) := by
  obtain ⟨hbefore, hbehind⟩ := List.forall_mem_append.mp hparts
  have hblank : ∀ d ∈ (' ' :: c :: (time ++ rest)).head?, isScalarPart d = false := by
    rintro d ⟨⟩
    decide
  have htake := takeWhile_append_eq hbehind h.isScalarPart_eq_false
  have hdrop := dropWhile_append_eq hbehind h.isScalarPart_eq_false
  unfold splitRun
  rw [takeWhile_append_eq hbefore hblank, dropWhile_append_eq hbefore hblank]
  show (if isDate date = true ∧ c.isDigit = true then
    (date ++ ' ' :: (c :: time ++ rest).takeWhile isScalarPart,
      (c :: time ++ rest).dropWhile isScalarPart) else _) = _
  rw [if_pos ⟨hdate, hc⟩, htake, hdrop]

end Follows

/-- Digits and underscores occur in values without quotes. -/
theorem isScalarPart_of_isDigitPart (h : isDigitPart c = true) : isScalarPart c = true := by
  rcases Bool.or_eq_true_iff.mp h with hdigit | hline
  · have halphanum : c.isAlphanum = true := Bool.or_eq_true_iff.mpr (.inr hdigit)
    rw [isScalarPart, halphanum]
    rfl
  · obtain rfl := beq_iff_eq.mp hline
    decide

/-- **What is written is read** by the reader of values: the value, and what follows it. -/
structure Reads (read : List Char → Option (Value × List Char)) (text : List Char) (v : Value)
    (rest : List Char) : Prop where
  /-- The reader gives the value. -/
  read_eq : read text = some (v, rest)
  /-- A value begins with a character of its own. -/
  begins : ∃ c tail, text = c :: tail ∧ (isScalarPart c = true ∨ c ∈ ['"', '\'', '[', '\x7b'])
  /-- The rest is no longer than the text. -/
  length_le : rest.length ≤ text.length

theorem readValue_of_isScalarPart (depth : Nat) (hc : isScalarPart c = true) (text : List Char) :
    readValue depth (c :: text) = readScalar (c :: text) := by
  have hne : c ≠ '"' ∧ c ≠ '\'' ∧ c ≠ '[' ∧ c ≠ '\x7b' := by
    refine ⟨?_, ?_, ?_, ?_⟩ <;> rintro rfl <;> exact absurd hc (by decide)
  unfold readValue
  split
  · rename_i heq
    exact absurd (List.cons_eq_cons.mp heq).1 hne.1
  · rename_i heq
    exact absurd (List.cons_eq_cons.mp heq).1 hne.2.1
  · rename_i heq
    exact absurd (List.cons_eq_cons.mp heq).1 hne.2.2.1
  · rename_i heq
    exact absurd (List.cons_eq_cons.mp heq).1 hne.2.2.2
  · rfl

/-- A run of characters is read as the value of the run. -/
theorem reads_of_splitRun {depth : Nat} (hc : isScalarPart c = true)
    (hsplit : splitRun (c :: text) = (run, rest)) (hvalue : scalar? run = some v)
    (hlength : rest.length ≤ (c :: text).length) : Reads (readValue depth) (c :: text) v rest where
  read_eq := by
    rw [readValue_of_isScalarPart depth hc, readScalar, hsplit]
    dsimp only
    rw [hvalue]
    rfl
  begins := ⟨c, text, rfl, .inl hc⟩
  length_le := hlength

variable (run) in
theorem reads_of_scalar? {depth : Nat} (hrun : ∀ c ∈ run, isScalarPart c = true)
    (hvalue : scalar? run = some v) (hrest : Follows rest) :
    Reads (readValue depth) (run ++ rest) v rest := by
  cases run with
  | nil =>
    have hnone : scalar? [] = none := rfl
    rw [hnone] at hvalue
    cases hvalue
  | cons c run =>
    refine reads_of_splitRun (hrun c List.mem_cons_self) (hrest.splitRun_append hrun) hvalue ?_
    rw [List.length_cons, List.append_eq, List.length_append]
    omega

/-- A text in quotes begins with one of them. -/
theorem QuotedText.exists_cons {s : String} (h : QuotedText text s rest) :
    ∃ c tail, text = c :: tail ∧ (c = '"' ∨ c = '\'') := by
  cases h with
  | basic _ _ => exact ⟨_, _, rfl, .inl rfl⟩
  | literal _ _ => exact ⟨_, _, rfl, .inr rfl⟩
  | long hquote _ _ => exact ⟨_, _, rfl, by simpa using hquote⟩

theorem QuotedText.length_le {s : String} (h : QuotedText text s rest) :
    rest.length ≤ text.length := by
  cases h with
  | basic h _ => exact Nat.le_succ_of_le (Nat.le_of_lt h.length_lt)
  | literal h _ => exact Nat.le_succ_of_le (Nat.le_of_lt h.length_lt)
  | long _ hbreak h =>
    have := h.length_le
    have := hbreak.length_le
    simp only [List.length_cons]
    omega

/-- **A value without brackets is read**, however deep it stands. -/
theorem SimpleText.reads (h : SimpleText text v rest) (depth : Nat) :
    Reads (readValue depth) text v rest := by
  cases h with
  | text h =>
    obtain ⟨c, tail, rfl, hc⟩ := h.exists_cons
    have hread : readValue depth (c :: tail)
        = (readQuoted (c :: tail)).map fun found => (.text found.1, found.2) := by
      rcases hc with rfl | rfl <;> cases depth <;> rfl
    refine ⟨?_, ⟨c, tail, rfl, .inr ?_⟩, h.length_le⟩
    · rw [hread, h.readQuoted_eq]
      rfl
    · rcases hc with rfl | rfl <;> decide
  | decimal h =>
    obtain ⟨hsign, hdigits, hnumber, hrest⟩ := h
    refine reads_of_scalar? _ (fun c hc => ?_) (scalar?_decimal hsign hdigits hnumber) hrest
    rcases mem_decimal hsign hdigits hc with rfl | hpart
    · decide
    · exact isScalarPart_of_isDigitPart hpart
  | true hrest => exact reads_of_scalar? ['t', 'r', 'u', 'e'] (by decide) rfl hrest
  | false hrest =>
    exact reads_of_scalar? ['f', 'a', 'l', 's', 'e'] (by decide) rfl hrest
  | scalar hrun hvalue hrest => exact reads_of_scalar? _ hrun hvalue hrest
  | @moment date time _ d _ hdate hparts hc hvalue hrest =>
    have hsplit := hrest.splitRun_moment hdate hc hparts
    cases date with
    | nil => exact absurd hdate (by decide)
    | cons c date =>
      refine reads_of_splitRun (hparts c List.mem_cons_self) hsplit hvalue ?_
      simp only [List.length_cons, List.append_eq, List.length_append]
      omega

/-! ## Arrays and tables between braces -/

section Inner

variable {inner : List Char → Value → List Char → Prop}
  {read : List Char → Option (Value × List Char)}
  (hinner : ∀ {text v rest}, inner text v rest → Reads read text v rest)
include hinner

/-- **The items of an array are read.** -/
theorem ItemsText.readItems_eq {items : List Value} (h : ItemsText inner text items rest) :
    readItems read text = some (items, rest) := by
  have hopen : ∀ {start after v}, inner start v after → ∀ tail, start ≠ ']' :: tail := by
    rintro start after v hitem tail rfl
    obtain ⟨c, rest, heq, hc⟩ := (hinner hitem).begins
    obtain ⟨rfl, -⟩ := List.cons_eq_cons.mp heq
    exact absurd hc (by decide)
  induction h with
  | close hfiller =>
    rw [readItems, hfiller.skipFiller_eq]
    rfl
  | last hstart hitem hend =>
    rw [readItems, hstart.skipFiller_eq]
    split
    · exact absurd rfl (hopen hitem _)
    · rw [(hinner hitem).read_eq]
      dsimp only
      rw [hend.skipFiller_eq]
      rfl
  | @more text start after next _ _ _ hstart hitem hcomma _ ih =>
    have hshort : next.length < text.length := by
      have := hstart.length_le
      have := (hinner hitem).length_le
      have := hcomma.length_le
      rw [List.length_cons] at this
      omega
    rw [readItems, hstart.skipFiller_eq]
    split
    · exact absurd rfl (hopen hitem _)
    · rw [(hinner hitem).read_eq]
      dsimp only
      rw [hcomma.skipFiller_eq]
      show (if _ then (readItems read _).map _ else none) = _
      rw [if_pos hshort, ih]
      rfl

theorem ItemsText.length_le {items : List Value} (h : ItemsText inner text items rest) :
    rest.length ≤ text.length := by
  induction h with
  | close hfiller => exact Nat.le_of_lt hfiller.length_le
  | last hstart hitem hend =>
    exact Nat.le_trans (Nat.le_of_lt hend.length_le)
      (Nat.le_trans (hinner hitem).length_le hstart.length_le)
  | more hstart hitem hcomma _ ih =>
    exact Nat.le_trans ih (Nat.le_trans (Nat.le_of_lt hcomma.length_le)
      (Nat.le_trans (hinner hitem).length_le hstart.length_le))

variable {pair : List String × Value} {pairs : List (List String × Value)}

/-- **A pair is read.** -/
theorem PairText.readPair_eq (h : PairText inner text pair rest) :
    readPair read text = some (pair, rest) := by
  obtain ⟨hkey, hspaces, hvalue⟩ := h
  rw [readPair, hkey.readKey_eq]
  show (read (skipSpace _)).bind _ = _
  rw [hspaces.skipSpace_eq, (hinner hvalue).read_eq]
  rfl

theorem PairText.length_lt (h : PairText inner text pair rest) : rest.length < text.length := by
  obtain ⟨hkey, hspaces, hvalue⟩ := h
  have := hkey.length_lt
  have := hspaces.length_le
  have := (hinner hvalue).length_le
  rw [List.length_cons] at *
  omega

/-- **The pairs of a table between braces are read.** -/
theorem PairsText.readPairs_eq (h : PairsText inner text pairs rest) :
    readPairs read text = some (pairs, rest) := by
  induction h with
  | last hpair hend =>
    rw [readPairs, hpair.readPair_eq hinner]
    dsimp only
    rw [hend.skipSpace_eq]
    rfl
  | more hpair hcomma _ ih =>
    have hshort := Nat.lt_trans (Nat.lt_of_lt_of_le (Nat.lt_succ_self _) hcomma.length_le)
      (hpair.length_lt hinner)
    rw [readPairs, hpair.readPair_eq hinner]
    dsimp only
    rw [hcomma.skipSpace_eq]
    show (if _ then (readPairs read _).map _ else none) = _
    rw [if_pos hshort, ih]
    rfl

theorem PairsText.length_lt (h : PairsText inner text pairs rest) : rest.length < text.length := by
  induction h with
  | last hpair hend =>
    exact Nat.lt_of_lt_of_le (Nat.lt_succ_self _)
      (Nat.le_trans hend.length_le (Nat.le_of_lt (hpair.length_lt hinner)))
  | more hpair hcomma _ ih =>
    exact Nat.lt_trans ih (Nat.lt_of_lt_of_le (Nat.lt_succ_self _)
      (Nat.le_trans hcomma.length_le (Nat.le_of_lt (hpair.length_lt hinner))))

omit hinner in
/-- The keys of pairs have parts. -/
theorem PairsText.ne_nil (h : PairsText inner text pairs rest) : ∀ pair ∈ pairs, pair.1 ≠ [] := by
  induction h with
  | last hpair _ =>
    obtain ⟨hkey, -, -⟩ := hpair
    exact List.forall_mem_singleton.mpr hkey.ne_nil
  | more hpair _ _ ih =>
    obtain ⟨hkey, -, -⟩ := hpair
    exact List.forall_mem_cons.mpr ⟨hkey.ne_nil, ih⟩

omit hinner in
/-- Behind an opening brace stand spaces and a key. -/
theorem PairsText.exists_cons (h : PairsText inner text pairs rest) :
    ∃ c tail, skipSpace text = c :: tail ∧ (isBareKey c = true ∨ c = '"' ∨ c = '\'') := by
  have hpair : ∀ {pair rest}, PairText inner text pair rest →
      ∃ c tail, skipSpace text = c :: tail ∧ (isBareKey c = true ∨ c = '"' ∨ c = '\'') := by
    rintro pair rest ⟨hkey, -, -⟩
    obtain ⟨start, hspaces, hparts⟩ := hkey.parts
    rw [hspaces.skipSpace_eq]
    exact hparts.exists_cons
  cases h with
  | last h _ => exact hpair h
  | more h _ _ => exact hpair h

/-- **A table between braces is read**: no two of its keys meet, so they make a table. -/
theorem PairsText.readBraces_eq (h : PairsText inner text pairs rest)
    (hapart : (pairs.map Prod.fst).Pairwise Apart) :
    readBraces read text = some (.table (membersOf pairs), rest) := by
  obtain ⟨es, hes⟩ := exists_addPairs (fun pair hpair => admits_nil (h.ne_nil pair hpair)) hapart
  obtain ⟨c, tail, hskip, hc⟩ := h.exists_cons
  unfold readBraces
  rw [hskip]
  split
  · rename_i heq
    obtain ⟨rfl, -⟩ := List.cons_eq_cons.mp heq
    exact absurd hc (by decide)
  · rw [h.readPairs_eq hinner]
    show (addPairs [] pairs).bind _ = _
    rw [membersOf, hes]
    rfl

end Inner

/-- **A value is read.** -/
theorem ValueText.reads {depth : Nat} (h : ValueText depth text v rest) :
    Reads (readValue depth) text v rest := by
  induction depth generalizing text v rest with
  | zero => exact SimpleText.reads h 0
  | succ depth ih =>
    cases h with
    | simple h => exact h.reads _
    | array h =>
      refine ⟨?_, ⟨_, _, rfl, .inr (by decide)⟩, Nat.le_succ_of_le (h.length_le ih)⟩
      show (readItems (readValue depth) _).map _ = _
      rw [h.readItems_eq ih]
      rfl
    | emptyTable h =>
      refine ⟨?_, ⟨_, _, rfl, .inr (by decide)⟩, Nat.le_succ_of_le (Nat.le_of_lt h.length_le)⟩
      show readBraces (readValue depth) _ = _
      unfold readBraces
      rw [h.skipSpace_eq]
      rfl
    | table h hapart =>
      refine ⟨?_, ⟨_, _, rfl, .inr (by decide)⟩, Nat.le_succ_of_le (Nat.le_of_lt (h.length_lt ih))⟩
      exact h.readBraces_eq ih hapart

/-! ## Statements and documents -/

/-- A key begins with a space, a character that can stand in it, or a quote. -/
theorem KeyText.exists_cons {key : List String} (h : KeyText text key rest) :
    ∃ c tail, text = c :: tail ∧ (isSpace c = true ∨ isBareKey c = true ∨ c = '"' ∨ c = '\'') := by
  obtain ⟨start, ⟨run, rfl, hrun, -⟩, hparts⟩ := h.parts
  cases run with
  | nil =>
    obtain ⟨c, tail, rfl, hc⟩ := hparts.exists_cons
    exact ⟨c, tail, rfl, .inr hc⟩
  | cons c run => exact ⟨c, run ++ start, rfl, .inl (hrun c List.mem_cons_self)⟩

theorem KeyText.ne_bracket {key : List String} (h : KeyText text key rest) (tail : List Char) :
    text ≠ '[' :: tail := by
  rintro rfl
  obtain ⟨c, tail, heq, hc⟩ := h.exists_cons
  obtain ⟨rfl, -⟩ := List.cons_eq_cons.mp heq
  exact absurd hc (by decide)

/-- **A statement is read.** -/
theorem StatementText.readStatement_eq {statement : Statement}
    (h : StatementText text statement rest) : readStatement text = some (statement, rest) := by
  cases h with
  | pair h =>
    have hread := h.readPair_eq ValueText.reads
    have hkey : ∃ key more, KeyText text key more := by
      obtain ⟨hkey, -, -⟩ := h
      exact ⟨_, _, hkey⟩
    obtain ⟨key, more, hkey⟩ := hkey
    unfold readStatement
    split
    · exact absurd rfl (hkey.ne_bracket _)
    · exact absurd rfl (hkey.ne_bracket _)
    · rw [hread]
      rfl
  | table h =>
    unfold readStatement
    split
    · rename_i heq
      exact absurd (List.cons_eq_cons.mp heq).2 (h.ne_bracket _)
    · rename_i heq
      obtain ⟨-, rfl⟩ := List.cons_eq_cons.mp heq
      rw [h.readKey_eq]
      rfl
    · rename_i hnot
      exact absurd rfl (hnot _)
  | element h =>
    show (readKey _).bind _ = _
    rw [h.readKey_eq]
    rfl

theorem StatementText.length_lt {statement : Statement} (h : StatementText text statement rest) :
    rest.length < text.length := by
  cases h with
  | pair h => exact h.length_lt ValueText.reads
  | table h =>
    have := h.length_lt
    rw [List.length_cons] at *
    omega
  | element h =>
    have := h.length_lt
    simp only [List.length_cons] at *
    omega

/-- What a statement begins with. -/
theorem StatementText.exists_cons {statement : Statement} (h : StatementText text statement rest) :
    ∃ c tail, text = c :: tail
      ∧ (c = '[' ∨ isSpace c = true ∨ isBareKey c = true ∨ c = '"' ∨ c = '\'') := by
  cases h with
  | pair h =>
    obtain ⟨hkey, -, -⟩ := h
    obtain ⟨c, tail, rfl, hc⟩ := hkey.exists_cons
    exact ⟨c, tail, rfl, .inr hc⟩
  | table _ => exact ⟨_, _, rfl, .inl rfl⟩
  | element _ => exact ⟨_, _, rfl, .inl rfl⟩

section Statements

variable {statements : List Statement}

/-- **The statements of a document are read.** -/
theorem StatementsText.readStatements_eq (h : StatementsText text statements) :
    readStatements text = some statements := by
  induction h with
  | done h => rw [readStatements, h.skipFiller_eq]
  | @more text start after next statement _ hstart hstatement hend _ ih =>
    have hshort : next.length < text.length := by
      have := hstart.length_le
      have := hstatement.length_lt
      have := hend.length_le
      omega
    rw [readStatements, hstart.skipFiller_eq]
    split
    · obtain ⟨c, tail, heq, -⟩ := hstatement.exists_cons
      cases heq
    · rw [hstatement.readStatement_eq]
      dsimp only
      rw [hend.endLine?_eq]
      dsimp only
      rw [if_pos hshort, ih]
      rfl

/-- No document begins with a byte order mark of its own. -/
theorem StatementsText.head?_ne (h : StatementsText text statements) :
    text.head? ≠ some '\uFEFF' := by
  have hfiller : ∀ {start}, Filler text start → start.head? ≠ some '\uFEFF' →
      text.head? ≠ some '\uFEFF' := by
    intro start hfiller hstart
    cases hfiller with
    | done _ => exact hstart
    | space hc _ =>
      rcases isSpace_iff.mp hc with rfl | rfl <;> (rw [List.head?_cons]; decide)
    | newline hbreak _ => rcases hbreak with rfl | rfl <;> (rw [List.head?_cons]; decide)
    | comment _ _ _ => rw [List.head?_cons]; decide
    | lastComment _ => rw [List.head?_cons]; decide
  cases h with
  | done h => exact hfiller h nofun
  | more hstart hstatement _ _ =>
    refine hfiller hstart ?_
    obtain ⟨c, tail, rfl, hc⟩ := hstatement.exists_cons
    intro heq
    obtain rfl := Option.some.inj heq
    exact absurd hc (by decide)

/-- **The table that statements make.** -/
def assembled (statements : List Statement) : Option Entries := do
  assemble (← addPairs [] (leadingPairs statements)) statements

/-- **What is written as a document is parsed** as the table that its statements make. -/
theorem DocumentText.parse?_eq {document : String} (h : DocumentText document statements) :
    parse? document = (assembled statements).map fun es => .table (finishEntries es) := by
  obtain ⟨body, hbody, hstatements⟩ := h
  have hmark : (if document.toList.head? = some '\uFEFF' then document.toList.drop 1
      else document.toList) = body := by
    rcases hbody with hbody | hbody
    · rw [hbody, if_neg hstatements.head?_ne]
    · rw [hbody, List.head?_cons, if_pos rfl]
      rfl
  unfold parse? assembled
  dsimp only
  rw [hmark, hstatements.readStatements_eq]
  show (addPairs [] _).bind _ = ((addPairs [] _).bind _).map _
  cases addPairs [] (leadingPairs statements) with
  | none => rfl
  | some es =>
    show (assemble es _).bind _ = (assemble es _).map _
    cases assemble es statements <;> rfl

end Statements

/-! ## Plain writings

Keys and lines with no more blanks than they need, and what may be behind a value there. -/

/-- Nothing is left of blanks and comments where something else begins. -/
theorem filler_self {c : Char} (h : c ∉ [' ', '\t', '\n', '\r', '#']) (tail : List Char) :
    Filler (c :: tail) (c :: tail) := by
  simp only [List.mem_cons, List.not_mem_nil, or_false, not_or] at h
  refine .done ⟨?_, ?_, fun heq => h.2.2.2.2 (Option.some.inj heq)⟩
  · rintro d ⟨⟩
    exact Bool.eq_false_iff.mpr fun hspace => (isSpace_iff.mp hspace).elim h.1 h.2.1
  · rintro rest (heq | heq)
    · exact h.2.2.1 (List.cons_eq_cons.mp heq).1
    · exact h.2.2.2.1 (List.cons_eq_cons.mp heq).1

theorem head?_eq_false {kind : Char → Bool} {c : Char} (h : kind c = false) (tail : List Char) :
    ∀ d ∈ (c :: tail).head?, kind d = false := fun _ hd =>
  Option.some.inj hd ▸ h

theorem spaces_self {c : Char} (h : isSpace c = false) (tail : List Char) :
    Spaces (c :: tail) (c :: tail) :=
  .refl (head?_eq_false h tail)

theorem spaces_one {c : Char} (h : isSpace c = false) (tail : List Char) :
    Spaces (' ' :: c :: tail) (c :: tail) :=
  ⟨[' '], rfl, by decide, head?_eq_false h tail⟩

/-- A bare part of a key with a blank behind it. -/
theorem keyPart_bare (part : List Char) (h : part ≠ [] ∧ ∀ c ∈ part, isBareKey c = true)
    (tail : List Char) : KeyPart (part ++ ' ' :: tail) (String.ofList part) (' ' :: tail) :=
  .bare h.1 h.2 (head?_eq_false (by decide) tail)

theorem keyText_bare (part : List Char) (h : part ≠ [] ∧ ∀ c ∈ part, isBareKey c = true)
    (tail : List Char) :
    KeyText (part ++ ' ' :: '=' :: tail) [String.ofList part] ('=' :: tail) where
  parts := by
    obtain ⟨c, rest, rfl⟩ := List.exists_cons_of_ne_nil h.1
    refine ⟨_, spaces_self (isSpace_eq_false_of_begins (.inl (h.2 c List.mem_cons_self))) _, ?_⟩
    exact .last (keyPart_bare _ h _) (spaces_one (by decide) _) fun hdot => absurd hdot (by simp)
  length_le := show 1 ≤ maxNesting by decide

theorem lineEnd_newline (tail : List Char) : LineEnd ('\n' :: tail) tail :=
  .plain (spaces_self (by decide) _) (.inl (.inl rfl))

theorem follows_newline (tail : List Char) : Follows ('\n' :: tail) :=
  ⟨_, spaces_self (by decide) _, fun _ hc => Option.some.inj hc ▸ List.mem_cons_self⟩

end SchemaTypings.Toml
