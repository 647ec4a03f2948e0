import SchemaTypings.Text.Digit

/-!
# Quoted texts

A text stands between double quotes, where a backslash begins an escape, or between single
quotes, where every character stands for itself. Either may be tripled: the text then goes
over lines, a line break directly after the opening quotes is left out, and up to two
quotes may stand directly before the closing ones. A line break inside a text is a line
feed, however it is written. A backslash at the end of a line takes that line break and the
blanks and line breaks after it away.
-/

namespace SchemaTypings.Toml

open Text

/-- Whether a character may stand in a text or comment of one line: anything but control
characters, the tab excepted. -/
def isPlain (c : Char) : Bool :=
  c == '\t' || (0x20 ≤ c.toNat && c.toNat != 0x7F)

/-- Whether a character is a space or a tab. -/
def isSpace (c : Char) : Bool :=
  c == ' ' || c == '\t'

/-- What follows a line break, which is a line feed with or without a carriage return before
it. -/
def lineBreak? : List Char → Option (List Char)
  | '\n' :: cs => some cs
  | '\r' :: '\n' :: cs => some cs
  | _ => none

/-- A text without the line break it may begin with. -/
def dropLineBreak (cs : List Char) : List Char :=
  (lineBreak? cs).getD cs

theorem length_of_lineBreak? {cs rest : List Char} (h : lineBreak? cs = some rest) :
    rest.length < cs.length := by
  unfold lineBreak? at h
  split at h <;> cases h <;> simp only [List.length_cons] <;> omega

/-! ## Escapes -/

/-- The character that a one-letter escape stands for. -/
def shortEscape? (c : Char) : Option Char :=
  if c = 'b' then some '\x08'
  else if c = 't' then some '\t'
  else if c = 'n' then some '\n'
  else if c = 'f' then some '\x0c'
  else if c = 'r' then some '\r'
  else if c = '"' then some '"'
  else if c = '\\' then some '\\'
  else none

/-- The character whose number the first `count` characters write. -/
def codeEscape? (count : Nat) (cs : List Char) : Option (Char × List Char) := do
  let digits := cs.take count
  let code ← number? 16 hexDigit? digits
  if digits.length = count ∧ code.isValidChar then some (Char.ofNat code, cs.drop count) else none

/-- **The character of an escape** after its backslash, and what follows it. -/
def readEscape : List Char → Option (Char × List Char)
  | [] => none
  | c :: cs =>
    if c = 'u' then codeEscape? 4 cs
    else if c = 'U' then codeEscape? 8 cs
    else (shortEscape? c).map (·, cs)

theorem length_of_readEscape {cs rest : List Char} {c : Char}
    (h : readEscape cs = some (c, rest)) : rest.length < cs.length := by
  have hcode : ∀ {count : Nat} {cs : List Char}, codeEscape? count cs = some (c, rest) →
      rest.length ≤ cs.length := by
    intro count cs h
    unfold codeEscape? at h
    obtain ⟨code, -, h⟩ := Option.bind_eq_some_iff.mp h
    split at h
    · cases h
      rw [List.length_drop]
      omega
    · cases h
  unfold readEscape at h
  split at h
  · cases h
  · rw [List.length_cons]
    split at h
    · exact Nat.lt_succ_of_le (hcode h)
    · split at h
      · exact Nat.lt_succ_of_le (hcode h)
      · obtain ⟨d, -, hd⟩ := Option.map_eq_some_iff.mp h
        cases hd
        exact Nat.lt_succ_self _

/-! ## Texts of one line -/

/-- **A text in double quotes**, after the opening one: its characters, and what follows the
closing one. -/
def readBasic (cs : List Char) : Option (List Char × List Char) :=
  match cs with
  | [] => none
  | '"' :: rest => some ([], rest)
  | '\\' :: escape =>
    match _found : readEscape escape with
    | none => none
    | some (c, rest) => (readBasic rest).map fun (body, after) => (c :: body, after)
  | c :: rest =>
    if isPlain c then (readBasic rest).map fun (body, after) => (c :: body, after) else none
termination_by cs.length
decreasing_by
  · have := length_of_readEscape _found
    simp only [List.length_cons]
    omega
  · simp

/-- **A text in single quotes**, after the opening one. -/
def readLiteral (cs : List Char) : Option (List Char × List Char) :=
  let isPart (c : Char) : Bool := isPlain c && c != '\''
  match cs.dropWhile isPart with
  | '\'' :: rest => some (cs.takeWhile isPart, rest)
  | _ => none

/-! ## Texts over several lines -/

/-- The end of a text in triple quotes, if it is here: the quotes that still belong to the
text, at most two, and what follows the closing ones. -/
def tripleEnd? (quote : Char) (cs : List Char) : Option (List Char × List Char) :=
  let count := min (cs.takeWhile (· == quote)).length 5
  if 3 ≤ count then some (List.replicate (count - 3) quote, cs.drop count) else none

/-- A text without the blanks and line breaks it begins with. -/
def dropBlanks : List Char → List Char
  | [] => []
  | c :: cs =>
    if isSpace c ∨ c = '\n' then dropBlanks cs
    else if c = '\r' ∧ cs.head? = some '\n' then dropBlanks cs
    else c :: cs

theorem length_dropBlanks_le (cs : List Char) : (dropBlanks cs).length ≤ cs.length := by
  induction cs with
  | nil => simp [dropBlanks]
  | cons c cs ih =>
    unfold dropBlanks
    simp only [List.length_cons]
    split
    · omega
    · split
      · omega
      · simp

/-- What follows a line break that a backslash takes away, with the blanks after it. -/
def joinedLine? (cs : List Char) : Option (List Char) :=
  (lineBreak? (cs.dropWhile isSpace)).map dropBlanks

theorem length_of_joinedLine? {cs rest : List Char} (h : joinedLine? cs = some rest) :
    rest.length < cs.length := by
  obtain ⟨after, hbreak, rfl⟩ := Option.map_eq_some_iff.mp h
  have h₁ := length_of_lineBreak? hbreak
  have h₂ := length_dropBlanks_le after
  have h₃ := (List.dropWhile_sublist isSpace (l := cs)).length_le
  omega

/-- **The next piece** of a text in triple quotes: the characters that it stands for, and what
follows it. Only between double quotes does a backslash begin an escape or take a line break
away. -/
def longPiece? (quote : Char) (cs : List Char) : Option (List Char × List Char) :=
  match lineBreak? cs with
  | some rest => some (['\n'], rest)
  | none =>
    match cs with
    | [] => none
    | c :: rest =>
      if c = '\\' ∧ quote = '"' then
        match joinedLine? rest with
        | some rest => some ([], rest)
        | none => (readEscape rest).map fun (c, rest) => ([c], rest)
      else if isPlain c then some ([c], rest)
      else none

theorem length_of_longPiece? {quote : Char} {cs piece rest : List Char}
    (h : longPiece? quote cs = some (piece, rest)) : rest.length < cs.length := by
  unfold longPiece? at h
  split at h
  · rename_i hbreak
    cases h
    exact length_of_lineBreak? hbreak
  · split at h
    · cases h
    · rw [List.length_cons]
      split at h
      · split at h
        · rename_i hjoined
          cases h
          exact Nat.lt_succ_of_lt (length_of_joinedLine? hjoined)
        · obtain ⟨⟨c, after⟩, hescape, heq⟩ := Option.map_eq_some_iff.mp h
          cases heq
          exact Nat.lt_succ_of_lt (length_of_readEscape hescape)
      · split at h
        · cases h
          exact Nat.lt_succ_self _
        · cases h

/-- **A text in triple quotes**, after the opening ones. -/
def readLong (quote : Char) (cs : List Char) : Option (List Char × List Char) :=
  match tripleEnd? quote cs with
  | some done => some done
  | none =>
    match _found : longPiece? quote cs with
    | some (piece, rest) =>
      (readLong quote rest).map fun (body, after) => (piece ++ body, after)
    | none => none
termination_by cs.length
decreasing_by exact length_of_longPiece? _found

/-- **A quoted text** of any of the four forms, and what follows it. -/
def readQuoted (cs : List Char) : Option (String × List Char) :=
  let body :=
    match cs with
    | '"' :: '"' :: '"' :: rest => readLong '"' (dropLineBreak rest)
    | '"' :: rest => readBasic rest
    | '\'' :: '\'' :: '\'' :: rest => readLong '\'' (dropLineBreak rest)
    | '\'' :: rest => readLiteral rest
    | _ => none
  body.map fun (text, rest) => (String.ofList text, rest)

end SchemaTypings.Toml
