import SchemaTypings.Markup.Attribute

/-!
# Events

A document is read construct by construct: a construct begins at a `<` and ends at the `>`
that closes it. What stands between constructs is character data and is passed over, as
are comments, character data sections, the document type and processing instructions. The
others are start tags, empty-element tags and end tags, and these are the *events* of a
document, in order. A construct that cannot be read is an event too, the last one.

Reading constructs needs no memory of what is open: which end tag belongs to which start
tag is for the builder of the tree to decide. So the events are a function of the text
alone, and neither the limits nor the state of the tree have a say in them.
-/

namespace SchemaTypings.Markup

open Text

/-- **An event of a document.** -/
inductive Event where
  /-- A start tag, by its text. -/
  | startTag (content : List Char)
  /-- An empty-element tag, by its text without the closing slash. -/
  | emptyTag (content : List Char)
  /-- An end tag, by what follows its slash, and the place a message gives for it. -/
  | endTag (written : List Char) (position : Nat)
  /-- A construct that cannot be read. -/
  | fault (cause : ReadFault) (position : Nat)
deriving DecidableEq, Repr

/-! ## Where a construct ends -/

variable {σ : Type}

/-- **Splitting at the closing `>`.** The text is split at its first `>` for which `ends`
holds of the state that `step` has gathered from the characters before it. -/
def splitAtClose (step : σ → Char → σ) (ends : σ → Bool) :
    σ → List Char → Option (List Char × List Char)
  | _, [] => none
  | s, c :: cs =>
    if c = '>' ∧ ends s = true then some ([], cs)
    else (splitAtClose step ends (step s c) cs).map fun (a, b) => (c :: a, b)

theorem eq_append_of_splitAtClose {step : σ → Char → σ} {ends : σ → Bool} {s : σ}
    {cs a b : List Char} (h : splitAtClose step ends s cs = some (a, b)) :
    cs = a ++ '>' :: b := by
  induction cs generalizing s a with
  | nil => cases h
  | cons c cs ih =>
    unfold splitAtClose at h
    split at h
    · rename_i hc
      cases h
      rw [hc.1, List.nil_append]
    · obtain ⟨⟨a', b'⟩, hsplit, heq⟩ := Option.map_eq_some_iff.mp h
      cases heq
      rw [ih hsplit, List.cons_append]

/-- **The quote that a place inside a tag lies in**, if any. -/
def quoteStep : Option Char → Char → Option Char
  | none, c => if c = '"' ∨ c = '\'' then some c else none
  | some quote, c => if c = quote then none else some quote

/-- The end of a tag: a `>` outside quotes. -/
def splitTag : List Char → Option (List Char × List Char) :=
  splitAtClose quoteStep Option.isNone none

/-- The end of an end tag or an instruction: any `>`. -/
def splitPlain : List Char → Option (List Char × List Char) :=
  splitAtClose (fun _ _ => ()) (fun _ => true) ()

namespace Special

/-- The construct that a character after the exclamation mark begins. -/
def ofLead? (c : Char) : Option Special :=
  if c = '-' then some .comment
  else if c = '[' then some .cdata
  else if c = 'D' ∨ c = 'd' then some .doctype
  else none

/-- **The end of a special construct**, whose text after the exclamation mark is given: of a
comment a `>` after two hyphens that are not its opening ones, of character data a `>` after
two brackets, and of a document type the `>` that leaves no `<` open. -/
def split : Special → List Char → Option (List Char × List Char)
  | .comment =>
    splitAtClose (fun seen c => c :: seen)
      (fun seen => seen.take 2 == ['-', '-'] && 4 ≤ seen.length) []
  | .cdata =>
    splitAtClose (fun seen c => c :: seen) (fun seen => seen.take 2 == [']', ']']) []
  | .doctype =>
    splitAtClose (fun depth c => if c = '<' then depth + 1 else if c = '>' then depth - 1 else depth)
      (· == 0) 0

/-- How a special construct must begin, in capitals. -/
def opening : Special → List Char
  | .comment => ['-', '-']
  | .cdata => ['[', 'C', 'D', 'A', 'T', 'A', '[']
  | .doctype => ['D', 'O', 'C', 'T', 'Y', 'P', 'E']

/-- Whether a text begins as a special construct must; the case of letters is free. -/
def opens (kind : Special) (content : List Char) : Bool :=
  kind.opening.isPrefixOf (content.map Char.toUpper)

theorem eq_append_of_split {kind : Special} {cs a b : List Char}
    (h : kind.split cs = some (a, b)) : cs = a ++ '>' :: b := by
  cases kind <;> exact eq_append_of_splitAtClose h

end Special

/-! ## Constructs -/

/-- **What a construct holds**: its text up to the closing `>` or, without one, to the end of
the document. -/
structure Enclosed where
  /-- The text of the construct. -/
  content : List Char
  /-- The place after it. -/
  next : Cursor

/-- The construct at a place, where `split` finds its end. -/
def enclosed (split : List Char → Option (List Char × List Char)) (c : Cursor) : Enclosed :=
  match split c.rest with
  | some (content, rest) => ⟨content, ⟨c.offset + byteLength content + 1, rest⟩⟩
  | none => ⟨c.rest, ⟨c.endOffset, []⟩⟩

/-- The place that a message gives for a construct: the bytes read so far, less its text. -/
def Enclosed.position (e : Enclosed) : Nat :=
  e.next.offset - byteLength e.content

/-- **A special construct**, read from the place after its `<`; `rest` is what follows the
exclamation mark. It gives no event, so only the place after it is returned. -/
def readSpecial (start : Nat) (rest : List Char) : Except (ReadFault × Nat) Cursor :=
  match rest with
  | [] => .error (.bareExclamation, start)
  | c :: _ =>
    match Special.ofLead? c with
    | none => .error (.unknownSpecial (leadByte c), start)
    | some kind =>
      match kind.split rest with
      | none => .error (.unfinishedSpecial kind, start)
      | some (content, more) =>
        let next : Cursor := ⟨start + 1 + byteLength content + 1, more⟩
        if !kind.opens content then
          .error (.unfinishedSpecial kind, next.offset)
        else if kind = .doctype ∧ (content.drop Special.doctype.opening.length).all isBlank then
          .error (.emptyDoctype, next.offset)
        else
          .ok next

/-- The event of a start tag or an empty-element tag. -/
def tagEvent (content : List Char) : Event :=
  if content.getLast? = some '/' then .emptyTag content.dropLast else .startTag content

/-- **The construct at a place** after a `<`, and the place after the construct. -/
def readConstruct (c : Cursor) : Except (ReadFault × Nat) (Option Event × Cursor) :=
  match c.rest with
  | [] => .ok (none, c)
  | '!' :: rest => do
    let next ← readSpecial c.offset rest
    return (none, next)
  | '/' :: _ =>
    let e := enclosed splitPlain c
    .ok (some (.endTag (e.content.drop 1) e.position), e.next)
  | '?' :: _ =>
    let e := enclosed splitPlain c
    if 2 < e.content.length ∧ e.content.getLast? = some '?' then .ok (none, e.next)
    else .error (.unfinishedInstruction, e.position)
  | _ =>
    let e := enclosed splitTag c
    .ok (some (tagEvent e.content), e.next)

theorem length_enclosed_le (split : List Char → Option (List Char × List Char))
    (hsplit : ∀ {cs a b}, split cs = some (a, b) → cs = a ++ '>' :: b) (c : Cursor) :
    (enclosed split c).next.rest.length ≤ c.rest.length := by
  unfold enclosed
  split
  · rename_i content rest h
    rw [hsplit h]
    simp only [List.length_append, List.length_cons]
    omega
  · simp

theorem length_of_readSpecial {start : Nat} {rest : List Char} {next : Cursor}
    (h : readSpecial start rest = .ok next) : next.rest.length ≤ rest.length := by
  unfold readSpecial at h
  split at h
  · cases h
  · split at h
    · cases h
    · split at h
      · cases h
      · rename_i content more hsplit
        simp only at h
        split at h
        · cases h
        · split at h
          · cases h
          · cases h
            rw [Special.eq_append_of_split hsplit]
            simp only [List.length_append, List.length_cons]
            omega

/-- **Reading moves on**: what follows a construct is no longer than what it began with. -/
theorem length_of_readConstruct {c next : Cursor} {e : Option Event}
    (h : readConstruct c = .ok (e, next)) : next.rest.length ≤ c.rest.length := by
  have hplain := length_enclosed_le splitPlain eq_append_of_splitAtClose c
  have htag := length_enclosed_le splitTag eq_append_of_splitAtClose c
  unfold readConstruct at h
  split at h
  · cases h; exact Nat.le_refl _
  · rename_i rest hrest
    obtain ⟨after, hspecial, h⟩ := exists_of_bind_eq_ok h
    have hread := length_of_readSpecial hspecial
    cases h
    rw [hrest, List.length_cons]
    omega
  · cases h; exact hplain
  · simp only at h
    split at h
    · cases h; exact hplain
    · cases h
  · cases h; exact htag

/-! ## Documents -/

/-- The events from a place on. -/
def eventsFrom (c : Cursor) : List Event :=
  match _rest : (c.skip (· != '<')).rest with
  | [] => []
  | _ :: rest =>
    match _read : readConstruct ⟨(c.skip (· != '<')).offset + 1, rest⟩ with
    | .error (cause, position) => [.fault cause position]
    | .ok (event, next) => event.toList ++ eventsFrom next
termination_by c.rest.length
decreasing_by
  have h₁ := Cursor.length_skip_le (· != '<') c
  have h₂ := length_of_readConstruct _read
  rw [_rest] at h₁
  simp only [List.length_cons] at h₁ h₂
  omega

/-- A text without the byte order mark it may begin with. -/
def dropByteOrderMark : List Char → List Char
  | '\uFEFF' :: cs => cs
  | cs => cs

/-- **The events of a document.** -/
def events (text : String) : List Event :=
  eventsFrom ⟨0, dropByteOrderMark text.toList⟩

end SchemaTypings.Markup
