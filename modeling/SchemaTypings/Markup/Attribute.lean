import SchemaTypings.Markup.Reference

/-!
# Attributes

The attributes of a tag are read from the tag's own text, after its name, one by one: a
key, an equals sign, a quoted value. Blanks may stand around each of them and none is
needed between two attributes. A key is whatever stands before the equals sign or a blank;
that it be a proper name is not asked.

The first fault ends the reading. An attribute is finished, its value replaced included,
before the next one is looked at, so of two faults the one further left is reported.
-/

namespace SchemaTypings.Markup

open Text

/-- **An attribute**: a name and the text its value stands for. -/
structure Attribute where
  /-- The attribute's name. -/
  name : String
  /-- The attribute's value. -/
  value : String
deriving DecidableEq, Repr

/-- Whether a character is blank: space, tab, carriage return, line feed. -/
def isBlank (c : Char) : Bool :=
  c == ' ' || c == '\t' || c == '\r' || c == '\n'

/-- Whether a character continues a key. -/
def isKeyPart (c : Char) : Bool :=
  c != '=' && !isBlank c

/-- **A key**, whose first character is given, and the place after its equals sign. The first
character is not looked at, so a key may begin with an equals sign. -/
def readKey (first : Char) (c : Cursor) : Except AttributeFault (List Char × Cursor) :=
  let more := (c.span isKeyPart).1
  let gap := (c.skip isKeyPart).skip isBlank
  match gap.rest with
  | '=' :: rest => .ok (first :: more, ⟨gap.offset + 1, rest⟩)
  | _ => .error (.expectedEquals gap.offset)

/-- **A quoted value**, still raw, and the place after its closing quote. -/
def readValue (c : Cursor) : Except AttributeFault (List Char × Cursor) :=
  let opening := c.skip isBlank
  match opening.rest with
  | [] => .error (.expectedValue opening.offset)
  | quote :: rest =>
    if quote = '"' ∨ quote = '\'' then
      let inner : Cursor := ⟨opening.offset + 1, rest⟩
      let closing := inner.skip (· != quote)
      match closing.rest with
      | [] => .error (.unclosedValue closing.offset quote)
      | _ :: rest => .ok ((inner.span (· != quote)).1, ⟨closing.offset + 1, rest⟩)
    else
      .error (.unquotedValue opening.offset)

/-- **An attribute as written**: its value is still raw, and its place is known. -/
structure RawAttribute where
  /-- The key. -/
  name : List Char
  /-- Where the key begins. -/
  position : Nat
  /-- The value between its quotes. -/
  value : List Char
deriving DecidableEq, Repr

/-- **The next attribute** and the place after it; nothing if only blanks are left. The keys
that came before, with their places, are `seen`. -/
def nextAttribute (seen : List (List Char × Nat)) (c : Cursor) :
    Except AttributeFault (Option (RawAttribute × Cursor)) :=
  let start := c.skip isBlank
  match start.rest with
  | [] => .ok none
  | first :: rest => do
    let (name, afterKey) ← readKey first ⟨start.offset + first.utf8Size, rest⟩
    match seen.lookup name with
    | some previous => .error (.duplicate start.offset previous)
    | none =>
      let (value, next) ← readValue afterKey
      return some (⟨name, start.offset, value⟩, next)

/-! ## Reading moves on -/

theorem length_of_readKey {first : Char} {c next : Cursor} {name : List Char}
    (h : readKey first c = .ok (name, next)) : next.rest.length < c.rest.length := by
  have h₁ := Cursor.length_skip_le isKeyPart c
  have h₂ := Cursor.length_skip_le isBlank (c.skip isKeyPart)
  unfold readKey at h
  simp only at h
  split at h
  · rename_i rest hrest
    cases h
    rw [hrest] at h₂
    simp only [List.length_cons] at h₂ ⊢
    omega
  · cases h

theorem length_of_readValue {c next : Cursor} {value : List Char}
    (h : readValue c = .ok (value, next)) : next.rest.length < c.rest.length := by
  have h₁ := Cursor.length_skip_le isBlank c
  unfold readValue at h
  simp only at h
  split at h
  · cases h
  · rename_i quote rest hrest
    split at h
    · have h₂ := Cursor.length_skip_le (· != quote) ⟨(c.skip isBlank).offset + 1, rest⟩
      split at h
      · cases h
      · rename_i q more hmore
        cases h
        rw [hmore] at h₂
        rw [hrest] at h₁
        simp only [List.length_cons] at h₁ h₂ ⊢
        omega
    · cases h

theorem length_of_nextAttribute {seen : List (List Char × Nat)} {c next : Cursor}
    {a : RawAttribute} (h : nextAttribute seen c = .ok (some (a, next))) :
    next.rest.length < c.rest.length := by
  have hstart := Cursor.length_skip_le isBlank c
  unfold nextAttribute at h
  simp only at h
  split at h
  · cases h
  · rename_i first rest hrest
    obtain ⟨⟨name, afterKey⟩, hkey, h⟩ := exists_of_bind_eq_ok h
    have hmoved := length_of_readKey hkey
    simp only at h
    split at h
    · cases h
    · obtain ⟨⟨value, after⟩, hvalue, h⟩ := exists_of_bind_eq_ok h
      have hread := length_of_readValue hvalue
      cases h
      rw [hrest] at hstart
      simp only [List.length_cons] at hstart hmoved ⊢
      omega

/-- The attributes from a place on. -/
def attributesFrom (seen : List (List Char × Nat)) (c : Cursor) :
    Except Fault (List Attribute) :=
  match _found : nextAttribute seen c with
  | .error cause => .error (.attribute cause)
  | .ok none => .ok []
  | .ok (some (raw, next)) =>
    match expand raw.value with
    | .error cause => .error (.value cause)
    | .ok value => do
      let more ← attributesFrom ((raw.name, raw.position) :: seen) next
      return ⟨String.ofList raw.name, String.ofList value⟩ :: more
termination_by c.rest.length
decreasing_by exact length_of_nextAttribute _found

/-! ## Tags -/

/-- The name in the text of a tag: what stands before its first blank. -/
def tagName (content : List Char) : List Char :=
  content.takeWhile (!isBlank ·)

/-- **The attributes in the text of a tag.** -/
def tagAttributes (content : List Char) : Except Fault (List Attribute) :=
  attributesFrom [] (Cursor.skip (!isBlank ·) ⟨0, content⟩)

end SchemaTypings.Markup
