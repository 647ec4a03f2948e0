import SchemaTypings.Proofs.PrefixScan

/-!
# Prefixes by place

The scan for known prefixes goes from left to right and passes each one that it finds as a whole.
It could miss one that begins inside another. The alternative looks at every place of a text by
itself and asks which prefix stands there, if any (`Covers`): what belongs to `xsd:` is left out,
the colon of any other prefix becomes an underscore, and all else stays (`replaceInPlace`).

No place belongs to two prefixes (`Covers.unique`), and where no prefix reaches over a border, each
side of it can be looked at alone (`replaceInPlace_append`). The scan cuts a text at such borders
and at no others, so both come to the same.
-/

namespace SchemaTypings

namespace KnownPrefix

variable {p q : KnownPrefix} {a b cs : List Char} {start place : Nat}

/-- **A prefix stands at a place** of a text: there it begins, and its colon follows. -/
def StandsAt (p : KnownPrefix) (cs : List Char) (start : Nat) : Prop :=
  p.written <+: cs.drop start

instance : Decidable (p.StandsAt cs start) :=
  inferInstanceAs (Decidable (_ <+: _))

/-- **A prefix covers a place** of a text: it stands somewhere, and the place is one of those that
it takes up together with its colon. -/
structure Covers (p : KnownPrefix) (cs : List Char) (start place : Nat) : Prop where
  /-- The prefix stands in the text. -/
  stands : p.StandsAt cs start
  /-- It begins no later. -/
  le : start ≤ place
  /-- It ends no earlier. -/
  lt : place < start + p.written.length

instance : Decidable (p.Covers cs start place) :=
  decidable_of_iff (p.StandsAt cs start ∧ start ≤ place ∧ place < start + p.written.length)
    ⟨fun ⟨stands, le, lt⟩ => ⟨stands, le, lt⟩, fun h => ⟨h.stands, h.le, h.lt⟩⟩

/-- **A prefix reaches over a border**: it begins before it and ends after it. -/
def Straddled (cs : List Char) (border : Nat) : Prop :=
  ∃ (p : KnownPrefix) (start : Nat),
    p.StandsAt cs start ∧ start < border ∧ border < start + p.written.length

instance (cs : List Char) (border : Nat) : Decidable (Straddled cs border) :=
  decidable_of_iff (∃ p ∈ all, ∃ start < border,
      p.StandsAt cs start ∧ border < start + p.written.length)
    ⟨fun ⟨p, _, start, hbefore, hstands, hover⟩ => ⟨p, start, hstands, hbefore, hover⟩,
      fun ⟨p, start, hstands, hbefore, hover⟩ => ⟨p, mem_all p, start, hbefore, hstands, hover⟩⟩

/-- What comes of a character at a place of a text. -/
def characterInPlace (cs : List Char) (place : Nat) (c : Char) : List Char :=
  if ∃ start ≤ place, xsd.Covers cs start place then []
  else if ∃ p ∈ all, p ≠ xsd ∧ ∃ start ≤ place,
      p.Covers cs start place ∧ place = start + p.spelling.length then ['_']
  else [c]

/-- **Replacing prefixes place by place**, at all places at once. -/
def replaceInPlace (cs : List Char) : List Char :=
  (cs.mapIdx (characterInPlace cs)).flatten

/-! ## Prefixes do not share places -/

/-- **A place belongs to one prefix** at most. -/
theorem Covers.unique {first second : Nat} (hp : p.Covers cs first place)
    (hq : q.Covers cs second place) : p = q ∧ first = second := by
  wlog hle : first ≤ second generalizing p q first second
  · obtain ⟨hsame, hstart⟩ := this hq hp (Nat.le_of_not_le hle)
    exact ⟨hsame.symm, hstart.symm⟩
  obtain ⟨rest, hrest⟩ := hp.stands
  -- the second prefix begins in what is left of the first
  have hinside : second - first < p.written.length := by
    have := hp.lt
    have := hq.le
    omega
  have hbegins : q.written <+: p.written.drop (second - first) ++ rest := by
    have hdrop : cs.drop second = (cs.drop first).drop (second - first) := by
      rw [List.drop_drop, Nat.add_sub_cancel' hle]
    have hstands : q.written <+: cs.drop second := hq.stands
    rwa [hdrop, ← hrest, List.drop_append_of_le_length (Nat.le_of_lt hinside)] at hstands
  obtain ⟨rfl, hwhole⟩ := eq_written_of_begins (List.drop_suffix _ _)
    (List.ne_nil_of_length_pos (by rw [List.length_drop]; omega)) hbegins
  have hlength := congrArg List.length hwhole
  rw [List.length_drop] at hlength
  exact ⟨rfl, by omega⟩

/-! ## Both sides of a border -/

/-- What stands in a text ends in it. -/
theorem StandsAt.add_length_le (h : p.StandsAt cs start) :
    start + p.written.length ≤ cs.length := by
  have hlength := h.length_le
  have hpos : 0 < p.written.length := by cases p <;> decide
  rw [List.length_drop] at hlength
  omega

/-- Before a border the prefixes are those of the part before it. -/
theorem covers_append_left (h : ¬ Straddled (a ++ b) a.length) (hplace : place < a.length) :
    p.Covers (a ++ b) start place ↔ p.Covers a start place := by
  constructor
  · intro hcovers
    have hend : start + p.written.length ≤ a.length := Nat.le_of_not_lt fun hover =>
      h ⟨p, start, hcovers.stands, Nat.lt_of_le_of_lt hcovers.le hplace, hover⟩
    have hstands := hcovers.stands
    rw [StandsAt, List.drop_append] at hstands
    refine ⟨List.prefix_of_prefix_length_le hstands (List.prefix_append _ _) ?_, hcovers.le,
      hcovers.lt⟩
    rw [List.length_drop]
    omega
  · intro hcovers
    refine ⟨?_, hcovers.le, hcovers.lt⟩
    rw [StandsAt, List.drop_append]
    exact hcovers.stands.trans (List.prefix_append _ _)

/-- Behind a border they are those of the part behind it. -/
theorem covers_append_right (h : ¬ Straddled (a ++ b) a.length) :
    p.Covers (a ++ b) start (place + a.length)
      ↔ ∃ inner, start = inner + a.length ∧ p.Covers b inner place := by
  have hshift : ∀ inner, p.StandsAt (a ++ b) (inner + a.length) ↔ p.StandsAt b inner := by
    intro inner
    rw [StandsAt, Nat.add_comm, List.drop_length_add_append, StandsAt]
  constructor
  · intro hcovers
    have hlt := hcovers.lt
    have hle := hcovers.le
    have hbehind : a.length ≤ start := Nat.le_of_not_lt fun hbefore =>
      h ⟨p, start, hcovers.stands, hbefore, by omega⟩
    obtain ⟨inner, rfl⟩ := Nat.exists_eq_add_of_le' hbehind
    exact ⟨inner, rfl, (hshift inner).mp hcovers.stands, by omega, by omega⟩
  · rintro ⟨inner, rfl, hcovers⟩
    have hlt := hcovers.lt
    have hle := hcovers.le
    exact ⟨(hshift inner).mpr hcovers.stands, by omega, by omega⟩

theorem characterInPlace_append_left (h : ¬ Straddled (a ++ b) a.length)
    (hplace : place < a.length) (c : Char) :
    characterInPlace (a ++ b) place c = characterInPlace a place c := by
  unfold characterInPlace
  simp only [covers_append_left h hplace]

theorem characterInPlace_append_right (h : ¬ Straddled (a ++ b) a.length) (place : Nat) (c : Char) :
    characterInPlace (a ++ b) (place + a.length) c = characterInPlace b place c := by
  unfold characterInPlace
  have hshift : ∀ (p : KnownPrefix) (good : Nat → Prop),
      (∃ start ≤ place + a.length, p.Covers (a ++ b) start (place + a.length) ∧ good start)
        ↔ ∃ inner ≤ place, p.Covers b inner place ∧ good (inner + a.length) := by
    intro p good
    constructor
    · rintro ⟨start, hle, hcovers, hgood⟩
      obtain ⟨inner, rfl, hinner⟩ := (covers_append_right h).mp hcovers
      exact ⟨inner, hinner.le, hinner, hgood⟩
    · rintro ⟨inner, hle, hcovers, hgood⟩
      exact ⟨inner + a.length, by omega, (covers_append_right h).mpr ⟨inner, rfl, hcovers⟩, hgood⟩
  have hxsd := hshift xsd fun _ => True
  simp only [and_true] at hxsd
  have hcolon : ∀ (inner : Nat) (p : KnownPrefix),
      place + a.length = inner + a.length + p.spelling.length
        ↔ place = inner + p.spelling.length := fun inner p => by omega
  simp only [hxsd, hshift, hcolon]

/-- **Where no prefix reaches over a border, each side is rewritten alone.** -/
theorem replaceInPlace_append (h : ¬ Straddled (a ++ b) a.length) :
    replaceInPlace (a ++ b) = replaceInPlace a ++ replaceInPlace b := by
  unfold replaceInPlace
  rw [List.mapIdx_append, List.flatten_append]
  congr 2
  · refine List.mapIdx_eq_mapIdx_iff.mpr fun place hplace => ?_
    exact characterInPlace_append_left h hplace _
  · refine List.mapIdx_eq_mapIdx_iff.mpr fun place _ => ?_
    exact characterInPlace_append_right h place _

/-! ## The scan -/

/-- A prefix is rewritten as it is replaced. -/
theorem replaceInPlace_written (p : KnownPrefix) : replaceInPlace p.written = p.replacement := by
  cases p <;> decide +kernel

/-- One character holds no prefix. -/
theorem replaceInPlace_singleton (c : Char) : replaceInPlace [c] = [c] := by
  have hnone : ∀ (p : KnownPrefix) (start place : Nat), ¬ p.Covers [c] start place := by
    intro p start place h
    have hfits := h.stands.add_length_le
    have hlong : 1 < p.written.length := by cases p <;> decide
    rw [List.length_singleton] at hfits
    omega
  simp only [replaceInPlace, List.mapIdx_cons, List.mapIdx_nil, List.flatten_cons,
    List.flatten_nil, List.append_nil, characterInPlace, hnone, and_false, false_and, exists_false,
    if_false]

/-- Behind a prefix that the scan passes there is a border that no prefix reaches over. -/
theorem not_straddled_written_append (p : KnownPrefix) (rest : List Char) :
    ¬ Straddled (p.written ++ rest) p.written.length := by
  rintro ⟨q, start, hstands, hbefore, hover⟩
  have hfirst : p.Covers (p.written ++ rest) 0 start :=
    ⟨List.prefix_append _ _, Nat.zero_le _, by omega⟩
  have hsecond : q.Covers (p.written ++ rest) start start := ⟨hstands, Nat.le_refl _, by omega⟩
  obtain ⟨rfl, rfl⟩ := hfirst.unique hsecond
  omega

/-- Behind a character that begins no prefix there is one as well. -/
theorem not_straddled_cons {c : Char} (h : leading? (c :: cs) = none) :
    ¬ Straddled ([c] ++ cs) [c].length := by
  rintro ⟨p, start, hstands, hbefore, -⟩
  obtain rfl : start = 0 := Nat.lt_one_iff.mp hbefore
  exact leading?_eq_none_iff.mp h p hstands

/-- **The scan rewrites a text place by place.** -/
theorem replaceAll_eq_replaceInPlace (cs : List Char) : replaceAll cs = replaceInPlace cs := by
  induction cs using scan_induction with
  | nil => exact replaceAll_nil
  | found p rest ih =>
    rw [replaceAll_written_append, ih, replaceInPlace_append (not_straddled_written_append p rest),
      replaceInPlace_written]
  | other c cs hnone ih =>
    have hborder := replaceInPlace_append (not_straddled_cons hnone)
    rw [replaceInPlace_singleton] at hborder
    rw [replaceAll_cons_of_none hnone, ih]
    exact hborder.symm

end KnownPrefix

open KnownPrefix

/-- **The scan misses no prefix and rewrites nothing else.** In any text the prefixes have no place
in common, and replacing them is rewriting each place by itself. So two texts are rewritten apart
from each other, unless a prefix reaches from one into the other. -/
theorem replacePrefixes_by_place :
    (∀ text : String,
      (∀ (p q : KnownPrefix) (first second place : Nat), p.Covers text.toList first place →
        q.Covers text.toList second place → p = q ∧ first = second)
      ∧ replacePrefixes text = String.ofList (replaceInPlace text.toList))
      ∧ ∀ a b : String, ¬ Straddled (a ++ b).toList a.toList.length →
        replacePrefixes (a ++ b) = replacePrefixes a ++ replacePrefixes b := by
  refine ⟨fun text => ⟨fun p q first second place hp hq => hp.unique hq, ?_⟩, ?_⟩
  · rw [replacePrefixes, replaceAll_eq_replaceInPlace]
  · intro a b h
    rw [String.toList_append] at h
    rw [replacePrefixes, replacePrefixes, replacePrefixes, String.toList_append,
      replaceAll_eq_replaceInPlace, replaceInPlace_append h, replaceAll_eq_replaceInPlace,
      replaceAll_eq_replaceInPlace, String.ofList_append]

/-- In `fnsoap:xxsd:tns:A`, where `fns` ends in the middle of `soap`, the colon behind that belongs
to `soap` alone, and what stands before it and behind it is rewritten apart from it. -/
theorem replacePrefixes_by_place_soap :
    (∀ p start, p.Covers "fnsoap:xxsd:tns:A".toList start 6 → p = soap ∧ start = 2)
      ∧ replacePrefixes "fnsoap:xxsd:tns:A" = "fnsoap_xtns_A"
      ∧ replacePrefixes ("fn" ++ "soap:xxsd:tns:A")
        = replacePrefixes "fn" ++ replacePrefixes "soap:xxsd:tns:A" := by
  obtain ⟨hplaces, hborder⟩ := replacePrefixes_by_place
  obtain ⟨hunique, hresult⟩ := hplaces "fnsoap:xxsd:tns:A"
  refine ⟨fun p start h => hunique p soap start 2 6 h (by decide), ?_, hborder _ _ (by decide)⟩
  rw [hresult]
  decide +kernel

end SchemaTypings
