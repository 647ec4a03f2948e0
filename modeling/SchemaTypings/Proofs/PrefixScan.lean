import Mathlib.Data.List.Infix
import SchemaTypings.KnownPrefix
import SchemaTypings.Proofs.PrefixFree

/-!
# Scanning for prefixes

What the scan for known prefixes does at one place of a text (`replaceAll_written_append`,
`replaceAll_cons_of_none`), and two consequences that hold of whole texts: a text without any
known prefix is left alone (`replaceAll_eq_self`), and a character that occurs in no prefix
divides a text into parts that are rewritten separately (`replaceAll_append_cons`). The second
one is why a scan that knows nothing of markup respects it.

No two prefixes overlap in a text (`eq_written_of_begins`), since each ends at its first colon
and none is spelled as the end of another.
-/

namespace SchemaTypings

namespace KnownPrefix

/-! ## One place -/

/-- A known prefix is recognized, whatever follows its colon. -/
theorem leading?_written_append (p : KnownPrefix) (rest : List Char) :
    leading? (p.written ++ rest) = some (p, rest) := by
  cases p <;> rfl

/-- **Where nothing is recognized, no known prefix stands.** -/
theorem leading?_eq_none_iff {cs : List Char} :
    leading? cs = none ↔ ∀ p : KnownPrefix, ¬ p.written <+: cs := by
  constructor
  · rintro hnone p ⟨rest, rfl⟩
    rw [leading?_written_append] at hnone
    cases hnone
  · intro hall
    cases hlead : leading? cs with
    | none => rfl
    | some found =>
      obtain ⟨p, rest⟩ := found
      exact absurd ⟨rest, (eq_append_of_leading? hlead).symm⟩ (hall p)

@[simp] theorem replaceAll_nil : replaceAll [] = [] := by
  rw [replaceAll]
  rfl

/-- A known prefix gives way to its replacement. -/
theorem replaceAll_written_append (p : KnownPrefix) (rest : List Char) :
    replaceAll (p.written ++ rest) = p.replacement ++ replaceAll rest := by
  rw [replaceAll]
  split
  · rename_i q rest' hfound
    rw [leading?_written_append] at hfound
    cases hfound
    rfl
  · rename_i hfound
    rw [leading?_written_append] at hfound
    cases hfound

/-- Where no known prefix stands, a character stays. -/
theorem replaceAll_cons_of_none {c : Char} {cs : List Char} (h : leading? (c :: cs) = none) :
    replaceAll (c :: cs) = c :: replaceAll cs := by
  rw [replaceAll]
  split
  · rename_i hfound
    rw [h] at hfound
    cases hfound
  · rfl

/-- **Induction along the scan**: at each place a known prefix is passed as a whole, or one
character that begins none. -/
theorem scan_induction {motive : List Char → Prop} (nil : motive [])
    (found : ∀ (p : KnownPrefix) (rest : List Char), motive rest → motive (p.written ++ rest))
    (other : ∀ (c : Char) (cs : List Char), leading? (c :: cs) = none → motive cs →
      motive (c :: cs))
    (cs : List Char) : motive cs := by
  match hlead : leading? cs with
  | some (p, rest) =>
    have hlt := length_lt_of_leading? hlead
    rw [eq_append_of_leading? hlead]
    exact found p rest (scan_induction nil found other rest)
  | none =>
    match cs with
    | [] => exact nil
    | c :: cs => exact other c cs hlead (scan_induction nil found other cs)
termination_by cs.length

/-- Seven prefixes are all there are. -/
theorem mem_all (p : KnownPrefix) : p ∈ all := by
  cases p <;> decide

/-! ## Prefixes do not overlap -/

/-- A prefix is spelled without a colon and without an underscore. -/
theorem not_mem_spelling {c : Char} (hc : c = ':' ∨ c = '_') (p : KnownPrefix) :
    c ∉ p.spelling := by
  rcases hc with rfl | rfl <;> cases p <;> decide

/-- What a prefix is written as holds no underscore. -/
theorem underscore_not_mem_written (p : KnownPrefix) : '_' ∉ p.written := by
  rw [written, List.mem_append, List.mem_singleton]
  exact not_or.mpr ⟨not_mem_spelling (.inr rfl) p, by decide⟩

/-- No prefix is spelled as the end of another one. -/
theorem eq_of_spelling_suffix {p q : KnownPrefix} (h : q.spelling <:+ p.spelling) : q = p := by
  revert h
  cases p <;> cases q <;> decide

/-- **Prefixes overlap in no text**: one that begins inside another, whatever follows that, is
the other one and begins with it. Both end at the first colon. -/
theorem eq_written_of_begins {p q : KnownPrefix} {t rest : List Char}
    (ht : t <:+ p.written) (hne : t ≠ []) (h : q.written <+: t ++ rest) :
    q = p ∧ t = p.written := by
  obtain ⟨a, rfl, ha⟩ := (List.suffix_concat_iff.mp ht).resolve_left hne
  obtain ⟨s, hs⟩ := h
  have hcolon : q.spelling ++ ':' :: s = a ++ ':' :: rest := by
    rw [written, List.append_assoc, List.append_assoc] at hs
    exact hs
  have hplain : ∀ r : KnownPrefix, ∀ c ∈ r.spelling, (c != ':') = true := fun r c hc =>
    bne_iff_ne.mpr fun heq => not_mem_spelling (.inl rfl) r (heq ▸ hc)
  obtain ⟨rfl, -, -⟩ := eq_of_append_cons_eq (hplain q)
    (fun c hc => hplain p c (ha.subset hc)) (by decide) (by decide) hcolon
  obtain rfl := eq_of_spelling_suffix ha
  exact ⟨rfl, rfl⟩

theorem eq_of_begins_in_written {p q : KnownPrefix} {t rest : List Char}
    (ht : t <:+ p.written) (hne : t ≠ []) (h : q.written <+: t ++ rest) : q = p :=
  (eq_written_of_begins ht hne h).1

/-! ## Texts without prefixes -/

/-- **No known prefix occurs in a text**, at any place. -/
def Absent (cs : List Char) : Prop :=
  ∀ p : KnownPrefix, ¬ p.written <:+: cs

instance (cs : List Char) : Decidable (Absent cs) :=
  decidable_of_iff (∀ p ∈ all, ¬ p.written <:+: cs)
    ⟨fun h p => h p (mem_all p), fun h p _ => h p⟩

theorem Absent.of_infix {a b : List Char} (h : Absent b) (hab : a <:+: b) : Absent a :=
  fun p hp => h p (hp.trans hab)

/-- A text without a colon holds no known prefix. -/
theorem absent_of_not_mem {cs : List Char} (h : ':' ∉ cs) : Absent cs := by
  intro p hp
  have hcolon : ':' ∈ p.written := List.mem_append_right _ List.mem_cons_self
  exact h (hp.subset hcolon)

/-- **A text without known prefixes is left alone.** -/
theorem replaceAll_eq_self {cs : List Char} (h : Absent cs) : replaceAll cs = cs := by
  induction cs with
  | nil => exact replaceAll_nil
  | cons c cs ih =>
    have hnone : leading? (c :: cs) = none :=
      leading?_eq_none_iff.mpr fun p hp => h p hp.isInfix
    rw [replaceAll_cons_of_none hnone, ih (h.of_infix (List.infix_cons List.infix_rfl))]

/-! ## Characters that divide a text -/

/-- **A character divides texts** if it occurs in no known prefix. -/
def Divides (c : Char) : Prop :=
  ∀ p : KnownPrefix, c ∉ p.written

instance (c : Char) : Decidable (Divides c) :=
  decidable_of_iff (∀ p ∈ all, c ∉ p.written) ⟨fun h p => h p (mem_all p), fun h p _ => h p⟩

/-- What begins before a dividing character and does not hold it ends before it. -/
theorem prefix_of_prefix_append_cons {lead a b : List Char} {c : Char} (hc : c ∉ lead)
    (h : lead <+: a ++ c :: b) : lead <+: a := by
  have hsplit : a ++ [c] <+: a ++ c :: b := ⟨b, by simp⟩
  rcases List.prefix_or_prefix_of_prefix h hsplit with hlead | hlead
  · rcases List.prefix_concat_iff.mp hlead with rfl | hlead
    · exact absurd (List.mem_append_right a List.mem_cons_self) hc
    · exact hlead
  · exact absurd (hlead.subset (List.mem_append_right a List.mem_cons_self)) hc

/-- **The parts on both sides of a dividing character are rewritten separately.** -/
theorem replaceAll_append_cons {c : Char} (hc : Divides c) (a b : List Char) :
    replaceAll (a ++ c :: b) = replaceAll a ++ c :: replaceAll b := by
  induction a using scan_induction with
  | nil =>
    have hnone : leading? (c :: b) = none := leading?_eq_none_iff.mpr fun p hp => by
      have hnil := List.prefix_nil.mp (prefix_of_prefix_append_cons (a := []) (hc p) hp)
      cases p <;> cases hnil
    rw [List.nil_append, replaceAll_cons_of_none hnone, replaceAll_nil, List.nil_append]
  | found p rest ih =>
    rw [List.append_assoc, replaceAll_written_append, replaceAll_written_append, ih,
      List.append_assoc]
  | other d cs hnone ih =>
    -- a prefix that begins before the divider would end before it
    have hlong : leading? (d :: (cs ++ c :: b)) = none := leading?_eq_none_iff.mpr fun p hp =>
      leading?_eq_none_iff.mp hnone p (prefix_of_prefix_append_cons (hc p) hp)
    rw [List.cons_append, replaceAll_cons_of_none hlong, ih, replaceAll_cons_of_none hnone,
      List.cons_append]

/-- A text that begins with a dividing character keeps it. -/
theorem replaceAll_cons {c : Char} (hc : Divides c) (b : List Char) :
    replaceAll (c :: b) = c :: replaceAll b := by
  have happend := replaceAll_append_cons hc [] b
  rwa [replaceAll_nil, List.nil_append, List.nil_append] at happend

end KnownPrefix

/-- A text without known prefixes is left alone. -/
theorem replacePrefixes_eq_self {text : String} (h : KnownPrefix.Absent text.toList) :
    replacePrefixes text = text := by
  rw [replacePrefixes, KnownPrefix.replaceAll_eq_self h, String.ofList_toList]

@[simp] theorem toList_replacePrefixes (text : String) :
    (replacePrefixes text).toList = KnownPrefix.replaceAll text.toList :=
  String.toList_ofList

end SchemaTypings
