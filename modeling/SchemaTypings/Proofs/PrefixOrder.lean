import Mathlib.Data.List.Nodup
import SchemaTypings.Proofs.PrefixScan

/-!
# Prefixes replaced one after another

One pass over a text replaces all known prefixes at once. The alternative is one pass for each
of them, in some order. `replaceOnly` is a pass that looks for some of the prefixes, and
`replaceInTurn` replaces them one after another.

Two passes come to one if the first of them does not take `xsd:` away
(`replaceOnly_replaceOnly`): a prefix that only trades its colon for an underscore brings
nothing together that was apart. Taking `xsd:` away does. What stood before it and what stood
after it meet, and if another prefix is looked for later, it may be found there: `txsd:ns:A`
holds no `tns:` until `xsd:` is gone (`replaceInTurn_makes_prefix`). So an order agrees with
the one pass on a text exactly if that pass leaves none of the prefixes whose turn comes after
`xsd:` (`replaceInTurn_eq_iff`), and on every text exactly if `xsd:` comes last.
-/

namespace SchemaTypings

namespace KnownPrefix

/-! ## A pass for some of the prefixes -/

/-- The prefix, among some, that a text begins with, and what follows its colon. -/
def leadingAmong? (ps : List KnownPrefix) (cs : List Char) : Option (KnownPrefix × List Char) :=
  ps.findSome? fun p => (p.written.isPrefixOf? cs).map (p, ·)

theorem of_leadingAmong? {ps : List KnownPrefix} {cs rest : List Char} {p : KnownPrefix}
    (h : leadingAmong? ps cs = some (p, rest)) : p ∈ ps ∧ cs = p.written ++ rest := by
  obtain ⟨q, hq, hfound⟩ := List.exists_of_findSome?_eq_some h
  obtain ⟨r, hr, heq⟩ := Option.map_eq_some_iff.mp hfound
  obtain ⟨rfl, rfl⟩ := Prod.mk.injEq .. ▸ heq
  exact ⟨hq, eq_append_of_isPrefixOf? hr⟩

theorem length_lt_of_leadingAmong? {ps : List KnownPrefix} {cs rest : List Char}
    {p : KnownPrefix} (h : leadingAmong? ps cs = some (p, rest)) : rest.length < cs.length := by
  rw [(of_leadingAmong? h).2, written]
  simp only [List.length_append, List.length_singleton]
  omega

/-- **Replacing some of the prefixes of a text**: from left to right, every one of them with its
colon gives way to its replacement, and every other character stays. -/
def replaceOnly (ps : List KnownPrefix) (cs : List Char) : List Char :=
  match _found : leadingAmong? ps cs with
  | some (p, rest) => p.replacement ++ replaceOnly ps rest
  | none =>
    match cs with
    | [] => []
    | c :: cs => c :: replaceOnly ps cs
termination_by cs.length
decreasing_by
  · exact length_lt_of_leadingAmong? _found
  · simp

/-- **Replacing prefixes one after another**, each of them in the whole text before the next. -/
def replaceInTurn (order : List KnownPrefix) (cs : List Char) : List Char :=
  order.foldl (fun cs p => replaceOnly [p] cs) cs

variable {ps qs : List KnownPrefix}

/-- A prefix that is looked for is found, whatever follows its colon. -/
theorem leadingAmong?_written_append {p : KnownPrefix} (hp : p ∈ ps) (rest : List Char) :
    leadingAmong? ps (p.written ++ rest) = some (p, rest) := by
  cases hfound : leadingAmong? ps (p.written ++ rest) with
  | none =>
    have hrest : p.written.isPrefixOf? (p.written ++ rest) = some rest := by cases p <;> rfl
    have hnone := List.findSome?_eq_none_iff.mp hfound p hp
    rw [hrest] at hnone
    cases hnone
  | some found =>
    obtain ⟨q, rest'⟩ := found
    -- no text begins with two prefixes
    have hsame := leading?_written_append p rest
    rw [(of_leadingAmong? hfound).2, leading?_written_append q rest'] at hsame
    exact hsame

/-- Where none of the prefixes is found, none of them stands. -/
theorem leadingAmong?_eq_none_iff {cs : List Char} :
    leadingAmong? ps cs = none ↔ ∀ p ∈ ps, ¬ p.written <+: cs := by
  constructor
  · rintro hnone p hp ⟨rest, rfl⟩
    rw [leadingAmong?_written_append hp] at hnone
    cases hnone
  · intro hall
    cases hfound : leadingAmong? ps cs with
    | none => rfl
    | some found =>
      obtain ⟨p, rest⟩ := found
      obtain ⟨hp, rfl⟩ := of_leadingAmong? hfound
      exact absurd (List.prefix_append _ _) (hall p hp)

@[simp] theorem replaceOnly_nil : replaceOnly ps [] = [] := by
  have hnone : leadingAmong? ps [] = none :=
    leadingAmong?_eq_none_iff.mpr fun p _ hp => by cases p <;> cases List.prefix_nil.mp hp
  rw [replaceOnly]
  split
  · rename_i hfound
    rw [hnone] at hfound
    cases hfound
  · rfl

/-- A prefix that is looked for gives way to its replacement. -/
theorem replaceOnly_of_mem {p : KnownPrefix} (hp : p ∈ ps) (rest : List Char) :
    replaceOnly ps (p.written ++ rest) = p.replacement ++ replaceOnly ps rest := by
  rw [replaceOnly]
  split
  · rename_i hfound
    rw [leadingAmong?_written_append hp] at hfound
    cases hfound
    rfl
  · rename_i hfound
    rw [leadingAmong?_written_append hp] at hfound
    cases hfound

/-- Where none of the prefixes stands, a character stays. -/
theorem replaceOnly_cons {c : Char} {cs : List Char} (h : ∀ p ∈ ps, ¬ p.written <+: c :: cs) :
    replaceOnly ps (c :: cs) = c :: replaceOnly ps cs := by
  rw [replaceOnly]
  split
  · rename_i hfound
    rw [leadingAmong?_eq_none_iff.mpr h] at hfound
    cases hfound
  · rfl

/-- A stretch stays if none of the prefixes begins in it. -/
theorem replaceOnly_append {a rest : List Char}
    (h : ∀ t, t <:+ a → t ≠ [] → ∀ p ∈ ps, ¬ p.written <+: t ++ rest) :
    replaceOnly ps (a ++ rest) = a ++ replaceOnly ps rest := by
  induction a with
  | nil => rfl
  | cons c a ih =>
    have hhere : ∀ p ∈ ps, ¬ p.written <+: c :: (a ++ rest) :=
      h (c :: a) List.suffix_rfl (List.cons_ne_nil c a)
    rw [List.cons_append, replaceOnly_cons hhere,
      ih fun t ht => h t (ht.trans (List.suffix_cons c a)), List.cons_append]

/-! ## Replacements -/

theorem replacement_eq_marker {p : KnownPrefix} (h : p ≠ xsd) : p.replacement = p.marker := by
  cases p with
  | xsd => exact absurd rfl h
  | _ => rfl

/-- **No prefix begins in a replacement**, which ends in an underscore or is nothing. -/
theorem not_begins_in_replacement {p q : KnownPrefix} {t rest : List Char}
    (ht : t <:+ p.replacement) (hne : t ≠ []) : ¬ q.written <+: t ++ rest := by
  intro h
  by_cases hp : p = xsd
  · subst hp
    exact hne (List.suffix_nil.mp ht)
  · rw [replacement_eq_marker hp] at ht
    obtain ⟨a, rfl, ha⟩ := (List.suffix_concat_iff.mp ht).resolve_left hne
    rw [List.append_assoc] at h
    have hbefore := prefix_of_prefix_append_cons (underscore_not_mem_written q) h
    have hcolon : ':' ∈ q.written := List.mem_append_right _ List.mem_cons_self
    exact not_mem_spelling (.inl rfl) p (ha.subset (hbefore.subset hcolon))

/-- A prefix that is not looked for stays. -/
theorem replaceOnly_of_not_mem {p : KnownPrefix} (hp : p ∉ ps) (rest : List Char) :
    replaceOnly ps (p.written ++ rest) = p.written ++ replaceOnly ps rest :=
  replaceOnly_append fun _ ht hne _ hq h => hp (eq_of_begins_in_written ht hne h ▸ hq)

/-- A replacement stays. -/
theorem replaceOnly_replacement_append (p : KnownPrefix) (rest : List Char) :
    replaceOnly ps (p.replacement ++ rest) = p.replacement ++ replaceOnly ps rest :=
  replaceOnly_append fun _ ht hne _ _ => not_begins_in_replacement ht hne

/-- Where no prefix at all stands, a character stays. -/
theorem replaceOnly_cons_of_none {c : Char} {cs : List Char} (h : leading? (c :: cs) = none) :
    replaceOnly ps (c :: cs) = c :: replaceOnly ps cs :=
  replaceOnly_cons fun p _ => leading?_eq_none_iff.mp h p

/-- A pass for nothing leaves a text alone. -/
theorem replaceOnly_none (cs : List Char) : replaceOnly [] cs = cs := by
  induction cs with
  | nil => exact replaceOnly_nil
  | cons c cs ih => rw [replaceOnly_cons fun p hp => absurd hp List.not_mem_nil, ih]

/-- **A pass for all prefixes is the one pass.** -/
theorem replaceOnly_of_forall_mem (h : ∀ p, p ∈ ps) (cs : List Char) :
    replaceOnly ps cs = replaceAll cs := by
  induction cs using scan_induction with
  | nil => rw [replaceOnly_nil, replaceAll_nil]
  | found p rest ih => rw [replaceOnly_of_mem (h p), replaceAll_written_append, ih]
  | other c cs hnone ih => rw [replaceOnly_cons_of_none hnone, replaceAll_cons_of_none hnone, ih]

/-! ## What a pass brings together -/

/-- What begins a text whose beginning is exchanged: it lies in the part that stays, or it goes
on in the part that changes. -/
theorem prefix_append_of_prefix_append {lead a b c : List Char} (h : lead <+: a ++ b)
    (hmore : ∀ more, lead = a ++ more → more <+: b → more <+: c) : lead <+: a ++ c := by
  rcases List.prefix_or_prefix_of_prefix h (List.prefix_append a b) with hlead | ⟨more, rfl⟩
  · exact hlead.trans (List.prefix_append a c)
  · exact List.prefix_append_right_inj a |>.mpr
      (hmore more rfl ((List.prefix_append_right_inj a).mp h))

/-- What begins a replacement and holds no underscore is part of the spelling. -/
theorem prefix_spelling_of_prefix_replacement {lead rest : List Char} {p : KnownPrefix}
    (hne : p ≠ xsd) (hlead : '_' ∉ lead) (h : lead <+: p.replacement ++ rest) :
    lead <+: p.spelling := by
  rw [replacement_eq_marker hne, marker, List.append_assoc] at h
  exact prefix_of_prefix_append_cons hlead h

/-- What begins a prefix but does not hold all of it is part of the spelling. -/
theorem prefix_spelling_of_prefix_written {lead rest : List Char} {p : KnownPrefix}
    (hnot : ¬ p.written <+: lead) (h : lead <+: p.written ++ rest) : lead <+: p.spelling := by
  have hwritten : lead <+: p.written :=
    (List.prefix_or_prefix_of_prefix h (List.prefix_append _ _)).resolve_right hnot
  exact (List.prefix_concat_iff.mp hwritten).resolve_left fun heq => hnot (heq ▸ List.prefix_rfl)

/-- **What begins a text after one pass begins it after another**, if both of them take `xsd:`
away or neither does: the other prefixes trade no more than their colon. What the second pass
replaces and the first does not must not occur in what begins the text. -/
theorem prefix_replaceOnly_of_prefix {lead : List Char} (hxsd : xsd ∈ ps ↔ xsd ∈ qs)
    (hlead : '_' ∉ lead) (hfree : ∀ q ∈ qs, q ∉ ps → ¬ q.written <:+: lead) {cs : List Char}
    (h : lead <+: replaceOnly ps cs) : lead <+: replaceOnly qs cs := by
  induction cs using scan_induction generalizing lead with
  | nil =>
    rw [replaceOnly_nil] at h ⊢
    exact h
  | found p rest ih =>
    -- where both passes do the same, what begins the text may go on behind it
    have hsame : ∀ a, lead <+: a ++ replaceOnly ps rest → lead <+: a ++ replaceOnly qs rest := by
      intro a ha
      refine prefix_append_of_prefix_append ha fun more hmore hprefix => ?_
      subst hmore
      exact ih (fun hmem => hlead (List.mem_append_right a hmem))
        (fun q hq hnot hin => hfree q hq hnot (hin.trans (List.suffix_append a more).isInfix))
        hprefix
    by_cases hps : p ∈ ps
    · rw [replaceOnly_of_mem hps] at h
      by_cases hqs : p ∈ qs
      · rw [replaceOnly_of_mem hqs]
        exact hsame _ h
      · have hne : p ≠ xsd := fun heq => hqs (heq ▸ hxsd.mp (heq ▸ hps))
        rw [replaceOnly_of_not_mem hqs, written, List.append_assoc]
        exact (prefix_spelling_of_prefix_replacement hne hlead h).trans (List.prefix_append _ _)
    · rw [replaceOnly_of_not_mem hps] at h
      by_cases hqs : p ∈ qs
      · have hne : p ≠ xsd := fun heq => hps (heq ▸ hxsd.mpr (heq ▸ hqs))
        have hnot : ¬ p.written <+: lead := fun hp => hfree p hqs hps hp.isInfix
        rw [replaceOnly_of_mem hqs, replacement_eq_marker hne, marker, List.append_assoc]
        exact (prefix_spelling_of_prefix_written hnot h).trans (List.prefix_append _ _)
      · rw [replaceOnly_of_not_mem hqs]
        exact hsame _ h
  | other c cs hnone ih =>
    rw [replaceOnly_cons_of_none hnone] at h ⊢
    cases lead with
    | nil => exact List.nil_prefix
    | cons d lead =>
      obtain ⟨rfl, htail⟩ := List.cons_prefix_cons.mp h
      exact List.cons_prefix_cons.mpr ⟨rfl, ih (fun hmem => hlead (List.mem_cons_of_mem _ hmem))
        (fun q hq hnot hin => hfree q hq hnot (hin.trans (List.suffix_cons _ lead).isInfix))
        htail⟩

/-- **A pass that leaves `xsd:` alone makes no prefix**: one that stands after the pass stood
there before. -/
theorem written_prefix_of_prefix_replaceOnly (hxsd : xsd ∉ ps) {q : KnownPrefix}
    {cs : List Char} (h : q.written <+: replaceOnly ps cs) : q.written <+: cs := by
  have hnothing : q.written <+: replaceOnly [] cs :=
    prefix_replaceOnly_of_prefix
      ⟨fun hmem => absurd hmem hxsd, fun hmem => absurd hmem List.not_mem_nil⟩
      (underscore_not_mem_written q) (fun p hp => absurd hp List.not_mem_nil) h
  rwa [replaceOnly_none] at hnothing

/-! ## Two passes -/

/-- A prefix is treated by two passes as it is by one for both. -/
theorem replaceOnly_replaceOnly_written_append {rest : List Char} (p : KnownPrefix)
    (ih : replaceOnly qs (replaceOnly ps rest) = replaceOnly (ps ++ qs) rest) :
    replaceOnly qs (replaceOnly ps (p.written ++ rest))
      = replaceOnly (ps ++ qs) (p.written ++ rest) := by
  by_cases hps : p ∈ ps
  · rw [replaceOnly_of_mem hps, replaceOnly_of_mem (List.mem_append_left qs hps),
      replaceOnly_replacement_append, ih]
  · rw [replaceOnly_of_not_mem hps]
    by_cases hqs : p ∈ qs
    · rw [replaceOnly_of_mem hqs, replaceOnly_of_mem (List.mem_append_right ps hqs), ih]
    · rw [replaceOnly_of_not_mem hqs,
        replaceOnly_of_not_mem fun hmem => (List.mem_append.mp hmem).elim hps hqs, ih]

/-- **Two passes come to one** if the first leaves `xsd:` alone. -/
theorem replaceOnly_replaceOnly (hxsd : xsd ∉ ps) (qs : List KnownPrefix) (cs : List Char) :
    replaceOnly qs (replaceOnly ps cs) = replaceOnly (ps ++ qs) cs := by
  induction cs using scan_induction with
  | nil => rw [replaceOnly_nil, replaceOnly_nil, replaceOnly_nil]
  | found p rest ih => exact replaceOnly_replaceOnly_written_append p ih
  | other c cs hnone ih =>
    have hhere : ∀ q ∈ qs, ¬ q.written <+: c :: replaceOnly ps cs := by
      intro q _ hq
      rw [← replaceOnly_cons_of_none hnone] at hq
      exact leading?_eq_none_iff.mp hnone q (written_prefix_of_prefix_replaceOnly hxsd hq)
    rw [replaceOnly_cons_of_none hnone, replaceOnly_cons hhere, ih,
      replaceOnly_cons_of_none hnone]

/-- What stands in a text begins in its first part, or it stands in its second. -/
theorem infix_append_cases {lead a b : List Char} (h : lead <:+: a ++ b) :
    (∃ t, t <:+ a ∧ t ≠ [] ∧ lead <+: t ++ b) ∨ lead <:+: b := by
  induction a with
  | nil => exact .inr h
  | cons c a ih =>
    rcases List.infix_cons_iff.mp h with hhere | hlater
    · exact .inl ⟨c :: a, List.suffix_rfl, List.cons_ne_nil c a, hhere⟩
    · exact (ih hlater).imp_left fun ⟨t, ht, hne, hlead⟩ =>
        ⟨t, ht.trans (List.suffix_cons c a), hne, hlead⟩

theorem written_ne_nil (p : KnownPrefix) : p.written ≠ [] :=
  List.append_ne_nil_of_right_ne_nil _ (List.cons_ne_nil _ _)

/-- No prefix stands in another one behind its first character. -/
theorem not_infix_of_written_eq_cons {p q : KnownPrefix} {c : Char} {lead : List Char}
    (h : p.written = c :: lead) : ¬ q.written <:+: lead := by
  intro hin
  rcases infix_append_cases (b := []) ((List.append_nil lead).symm ▸ hin) with
    ⟨t, ht, hne, hbegins⟩ | hnil
  · have hsame : q = p :=
      eq_of_begins_in_written (ht.trans (h ▸ List.suffix_cons c lead)) hne hbegins
    have hlength := hin.length_le
    rw [hsame, h, List.length_cons] at hlength
    exact Nat.not_succ_le_self _ hlength
  · exact written_ne_nil q (List.infix_nil.mp hnil)

/-- **A pass that leaves `xsd:` alone leaves none of its prefixes.** -/
theorem not_infix_replaceOnly (hxsd : xsd ∉ ps) {p : KnownPrefix} (hp : p ∈ ps)
    (cs : List Char) : ¬ p.written <:+: replaceOnly ps cs := by
  intro h
  induction cs using scan_induction with
  | nil =>
    rw [replaceOnly_nil] at h
    exact written_ne_nil p (List.infix_nil.mp h)
  | found q rest ih =>
    by_cases hq : q ∈ ps
    · rw [replaceOnly_of_mem hq] at h
      rcases infix_append_cases h with ⟨t, ht, hne, hbegins⟩ | hlater
      · exact not_begins_in_replacement ht hne hbegins
      · exact ih hlater
    · rw [replaceOnly_of_not_mem hq] at h
      rcases infix_append_cases h with ⟨t, ht, hne, hbegins⟩ | hlater
      · exact hq (eq_of_begins_in_written ht hne hbegins ▸ hp)
      · exact ih hlater
  | other c cs hnone ih =>
    rw [replaceOnly_cons_of_none hnone] at h
    rcases List.infix_cons_iff.mp h with hhere | hlater
    · rw [← replaceOnly_cons_of_none hnone] at hhere
      exact leading?_eq_none_iff.mp hnone p (written_prefix_of_prefix_replaceOnly hxsd hhere)
    · exact ih hlater

/-- **Two passes come to one on a text** exactly if the one pass for both leaves nothing that
the second of them looks for. -/
theorem replaceOnly_replaceOnly_eq_iff (hps : xsd ∈ ps) (hqs : xsd ∉ qs) (cs : List Char) :
    replaceOnly qs (replaceOnly ps cs) = replaceOnly (ps ++ qs) cs
      ↔ ∀ q ∈ qs, ¬ q.written <:+: replaceOnly (ps ++ qs) cs := by
  refine ⟨fun heq q hq => heq ▸ not_infix_replaceOnly hqs hq _, fun hleft => ?_⟩
  have hxsd : xsd ∈ ps ↔ xsd ∈ ps ++ qs :=
    ⟨List.mem_append_left qs, fun _ => hps⟩
  induction cs using scan_induction with
  | nil => rw [replaceOnly_nil, replaceOnly_nil, replaceOnly_nil]
  | found p rest ih =>
    refine replaceOnly_replaceOnly_written_append p (ih fun q hq hin => hleft q hq ?_)
    by_cases hmem : p ∈ ps ++ qs
    · rw [replaceOnly_of_mem hmem]
      exact hin.trans (List.suffix_append _ _).isInfix
    · rw [replaceOnly_of_not_mem hmem]
      exact hin.trans (List.suffix_append _ _).isInfix
  | other c cs hnone ih =>
    rw [replaceOnly_cons_of_none hnone] at hleft
    have hhere : ∀ q ∈ qs, ¬ q.written <+: c :: replaceOnly ps cs := by
      intro q hq hbegins
      obtain ⟨d, lead, hlead⟩ := List.exists_cons_of_ne_nil (written_ne_nil q)
      rw [hlead] at hbegins
      obtain ⟨rfl, htail⟩ := List.cons_prefix_cons.mp hbegins
      -- what the first pass has brought together is there after the pass for both
      have hplain : '_' ∉ lead := fun hmem =>
        underscore_not_mem_written q (hlead ▸ List.mem_cons_of_mem d hmem)
      have hboth : lead <+: replaceOnly (ps ++ qs) cs :=
        prefix_replaceOnly_of_prefix hxsd hplain
          (fun _ _ _ => not_infix_of_written_eq_cons hlead) htail
      refine hleft q hq (List.IsPrefix.isInfix ?_)
      rw [hlead]
      exact List.cons_prefix_cons.mpr ⟨rfl, hboth⟩
    rw [replaceOnly_cons_of_none hnone, replaceOnly_cons hhere,
      ih fun q hq hin => hleft q hq (hin.trans (List.suffix_cons c _).isInfix),
      replaceOnly_cons_of_none hnone]

/-! ## One after another -/

/-- **In any order** the prefixes other than `xsd:` are replaced as if at once. -/
theorem replaceInTurn_of_not_mem {order : List KnownPrefix} (h : xsd ∉ order) (cs : List Char) :
    replaceInTurn order cs = replaceOnly order cs := by
  induction order generalizing cs with
  | nil => rw [replaceOnly_none, replaceInTurn, List.foldl_nil]
  | cons p order ih =>
    obtain ⟨hp, horder⟩ := not_or.mp (mt List.mem_cons.mpr h)
    have hfirst : xsd ∉ [p] := mt List.mem_singleton.mp hp
    calc replaceInTurn (p :: order) cs = replaceInTurn order (replaceOnly [p] cs) := rfl
      _ = replaceOnly order (replaceOnly [p] cs) := ih horder _
      _ = replaceOnly (p :: order) cs := replaceOnly_replaceOnly hfirst order cs

/-- What is replaced before `xsd:` is replaced together with it, and what comes after it in a
second pass. -/
theorem replaceInTurn_append_xsd_cons {before after : List KnownPrefix} (hbefore : xsd ∉ before)
    (hafter : xsd ∉ after) (cs : List Char) :
    replaceInTurn (before ++ xsd :: after) cs
      = replaceOnly after (replaceOnly (before ++ [xsd]) cs) := by
  calc replaceInTurn (before ++ xsd :: after) cs
      = replaceInTurn after (replaceOnly [xsd] (replaceInTurn before cs)) := List.foldl_append
    _ = replaceOnly after (replaceOnly (before ++ [xsd]) cs) := by
      rw [replaceInTurn_of_not_mem hafter, replaceInTurn_of_not_mem hbefore,
        replaceOnly_replaceOnly hbefore]

/-- **Taking `xsd:` away makes any prefix**, if it stands behind the first character of one. -/
theorem replaceAll_parted {p : KnownPrefix} {c : Char} {lead : List Char}
    (h : p.written = c :: lead) : replaceAll (c :: (xsd.written ++ lead)) = p.written := by
  have hnone : leading? (c :: (xsd.written ++ lead)) = none := by
    cases p <;> (obtain ⟨rfl, rfl⟩ := List.cons_eq_cons.mp h; rfl)
  have habsent : Absent lead := fun _ => not_infix_of_written_eq_cons h
  rw [replaceAll_cons_of_none hnone, replaceAll_written_append, replaceAll_eq_self habsent, h]
  rfl

end KnownPrefix

open KnownPrefix

/-- **Prefixes replaced one after another.** In an order of all prefixes they are replaced as in
the one pass exactly if that pass leaves none of those whose turn comes after `xsd:`. So the
orders that agree with the one pass on every text are those in which `xsd:` comes last. -/
theorem replaceInTurn_eq_iff {before after : List KnownPrefix}
    (h : (before ++ xsd :: after).Perm all) :
    (∀ text : String,
      String.ofList (replaceInTurn (before ++ xsd :: after) text.toList) = replacePrefixes text
        ↔ ∀ p ∈ after, ¬ p.written <:+: (replacePrefixes text).toList)
      ∧ ((∀ text : String, String.ofList (replaceInTurn (before ++ xsd :: after) text.toList)
          = replacePrefixes text) ↔ after = []) := by
  have hnodup : (before ++ xsd :: after).Nodup := h.nodup_iff.mpr (by decide)
  obtain ⟨hbefore, hafter⟩ :=
    not_or.mp (mt List.mem_append.mpr (List.nodup_cons.mp (List.nodup_middle.mp hnodup)).1)
  have hall : ∀ p, p ∈ before ++ [xsd] ++ after := fun p => by
    rw [List.append_assoc]
    exact h.mem_iff.mpr (mem_all p)
  have htext : ∀ text : String,
      String.ofList (replaceInTurn (before ++ xsd :: after) text.toList) = replacePrefixes text
        ↔ ∀ p ∈ after, ¬ p.written <:+: (replacePrefixes text).toList := by
    intro text
    rw [replacePrefixes, String.ofList_inj, String.toList_ofList,
      replaceInTurn_append_xsd_cons hbefore hafter, ← replaceOnly_of_forall_mem hall]
    exact replaceOnly_replaceOnly_eq_iff (List.mem_append_right _ (List.mem_singleton_self _))
      hafter text.toList
  refine ⟨htext, fun hagree => ?_, ?_⟩
  · by_contra hne
    obtain ⟨p, more, rfl⟩ := List.exists_cons_of_ne_nil hne
    obtain ⟨c, lead, hlead⟩ := List.exists_cons_of_ne_nil (written_ne_nil p)
    have hnot := (htext (String.ofList (c :: (xsd.written ++ lead)))).mp (hagree _) p
      List.mem_cons_self
    rw [toList_replacePrefixes, String.toList_ofList, replaceAll_parted hlead] at hnot
    exact hnot List.infix_rfl
  · rintro rfl text
    exact (htext text).mpr fun p hp => absurd hp List.not_mem_nil

/-- With `xsd:` first, `xsd:tns:A` comes out as from the one pass, and `txsd:ns:A` does not. -/
theorem replaceInTurn_eq_iff_xsd_first :
    String.ofList (replaceInTurn all "xsd:tns:A".toList) = replacePrefixes "xsd:tns:A"
      ∧ String.ofList (replaceInTurn all "txsd:ns:A".toList) ≠ replacePrefixes "txsd:ns:A" := by
  obtain ⟨htext, -⟩ :=
    replaceInTurn_eq_iff (.refl ([] ++ xsd :: [tns, ens, mns, fns, soap, xmlns]))
  have hplain : replacePrefixes "xsd:tns:A" = "tns_A" := by cbv
  have hmade : replacePrefixes "txsd:ns:A" = "tns:A" := by cbv
  refine ⟨(htext "xsd:tns:A").mpr ?_, fun heq => (htext "txsd:ns:A").mp heq tns ?_ ?_⟩
  · rw [hplain]
    decide
  · exact List.mem_cons_self
  · rw [hmade]
    decide

/-- **The order matters.** In `txsd:ns:A` no `tns:` stands until `xsd:` is taken away: one pass
leaves the one that comes about, and passes in turn, with `xsd:` first, replace it. -/
theorem replaceInTurn_makes_prefix :
    String.ofList (replaceInTurn all "txsd:ns:A".toList) = "tns_A"
      ∧ replacePrefixes "txsd:ns:A" = "tns:A"
      ∧ ¬ ∀ (text : String) (order : List KnownPrefix), order.Perm all →
        replacePrefixes text = String.ofList (replaceInTurn order text.toList) := by
  have hturn : String.ofList (replaceInTurn all "txsd:ns:A".toList) = "tns_A" := by cbv
  have honce : replacePrefixes "txsd:ns:A" = "tns:A" := by cbv
  refine ⟨hturn, honce, fun hall => ?_⟩
  have hsame := hall "txsd:ns:A" all (.refl all)
  rw [hturn, honce] at hsame
  exact absurd hsame (by decide)

end SchemaTypings
