import SchemaTypings.Proofs.Settings.Assignment
import SchemaTypings.Proofs.Toml.ValueReading

/-!
# Settings files

When the statements of a document write an assignment (`Writes`). What a document says about
settings is the keys and values of its pairs, each behind the header that it stands under; a table
between braces in place of a group says its members (`spoken`). Every setting is said once with the
value that it is given, or not at all.

The document may have any other keys, as long as they do not meet those of settings (`Foreign`), and
they must be such that TOML takes them: without the settings, the document is one whose keys fit
together. That this is still so *with* the settings is not asked but proved. All that is asked of
them is what TOML asks of the groups: one that is begun by dotted keys has neither a header nor
braces.
-/

namespace SchemaTypings

open Toml

/-! ## What a document says -/

/-- Pairs with their keys in full, behind the header that they stand under. -/
def behind (header : List String) (pairs : List (List String × Value)) :
    List (List String × Value) :=
  pairs.map fun pair => (header ++ pair.1, pair.2)

/-- The pairs below headers, with their keys in full. -/
def below : List Statement → List (List String × Value)
  | [] => []
  | .pair _ _ :: more => below more
  | .table header :: more | .element header :: more =>
    behind header (leadingPairs more) ++ below more

/-- **The pairs of a document**, with their keys in full. -/
def stated (statements : List Statement) : List (List String × Value) :=
  leadingPairs statements ++ below statements

/-- What a pair says: a table in place of a group says its members. -/
def spread : List String × Value → List (List String × Value)
  | ([g], .table members) =>
    if g ∈ Setting.groups then members.map fun (name, v) => ([g, name], v)
    else [([g], .table members)]
  | pair => [pair]

/-- **What a document says about a key**, in all places. -/
def spoken (statements : List Statement) (key : List String) : List Value :=
  (((stated statements).flatMap spread).filter fun pair => pair.1 = key).map Prod.snd

/-! ## What is left without the settings -/

/-- The statements that are left without the settings, where the first of them stand below
`header`. -/
def othersBelow : List String → List Statement → List Statement
  | _, [] => []
  | header, .pair key v :: more =>
    if Setting.knows (header ++ key) then othersBelow header more
    else .pair key v :: othersBelow header more
  | _, .table header :: more => .table header :: othersBelow header more
  | _, .element header :: more => .element header :: othersBelow header more

/-- **A key that has nothing to do with settings**: it does not meet that of any. -/
def Foreign (key : List String) : Prop :=
  ∀ k : Setting, Apart key k.path

instance : DecidablePred Foreign := fun key =>
  decidable_of_iff (∀ k ∈ Setting.all, Apart key k.path)
    ⟨fun h k => h k (Setting.mem_all k), fun h k _ => h k⟩

/-- **The statements of a document write an assignment.** -/
structure Writes (statements : List Statement) (a : Assignment) : Prop where
  /-- What is said about a setting is what it is given, and this is said once. -/
  spoken : ∀ k : Setting, spoken statements k.path = (a.value? k).toList
  /-- Before all headers there are settings, tables between braces in place of groups, and keys that
  have nothing to do with settings. -/
  keys : ∀ pair ∈ leadingPairs statements, Setting.knows pair.1 = true ∨ Foreign pair.1
    ∨ ∃ g ∈ Setting.groups, ∃ members, pair = ([g], .table members)
  /-- Below headers there are settings and keys that have nothing to do with them. -/
  keys_below : ∀ pair ∈ below statements, Setting.knows pair.1 = true ∨ Foreign pair.1
  /-- The header of a table is that of a group or has nothing to do with settings. -/
  tables : ∀ header, .table header ∈ statements →
    Foreign header ∨ ∃ g ∈ Setting.groups, header = [g]
  /-- Arrays of tables have nothing to do with settings. -/
  elements : ∀ header, .element header ∈ statements → Foreign header
  /-- A group that is begun by the dotted keys of settings has neither a header nor braces. -/
  one_way : ∀ g ∈ Setting.groups, ∀ pair ∈ leadingPairs statements, ∀ name, pair.1 = [g, name] →
    Setting.knows [g, name] = true →
      .table [g] ∉ statements ∧ ∀ v, ([g], v) ∉ leadingPairs statements
  /-- Without the settings, the keys of the document fit together. -/
  others : (assembled (othersBelow [] statements)).isSome = true

variable {statements : List Statement} {header key : List String} {name : String} {k : Setting}

/-! ## Keys -/

/-- A key that has nothing to do with settings is none of theirs. -/
theorem Foreign.not_knows (h : Foreign key) : ¬ Setting.knows key = true := by
  intro hknown
  obtain ⟨k, rfl⟩ := Setting.knows_iff.mp hknown
  exact (h k).1 List.prefix_rfl

theorem Foreign.knows_eq_false (h : Foreign key) : Setting.knows key = false :=
  Bool.eq_false_iff.mpr h.not_knows

/-- Below such a key there are only others. -/
theorem Foreign.append (h : Foreign header) (key : List String) : Foreign (header ++ key) :=
  fun k => (h k).append_left key

theorem Foreign.behind (h : Foreign header) (pairs : List (List String × Value)) :
    ∀ pair ∈ behind header pairs, Foreign pair.1 :=
  List.forall_mem_map.mpr fun pair _ => h.append pair.1

/-- No setting is on the way to such a key. -/
theorem Foreign.knows_of_leads (h : Foreign key) (hleads : header <+: key) :
    Setting.knows header = false := by
  refine Bool.eq_false_iff.mpr fun hknown => ?_
  obtain ⟨k, rfl⟩ := Setting.knows_iff.mp hknown
  exact (h k).2 hleads

theorem not_foreign_group {g : String} (hg : g ∈ Setting.groups) : ¬ Foreign [g] := by
  intro h
  have hall : ∀ g ∈ Setting.groups, ∃ k ∈ Setting.all, [g] <+: k.path := by decide
  obtain ⟨k, -, hk⟩ := hall g hg
  exact (h k).1 hk

theorem not_foreign_nil : ¬ Foreign [] := fun h => (h .naming).1 List.nil_prefix

theorem ne_nil_of_knows (h : Setting.knows key = true) : key ≠ [] := by
  rintro rfl
  exact absurd h (by decide)

/-- A group is no setting. -/
theorem knows_group {g : String} (hg : g ∈ Setting.groups) : Setting.knows [g] = false := by
  have hall : ∀ g ∈ Setting.groups, Setting.knows [g] = false := by decide
  exact hall g hg

theorem not_knows_group {g : String} (hg : g ∈ Setting.groups) : ¬ Setting.knows [g] = true :=
  Bool.eq_false_iff.mp (knows_group hg)

/-- Below such a header no settings are left out. -/
theorem Foreign.filter_eq (h : Foreign header) (pairs : List (List String × Value)) :
    (pairs.filter fun pair => !Setting.knows (header ++ pair.1)) = pairs :=
  List.filter_eq_self.mpr fun pair _ => by rw [(h.append pair.1).knows_eq_false]; rfl

/-- A setting in a group has a name there. -/
theorem exists_name_of_knows {g : String} (hg : g ∈ Setting.groups)
    (h : Setting.knows (g :: key) = true) : ∃ name, key = [name] := by
  rcases Setting.knows_cases h with ⟨name, heq, hname⟩ | ⟨other, -, name, heq⟩
  · exact absurd (List.cons_eq_cons.mp heq).1 fun h => hname (h ▸ hg)
  · exact ⟨name, (List.cons_eq_cons.mp heq).2⟩

/-- What has nothing to do with settings in a group is below another key of it. -/
theorem Foreign.exists_part {g : String} (hg : g ∈ Setting.groups) (h : Foreign (g :: key)) :
    ∃ part more, key = part :: more ∧ Setting.knows [g, part] = false := by
  cases key with
  | nil => exact absurd h (not_foreign_group hg)
  | cons part more => exact ⟨part, more, rfl, h.knows_of_leads (List.prefix_append [g, part] more)⟩

/-! ## What is said is what is given -/

theorem leadingPairs_othersBelow (header : List String) (statements : List Statement) :
    leadingPairs (othersBelow header statements)
      = (leadingPairs statements).filter fun pair => !Setting.knows (header ++ pair.1) := by
  induction statements with
  | nil => rfl
  | cons statement more ih =>
    cases statement with
    | pair key v =>
      rw [othersBelow, leadingPairs, List.filter_cons]
      cases hknown : Setting.knows (header ++ key) with
      | false =>
        rw [if_neg (by decide), leadingPairs, ih]
        rfl
      | true =>
        rw [if_pos rfl, ih]
        rfl
    | table _ => rfl
    | element _ => rfl

/-- A setting is said as it is. -/
theorem spread_of_knows {pair : List String × Value} (h : Setting.knows pair.1 = true) :
    spread pair = [pair] := by
  unfold spread
  split
  · rename_i g members
    have hg : g ∉ Setting.groups := fun hg => not_knows_group hg h
    rw [if_neg hg]
  · rfl

/-- What a pair says is itself or a member of a group that it is. -/
theorem mem_spread {pair said : List String × Value} (h : said ∈ spread pair) :
    said = pair ∨ ∃ g ∈ Setting.groups, ∃ members, pair = ([g], .table members)
      ∧ ∃ member ∈ members, said = ([g, member.1], member.2) := by
  unfold spread at h
  split at h
  · split at h
    · rename_i hg
      obtain ⟨member, hmember, rfl⟩ := List.mem_map.mp h
      exact .inr ⟨_, hg, _, rfl, member, hmember, rfl⟩
    · exact .inl (List.mem_singleton.mp h)
  · exact .inl (List.mem_singleton.mp h)

theorem mem_spoken {v : Value} :
    v ∈ spoken statements key ↔ ∃ pair ∈ stated statements, (key, v) ∈ spread pair := by
  rw [spoken, List.mem_map]
  constructor
  · rintro ⟨⟨other, w⟩, hpair, rfl⟩
    obtain ⟨hthere, heq⟩ := List.mem_filter.mp hpair
    obtain rfl : other = key := of_decide_eq_true heq
    exact List.mem_flatMap.mp hthere
  · intro hmem
    exact ⟨(key, v), List.mem_filter.mpr ⟨List.mem_flatMap.mpr hmem, decide_eq_true rfl⟩, rfl⟩

/-- A key of a setting is stated as often at most as something is said about it. -/
theorem length_filter_le (hknown : Setting.knows key = true) (pairs : List (List String × Value)) :
    (pairs.filter fun pair => pair.1 = key).length
      ≤ ((pairs.flatMap spread).filter fun pair => pair.1 = key).length := by
  induction pairs with
  | nil => exact Nat.le_refl _
  | cons pair pairs ih =>
    rw [List.flatMap_cons, List.filter_append, List.length_append]
    by_cases hkey : pair.1 = key
    · rw [spread_of_knows (hkey ▸ hknown), List.filter_cons, List.filter_cons,
        if_pos (decide_eq_true hkey), if_pos (decide_eq_true hkey), List.length_cons,
        List.length_cons]
      omega
    · rw [List.filter_cons, if_neg fun heq => hkey (of_decide_eq_true heq)]
      omega

section Writes

variable {a : Assignment} (h : Writes statements a)
include h

/-- **No setting is stated twice.** -/
theorem Writes.once :
    (stated statements).Pairwise fun x y => Setting.knows y.1 = true → x.1 ≠ y.1 := by
  have hlength : ∀ key, Setting.knows key = true →
      ((stated statements).filter fun pair => pair.1 = key).length ≤ 1 := by
    intro key hknown
    refine Nat.le_trans (length_filter_le hknown _) ?_
    obtain ⟨k, rfl⟩ := Setting.knows_iff.mp hknown
    have hsaid := congrArg List.length (h.spoken k)
    rw [SchemaTypings.spoken, List.length_map] at hsaid
    rw [hsaid]
    cases a.value? k
    · exact Nat.zero_le 1
    · exact Nat.le_refl 1
  generalize stated statements = pairs at hlength
  induction pairs with
  | nil => exact .nil
  | cons pair pairs ih =>
    refine List.pairwise_cons.mpr ⟨fun other hother hknown heq => ?_, ih fun key hknown => ?_⟩
    · have hthere : other ∈ pairs.filter fun x => x.1 = other.1 :=
        List.mem_filter.mpr ⟨hother, decide_eq_true rfl⟩
      have htwo := hlength other.1 hknown
      rw [List.filter_cons, if_pos (decide_eq_true heq), List.length_cons] at htwo
      have hone := List.length_pos_of_mem hthere
      omega
    · refine Nat.le_trans ?_ (hlength key hknown)
      exact ((List.sublist_cons_self pair pairs).filter _).length_le

/-- In place of a group there is a table. -/
theorem Writes.exists_table {g : String} {v : Value} (hg : g ∈ Setting.groups)
    (hmem : ([g], v) ∈ stated statements) : ∃ members, v = .table members := by
  have hmeets : ¬ (Setting.knows [g] = true ∨ Foreign [g]) := by
    rintro (hknown | hforeign)
    · exact not_knows_group hg hknown
    · exact not_foreign_group hg hforeign
  rcases List.mem_append.mp hmem with hmem | hmem
  · rcases h.keys _ hmem with hknown | hforeign | ⟨other, -, members, heq⟩
    · exact absurd (.inl hknown) hmeets
    · exact absurd (.inr hforeign) hmeets
    · exact ⟨members, (Prod.mk.inj heq).2⟩
  · exact absurd (h.keys_below _ hmem) hmeets

/-- **A setting is given what some pair says about it.** -/
theorem Writes.value?_eq_some_iff {v : Value} :
    a.value? k = some v ↔ ∃ pair ∈ stated statements, (k.path, v) ∈ spread pair := by
  rw [← mem_spoken, h.spoken k, Option.mem_toList]

/-- **A setting is given what is stated of its key**, if its group does not stand between braces. -/
theorem Writes.lookup_eq (k : Setting)
    (hbraces : ∀ g name, k.path = [g, name] → ∀ v, ([g], v) ∉ stated statements) :
    (stated statements).lookup k.path = a.value? k := by
  cases hlookup : (stated statements).lookup k.path with
  | some v =>
    obtain ⟨before, behind, heq, -⟩ := List.lookup_eq_some_iff.mp hlookup
    refine (h.value?_eq_some_iff.mpr ⟨(k.path, v), by simp [heq], ?_⟩).symm
    rw [spread_of_knows (Setting.knows_iff.mpr ⟨k, rfl⟩)]
    exact List.mem_singleton_self _
  | none =>
    refine (Option.eq_none_iff_forall_ne_some.mpr fun v hv => ?_).symm
    obtain ⟨pair, hpair, hspread⟩ := h.value?_eq_some_iff.mp hv
    rcases mem_spread hspread with rfl | ⟨g, -, members, rfl, member, -, heq⟩
    · exact bne_iff_ne.mp (List.lookup_eq_none_iff.mp hlookup _ hpair) rfl
    · exact hbraces g _ (Prod.mk.inj heq).1 _ hpair

/-- **A setting is given what the table between braces says** that stands for its group. -/
theorem Writes.lookup_member {g : String} {members : List (String × Value)}
    (hg : g ∈ Setting.groups) (hpath : k.path = [g, name])
    (hthere : ([g], .table members) ∈ stated statements)
    (honly : ∀ v, ([g], v) ∈ stated statements → v = .table members)
    (hnone : (stated statements).lookup [g, name] = none) : members.lookup name = a.value? k := by
  cases hlookup : members.lookup name with
  | some v =>
    obtain ⟨before, behind, heq, -⟩ := List.lookup_eq_some_iff.mp hlookup
    refine (h.value?_eq_some_iff.mpr ⟨_, hthere, ?_⟩).symm
    rw [spread, if_pos hg, hpath, heq]
    exact List.mem_map.mpr ⟨(name, v), by simp, rfl⟩
  | none =>
    refine (Option.eq_none_iff_forall_ne_some.mpr fun v hv => ?_).symm
    obtain ⟨pair, hpair, hspread⟩ := h.value?_eq_some_iff.mp hv
    rw [hpath] at hspread
    rcases mem_spread hspread with rfl | ⟨other, -, others, rfl, member, hmember, heq⟩
    · exact bne_iff_ne.mp (List.lookup_eq_none_iff.mp hnone _ hpair) rfl
    · obtain ⟨⟨rfl, rfl⟩, rfl⟩ : (g = other ∧ name = member.1) ∧ v = member.2 := by simpa using heq
      obtain rfl := Value.table.inj (honly _ hpair)
      exact bne_iff_ne.mp (List.lookup_eq_none_iff.mp hlookup _ hmember) rfl

end Writes

end SchemaTypings
