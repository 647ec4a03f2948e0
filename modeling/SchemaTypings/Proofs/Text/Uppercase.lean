import SchemaTypings.Text.Uppercase

/-!
# What capitals are made of

The capital of a code point is listed, or it is computed by the run that covers the code point,
or there is none and the code point stands for itself (`upperCodes_cases`). A statement about
all capitals is therefore checked on the two tables. Two are made here: capitalizing leaves no
name empty (`capitalized_eq_empty_iff`), and a character that the tables do not mention occurs in
a capitalized name exactly if it occurs in the name (`mem_capitalized_iff`). And a capital begins
with a character that is its own capital, so a name that was capitalized stays as it is when it is
capitalized once more (`capitalized_capitalized`).
-/

namespace SchemaTypings.Text

/-- **Where the capital of a code point comes from.** -/
theorem upperCodes_cases (code : Nat) :
    (∃ codes, (code, codes) ∈ longCapitals ∧ upperCodes code = codes)
      ∨ (∃ run ∈ caseRuns, run.covers code = true ∧ upperCodes code = [run.capital code])
      ∨ upperCodes code = [code] := by
  unfold upperCodes
  cases hlong : longCapitals.lookup code with
  | some codes =>
    obtain ⟨before, after, htable, -⟩ := List.lookup_eq_some_iff.mp hlong
    exact .inl ⟨codes, htable ▸ List.mem_append_right _ List.mem_cons_self, rfl⟩
  | none =>
    cases hrun : caseRuns.find? (·.covers code) with
    | some run =>
      have hcovers := List.find?_some hrun
      exact .inr (.inl ⟨run, List.mem_of_find?_eq_some hrun, hcovers, rfl⟩)
    | none => exact .inr (.inr rfl)

/-- Every character has a capital, be it its own. -/
theorem upper_ne_nil (c : Char) : upper c ≠ [] := by
  have hlisted : ∀ entry ∈ longCapitals, entry.2 ≠ [] := by decide
  unfold upper
  rw [ne_eq, List.map_eq_nil_iff]
  rcases upperCodes_cases c.toNat with ⟨codes, hmem, hcodes⟩ | ⟨run, -, -, hcodes⟩ | hcodes
  · exact hcodes ▸ hlisted _ hmem
  · exact hcodes ▸ List.cons_ne_nil _ _
  · exact hcodes ▸ List.cons_ne_nil _ _

theorem toList_capitalized_cons {name : String} {c : Char} {cs : List Char}
    (h : name.toList = c :: cs) : (capitalized name).toList = upper c ++ cs := by
  unfold capitalized
  rw [h]
  exact String.toList_ofList

/-- **Capitalizing leaves a name empty exactly if it is.** -/
theorem capitalized_eq_empty_iff {name : String} : capitalized name = "" ↔ name = "" := by
  cases hname : name.toList with
  | nil =>
    obtain rfl := String.toList_eq_nil_iff.mp hname
    exact Iff.rfl
  | cons c cs =>
    have hchars := toList_capitalized_cons hname
    refine iff_of_false (fun hempty => ?_) (fun hempty => ?_)
    · rw [hempty] at hchars
      exact upper_ne_nil c (List.append_eq_nil_iff.mp hchars.symm).1
    · rw [hempty] at hname
      cases hname

/-! ## Characters without case -/

/-- Whether a code point is neither a small letter nor a capital of a run. -/
def CaseRun.avoids (r : CaseRun) (code : Nat) : Bool :=
  !(r.first ≤ code && code ≤ r.last)
    && !((r.first : Int) + r.shift ≤ code && (code : Int) ≤ r.last + r.shift)

/-- **A code point without case**: the tables mention it neither as a small letter nor among
the capitals. -/
def Uncased (code : Nat) : Prop :=
  0 < code ∧ (∀ entry ∈ longCapitals, entry.1 ≠ code ∧ code ∉ entry.2)
    ∧ ∀ run ∈ caseRuns, run.avoids code = true

instance : DecidablePred Uncased :=
  fun code => inferInstanceAs (Decidable (0 < code
    ∧ (∀ entry ∈ longCapitals, entry.1 ≠ code ∧ code ∉ entry.2)
    ∧ ∀ run ∈ caseRuns, run.avoids code = true))

/-- A run that avoids a code point neither covers it nor has it for a capital. -/
theorem CaseRun.not_covers_and_capital_ne {r : CaseRun} {code : Nat} (h : r.avoids code = true) :
    ¬ r.covers code = true
      ∧ ∀ small, r.covers small = true → 0 < code → r.capital small ≠ code := by
  simp only [avoids, Bool.and_eq_true, Bool.not_eq_true', Bool.and_eq_false_iff,
    decide_eq_false_iff_not] at h
  simp only [covers, capital, Bool.and_eq_true, decide_eq_true_eq]
  constructor
  · omega
  · rintro small ⟨⟨hfirst, hlast⟩, -⟩ hpos
    omega

/-- A code point that stands for a character other than the null character is its code point. -/
theorem eq_toNat_of_ofNat_eq {code : Nat} {c : Char} (h : Char.ofNat code = c)
    (hpos : 0 < c.toNat) : code = c.toNat := by
  -- a code point that no character has becomes the null character
  by_cases hvalid : code.isValidChar
  · rw [Char.ofNat, dif_pos hvalid] at h
    rw [← h]
    rfl
  · rw [Char.ofNat, dif_neg hvalid] at h
    rw [← h] at hpos
    exact absurd hpos (by decide)

/-- **A code point without case is in no capital but its own.** -/
theorem mem_upperCodes_iff {code : Nat} (h : Uncased code) (small : Nat) :
    code ∈ upperCodes small ↔ small = code := by
  obtain ⟨hpos, hlisted, hruns⟩ := h
  rcases upperCodes_cases small with ⟨codes, hmem, hcodes⟩ | ⟨run, hrun, hcovers, hcodes⟩ | hcodes
  · rw [hcodes]
    exact iff_of_false (hlisted _ hmem).2 (hlisted _ hmem).1
  · obtain ⟨hnot, hcapital⟩ := CaseRun.not_covers_and_capital_ne (hruns run hrun)
    rw [hcodes, List.mem_singleton]
    exact iff_of_false (hcapital small hcovers hpos).symm (fun heq => hnot (heq ▸ hcovers))
  · rw [hcodes, List.mem_singleton]
    exact eq_comm

/-- A character without case is in no capital but its own. -/
theorem mem_upper_iff {c : Char} (h : Uncased c.toNat) (small : Char) :
    c ∈ upper small ↔ small = c := by
  unfold upper
  rw [List.mem_map]
  constructor
  · rintro ⟨code, hcode, hc⟩
    rw [eq_toNat_of_ofNat_eq hc h.1, mem_upperCodes_iff h] at hcode
    exact Char.toNat_inj.mp hcode
  · rintro rfl
    exact ⟨small.toNat, (mem_upperCodes_iff h _).mpr rfl, Char.ofNat_toNat small⟩

/-- **Capitalizing neither adds nor takes away a character without case.** -/
theorem mem_capitalized_iff {c : Char} (h : Uncased c.toNat) (name : String) :
    c ∈ (capitalized name).toList ↔ c ∈ name.toList := by
  cases hname : name.toList with
  | nil =>
    obtain rfl := String.toList_eq_nil_iff.mp hname
    exact Iff.rfl
  | cons d cs =>
    rw [toList_capitalized_cons hname, List.mem_append, mem_upper_iff h, List.mem_cons, eq_comm]

/-! ## Capitals of capitals -/

/-- Whether the capitals of a run miss the small letters of another. They lie before them or behind
them, or both take every second code point, and the capitals are those between. -/
def CaseRun.misses (r other : CaseRun) : Bool :=
  (r.capital r.last).blt other.first || other.last.blt (r.capital r.first)
    || (other.step == 2 && (r.first == r.last || r.step == 2)
      && (r.capital r.first + other.first) % 2 == 1)

/-- Whether a code point lies beside the capitals of a run. -/
def CaseRun.liesBeside (r : CaseRun) (code : Nat) : Bool :=
  code.blt (r.capital r.first) || (r.capital r.last).blt code

/-- Capitals that miss the small letters of a run are not covered by it. -/
theorem CaseRun.not_covers_capital {r other : CaseRun} (h : r.misses other = true)
    (hpos : 0 ≤ r.first + r.shift) {code : Nat} (hcovers : r.covers code = true) :
    ¬ other.covers (r.capital code) = true := by
  simp only [covers, Bool.and_eq_true, decide_eq_true_eq, beq_iff_eq] at hcovers ⊢
  simp only [misses, capital, Bool.or_eq_true, Bool.and_eq_true, Nat.blt_eq, beq_iff_eq] at h ⊢
  obtain ⟨⟨hfirst, hlast⟩, hstep⟩ := hcovers
  rintro ⟨⟨hfirst', hlast'⟩, hstep'⟩
  rcases h with (hbefore | hbehind) | ⟨⟨htwo, hsame⟩, hodd⟩
  · omega
  · omega
  · rw [htwo] at hstep'
    rcases hsame with hone | htwo'
    · omega
    · rw [htwo'] at hstep
      omega

/-- A code point beside the capitals of a run is none of them. -/
theorem CaseRun.ne_capital_of_liesBeside {r : CaseRun} {code : Nat}
    (h : r.liesBeside code = true) {small : Nat} (hcovers : r.covers small = true) :
    r.capital small ≠ code := by
  simp only [covers, Bool.and_eq_true, decide_eq_true_eq] at hcovers
  simp only [liesBeside, capital, Bool.or_eq_true, Nat.blt_eq] at h ⊢
  omega

/-- **The capital of a run is its own capital**: the tables do not mention it as a small letter. -/
theorem upperCodes_capital {run : CaseRun} (hrun : run ∈ caseRuns) {code : Nat}
    (hcovers : run.covers code = true) :
    upperCodes (run.capital code) = [run.capital code] := by
  have hpos : ∀ r ∈ caseRuns, 0 ≤ r.first + r.shift := by decide +kernel
  have hmisses : (caseRuns.all fun r => caseRuns.all r.misses) = true := by decide +kernel
  have hbeside : (caseRuns.all fun r => longCapitals.all (r.liesBeside ·.1)) = true := by
    decide +kernel
  have hlong : longCapitals.lookup (run.capital code) = none := by
    rw [List.lookup_eq_none_iff]
    intro entry hentry
    have hentry := List.all_eq_true.mp (List.all_eq_true.mp hbeside run hrun) entry hentry
    exact bne_iff_ne.mpr (CaseRun.ne_capital_of_liesBeside hentry hcovers)
  have hshort : caseRuns.find? (·.covers (run.capital code)) = none := by
    rw [List.find?_eq_none]
    intro other hother
    have hother := List.all_eq_true.mp (List.all_eq_true.mp hmisses run hrun) other hother
    exact CaseRun.not_covers_capital hother (hpos run hrun) hcovers
  unfold upperCodes
  rw [hlong, hshort]

/-- **A capital begins with a code point that is its own capital.** -/
theorem upperCodes_head {code d : Nat} {ds : List Nat} (h : upperCodes code = d :: ds) :
    upperCodes d = [d] := by
  have hlisted : ∀ entry ∈ longCapitals, ∀ d ∈ entry.2.head?, upperCodes d = [d] := by
    decide +kernel
  rcases upperCodes_cases code with ⟨codes, hmem, hcodes⟩ | ⟨run, hrun, hcovers, hcodes⟩ | hcodes
  · refine hlisted _ hmem d ?_
    rw [← hcodes, h]
    rfl
  · obtain rfl : run.capital code = d := (List.cons_eq_cons.mp (hcodes.symm.trans h)).1
    exact upperCodes_capital hrun hcovers
  · obtain rfl : code = d := (List.cons_eq_cons.mp (hcodes.symm.trans h)).1
    exact hcodes

/-- **A capital begins with a character that is its own capital.** -/
theorem upper_head {c d : Char} {ds : List Char} (h : upper c = d :: ds) : upper d = [d] := by
  obtain ⟨code, codes, hcodes, hd, -⟩ := List.map_eq_cons_iff.mp h
  have hcode := upperCodes_head hcodes
  unfold upper
  by_cases hpos : 0 < d.toNat
  · rw [← eq_toNat_of_ofNat_eq hd hpos, hcode, List.map_singleton, hd]
  · have hnull : d = Char.ofNat 0 := by
      rw [← Char.ofNat_toNat d, Nat.eq_zero_of_not_pos hpos]
    rw [hnull]
    decide

/-- Capitalizing looks at the beginning of a name only. -/
theorem capitalized_append {name : String} (h : name ≠ "") (rest : String) :
    capitalized (name ++ rest) = capitalized name ++ rest := by
  cases hname : name.toList with
  | nil => exact absurd (String.toList_eq_nil_iff.mp hname) h
  | cons c cs =>
    have happend : (name ++ rest).toList = c :: (cs ++ rest.toList) := by
      rw [String.toList_append, hname, List.cons_append]
    refine String.toList_inj.mp ?_
    rw [toList_capitalized_cons happend, String.toList_append, toList_capitalized_cons hname,
      List.append_assoc]

/-- **Capitalizing a capitalized name changes nothing.** -/
theorem capitalized_capitalized (name : String) :
    capitalized (capitalized name) = capitalized name := by
  cases hname : name.toList with
  | nil =>
    obtain rfl := String.toList_eq_nil_iff.mp hname
    rfl
  | cons c cs =>
    obtain ⟨d, ds, hupper⟩ := List.exists_cons_of_ne_nil (upper_ne_nil c)
    have hchars : (capitalized name).toList = d :: (ds ++ cs) := by
      rw [toList_capitalized_cons hname, hupper, List.cons_append]
    refine String.toList_inj.mp ?_
    rw [toList_capitalized_cons hchars, upper_head hupper, hchars, List.singleton_append]

end SchemaTypings.Text
