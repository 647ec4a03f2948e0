import Mathlib.Data.List.Induction
import SchemaTypings.Batch.Report
import SchemaTypings.Error

/-!
# Reports of outcomes

What a report says if each document has an outcome of its own. Adding the outcomes of entries one
after the other gives a report with every entry in one place (`Report.foldl_addOutcome`): the
documents that were converted, those that failed, and what is no document. Each entry is in exactly
one of the three lists (`Report.inputs_ofOutcomes_perm`), in the order of the entries.
-/

namespace SchemaTypings.Report

variable (isDocument : Path → Bool) (outcome : Path → Except Error Converted)

/-- A report with the outcome of one more entry. -/
def addOutcome (r : Report) (p : Path) : Report :=
  if isDocument p then
    match outcome p with
    | .ok file => r.addConverted file
    | .error e => r.addFailed ⟨p, e.text⟩
  else r.addSkipped p

/-- Nothing but what is said about the entry itself counts. -/
theorem addOutcome_congr {isDocument other : Path → Bool}
    {outcome result : Path → Except Error Converted} (r : Report) {p : Path}
    (hdocument : isDocument p = other p) (houtcome : other p = true → outcome p = result p) :
    r.addOutcome isDocument outcome p = r.addOutcome other result p := by
  unfold addOutcome
  rw [hdocument]
  split
  · rw [houtcome ‹_›]
  · rfl

/-- The failure of a document, if it fails. -/
def failure? (p : Path) : Option Failed :=
  match outcome p with
  | .ok _ => none
  | .error e => some ⟨p, e.text⟩

/-- **The report of the outcomes of entries**: of each document what it became or why it failed, and
the entries that are no documents. -/
def ofOutcomes (entries : List Path) : Report where
  converted := (entries.filter isDocument).filterMap fun p => (outcome p).toOption
  failed := (entries.filter isDocument).filterMap (failure? outcome)
  skipped := entries.filter fun p => !isDocument p

theorem ofOutcomes_append_singleton (entries : List Path) (p : Path) :
    ofOutcomes isDocument outcome (entries ++ [p])
      = (ofOutcomes isDocument outcome entries).addOutcome isDocument outcome p := by
  unfold ofOutcomes addOutcome
  rw [List.filter_append, List.filter_append, List.filterMap_append, List.filterMap_append]
  by_cases hdocument : isDocument p = true
  · have hone : [p].filter isDocument = [p] := List.filter_cons_of_pos hdocument
    have hnone : [p].filter (fun p => !isDocument p) = [] :=
      List.filter_cons_of_neg (by rw [hdocument]; exact Bool.false_ne_true)
    rw [if_pos hdocument, hone, hnone, List.append_nil]
    cases houtcome : outcome p with
    | ok file =>
      have hok : [p].filterMap (fun p => (outcome p).toOption) = [file] :=
        List.filterMap_cons_some (by rw [houtcome]; rfl)
      have hfailed : [p].filterMap (failure? outcome) = [] :=
        List.filterMap_cons_none (by rw [failure?, houtcome])
      rw [hok, hfailed, List.append_nil]
      rfl
    | error e =>
      have hok : [p].filterMap (fun p => (outcome p).toOption) = [] :=
        List.filterMap_cons_none (by rw [houtcome]; rfl)
      have hfailed : [p].filterMap (failure? outcome) = [⟨p, e.text⟩] :=
        List.filterMap_cons_some (by rw [failure?, houtcome])
      rw [hok, hfailed, List.append_nil]
      rfl
  · have hnone : [p].filter isDocument = [] := List.filter_cons_of_neg hdocument
    have hone : [p].filter (fun p => !isDocument p) = [p] :=
      List.filter_cons_of_pos (by rw [Bool.eq_false_iff.mpr hdocument]; rfl)
    rw [if_neg hdocument, hone, hnone]
    simp only [List.filterMap_nil, List.append_nil, addSkipped]

/-- **The outcomes of entries**, added one after the other, give the report of them all. -/
theorem foldl_addOutcome (entries : List Path) :
    entries.foldl (addOutcome isDocument outcome) {} = ofOutcomes isDocument outcome entries := by
  induction entries using List.reverseRecOn with
  | nil => rfl
  | append_singleton entries p ih =>
    rw [List.foldl_append, ih, ofOutcomes_append_singleton]
    rfl

/-- What is said of other entries does not count. -/
theorem ofOutcomes_congr {isDocument other : Path → Bool} {entries : List Path}
    (h : ∀ p ∈ entries, isDocument p = other p) :
    ofOutcomes isDocument outcome entries = ofOutcomes other outcome entries := by
  unfold ofOutcomes
  rw [List.filter_congr h, List.filter_congr fun p hp => congrArg (!·) (h p hp)]

/-! ## The entries of a report -/

/-- What was converted is what some document became. -/
theorem mem_converted_ofOutcomes {entries : List Path} {file : Converted} :
    file ∈ (ofOutcomes isDocument outcome entries).converted
      ↔ ∃ p ∈ entries, isDocument p = true ∧ outcome p = .ok file := by
  show file ∈ (entries.filter isDocument).filterMap _ ↔ _
  rw [List.mem_filterMap]
  refine exists_congr fun p => ?_
  rw [List.mem_filter, and_assoc]
  refine and_congr_right fun _ => and_congr_right fun _ => ?_
  cases outcome p with
  | ok other =>
    exact ⟨fun h => congrArg _ (Option.some.inj h), fun h => congrArg _ (Except.ok.inj h)⟩
  | error e => exact ⟨nofun, nofun⟩

variable {outcome} (hinput : ∀ p file, outcome p = .ok file → file.input = p) (entries : List Path)

include hinput in
/-- The documents that were converted are those whose conversion succeeds. -/
theorem map_input_converted :
    (ofOutcomes isDocument outcome entries).converted.map (·.input)
      = (entries.filter isDocument).filter fun p => (outcome p).isOk := by
  show ((entries.filter isDocument).filterMap fun p => (outcome p).toOption).map _ = _
  induction entries.filter isDocument with
  | nil => rfl
  | cons p documents ih =>
    cases houtcome : outcome p with
    | ok file =>
      rw [List.filterMap_cons_some (b := file) (by rw [houtcome]; rfl), List.map_cons, ih,
        hinput p file houtcome, List.filter_cons_of_pos (by rw [houtcome]; rfl)]
    | error e =>
      rw [List.filterMap_cons_none (by rw [houtcome]; rfl), ih,
        List.filter_cons_of_neg (by rw [houtcome]; exact Bool.false_ne_true)]

/-- The documents that failed are those whose conversion does not succeed. -/
theorem map_input_failed :
    (ofOutcomes isDocument outcome entries).failed.map (·.input)
      = (entries.filter isDocument).filter fun p => !(outcome p).isOk := by
  show ((entries.filter isDocument).filterMap (failure? outcome)).map _ = _
  induction entries.filter isDocument with
  | nil => rfl
  | cons p documents ih =>
    cases houtcome : outcome p with
    | ok file =>
      rw [List.filterMap_cons_none (by rw [failure?, houtcome]), ih,
        List.filter_cons_of_neg (by rw [houtcome]; exact Bool.false_ne_true)]
    | error e =>
      rw [List.filterMap_cons_some (b := ⟨p, e.text⟩) (by rw [failure?, houtcome]), List.map_cons,
        ih, List.filter_cons_of_pos (by rw [houtcome]; rfl)]

include hinput in
/-- **Every entry is in exactly one list of a report**, as often as it is there. -/
theorem inputs_ofOutcomes_perm :
    ((ofOutcomes isDocument outcome entries).converted.map (·.input)
      ++ (ofOutcomes isDocument outcome entries).failed.map (·.input)
      ++ (ofOutcomes isDocument outcome entries).skipped).Perm entries := by
  rw [map_input_converted isDocument hinput, map_input_failed]
  exact ((List.filter_append_perm _ _).append_right _).trans (List.filter_append_perm _ _)

end SchemaTypings.Report
