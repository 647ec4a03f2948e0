import SchemaTypings.Proofs.Batch.Isolation
import SchemaTypings.Proofs.Files.Overwriting

/-!
# Turns

A run over a folder with nothing taken for granted: declaration files may take the place of
documents and of one another. Then a document is no longer handled as if it were the only one, but
as its turn comes, in the tree that the documents before it have left.

* A conversion fails before anything is written, or it is refused when the declaration file is to be
  written, or the declaration file is written (`Machine.Converts`). It overwrites nothing else.
* A loop over entries overwrites nothing but the declaration files of the documents that it adds to
  the report (`exists_overwrites_of_foldlM_on`).
* Every outcome in a report came of its document in its turn (`exists_turn_of_foldlM_on`). So a
  document that a report lists as converted had typings then (`exists_typings_of_mem_converted`),
  and one that it lists as failed had an error (`exists_error_of_mem_failed`).
-/

namespace SchemaTypings

open FileTree Machine

variable {machine : Machine} {s : Settings} {t u after : FileTree} {p : Path}

/-! ## One document -/

variable (machine s t p) in
/-- **What can come of a document**, and the tree that its conversion leaves. -/
inductive Machine.Converts : Except Error Converted → FileTree → Prop where
  /-- It fails before anything is written. -/
  | failed {e : Error} (typings : machine.typings s t p = .error e) : Converts (.error e) t
  /-- The declaration file cannot be written. -/
  | refused {file : TypingsFile} (typings : machine.typings s t p = .ok file) (cause : SystemError) :
      Converts (.error (.resource (.writeFile (s.declarationPath p) cause))) t
  /-- The declaration file is written. -/
  | written {file : TypingsFile} (typings : machine.typings s t p = .ok file) {u : FileTree}
      (written : t.withFile (s.declarationPath p) file.text.toUTF8 = .ok u) :
      Converts (.ok (s.reported p file)) u

variable (machine s t p) in
theorem converts_conversion :
    Converts machine s t p (machine.outcome s t p) (machine.conversion s t p).2 := by
  rw [outcome, conversion_eq_write]
  cases htypings : machine.typings s t p with
  | error e => exact .failed htypings
  | ok file =>
    dsimp only
    rw [Run.on_write]
    cases hanswer : machine.answer .write (s.declarationPath p)
      (t.withFile (s.declarationPath p) file.text.toUTF8) with
    | error cause => exact .refused htypings cause
    | ok u => exact .written htypings (machine.eq_ok_of_answer_eq_ok hanswer)

/-- **A conversion overwrites nothing** but the declaration file that it reports. -/
theorem Machine.Converts.overwrites {result : Except Error Converted}
    (h : Converts machine s t p result u) :
    Overwrites (result.toOption.toList.map (·.output)) t u := by
  cases h with
  | failed _ => exact .refl t
  | refused _ _ => exact .refl t
  | written _ hwritten => exact (overwrites_withFile hwritten).1

/-- **A document that is reported as converted** became what is found in its declaration file. -/
theorem Machine.Converts.exists_find {file : Converted}
    (h : Converts machine s t p (.ok file) u) :
    ∃ typings, machine.typings s t p = .ok typings
      ∧ u.find file.output = .ok (.file typings.text.toUTF8) := by
  cases h with
  | written htypings hwritten => exact ⟨_, htypings, (overwrites_withFile hwritten).2⟩

/-! ## One entry after the other -/

/-- **One entry** adds at most itself to the documents that were converted, and overwrites nothing
but its declaration file. -/
theorem exists_overwrites_of_convertEntry_on {r report : Report}
    (h : (convertEntry s r p : machine.Run Report).on t = (report, u)) :
    ∃ files, report.converted = r.converted ++ files ∧ (∀ file ∈ files, file.input = p)
      ∧ Overwrites (files.map (·.output)) t u := by
  rw [convertEntry_on] at h
  obtain ⟨rfl, rfl⟩ := Prod.mk.inj h
  unfold Report.addOutcome
  by_cases hdocument : s.isDocument t p = true
  · rw [if_pos hdocument, if_pos hdocument]
    have hoverwrites := (converts_conversion machine s t p).overwrites
    cases houtcome : machine.outcome s t p with
    | ok file =>
      rw [houtcome] at hoverwrites
      refine ⟨[file], rfl, fun other hother => ?_, hoverwrites⟩
      rw [List.mem_singleton.mp hother]
      exact input_of_outcome houtcome
    | error e =>
      rw [houtcome] at hoverwrites
      exact ⟨[], (List.append_nil _).symm, nofun, hoverwrites⟩
  · rw [if_neg hdocument, if_neg hdocument]
    exact ⟨[], (List.append_nil _).symm, nofun, .refl t⟩

/-- **A loop over entries** adds some of them to the documents that were converted, and overwrites
nothing but their declaration files. -/
theorem exists_overwrites_of_foldlM_on {entries : List Path} {r report : Report}
    (h : (entries.foldlM (convertEntry s) r : machine.Run Report).on t = (report, after)) :
    ∃ files, report.converted = r.converted ++ files ∧ (∀ file ∈ files, file.input ∈ entries)
      ∧ Overwrites (files.map (·.output)) t after := by
  induction entries generalizing r t with
  | nil =>
    obtain ⟨rfl, rfl⟩ := Prod.mk.inj h
    exact ⟨[], (List.append_nil _).symm, nofun, .refl t⟩
  | cons p entries ih =>
    rw [List.foldlM_cons, Run.on_bind] at h
    rcases hone : (convertEntry s r p : machine.Run Report).on t with ⟨next, u⟩
    rw [hone] at h
    obtain ⟨files, hfiles, hinputs, hentry⟩ := exists_overwrites_of_convertEntry_on hone
    obtain ⟨more, hmore, hlater, hentries⟩ := ih h
    refine ⟨files ++ more, ?_, fun file hfile => ?_, ?_⟩
    · rw [hmore, hfiles, List.append_assoc]
    · rcases List.mem_append.mp hfile with hfile | hfile
      · exact hinputs file hfile ▸ List.mem_cons_self
      · exact List.mem_cons_of_mem p (hlater file hfile)
    · rw [List.map_append]
      exact hentry.trans hentries

/-- A loop over entries is a loop over the first and one over the others. -/
theorem foldlM_append_on (before later : List Path) (r : Report) :
    ((before ++ later).foldlM (convertEntry s) r : machine.Run Report).on t
      = (later.foldlM (convertEntry s) ((before.foldlM (convertEntry s) r :
          machine.Run Report).on t).1 : machine.Run Report).on
        ((before.foldlM (convertEntry s) r : machine.Run Report).on t).2 := by
  induction before generalizing r t with
  | nil => rfl
  | cons p before ih =>
    rw [List.cons_append, List.foldlM_cons, List.foldlM_cons, Run.on_bind, Run.on_bind, ih]

/-! ## The turn of a document -/

/-- What is said to be converted was so before, or has just been. -/
theorem Report.mem_converted_addOutcome {isDocument : Path → Bool}
    {outcome : Path → Except Error Converted} {r : Report} {file : Converted}
    (h : file ∈ (r.addOutcome isDocument outcome p).converted) :
    file ∈ r.converted ∨ isDocument p = true ∧ outcome p = .ok file := by
  unfold addOutcome at h
  split at h
  · split at h
    · rcases List.mem_append.mp h with h | h
      · exact .inl h
      · obtain rfl := List.mem_singleton.mp h
        exact .inr ⟨‹_›, ‹_›⟩
    · exact .inl h
  · exact .inl h

/-- What is said to have failed had failed before, or has just done so. -/
theorem Report.mem_failed_addOutcome {isDocument : Path → Bool}
    {outcome : Path → Except Error Converted} {r : Report} {file : Failed}
    (h : file ∈ (r.addOutcome isDocument outcome p).failed) :
    file ∈ r.failed ∨ isDocument p = true ∧ ∃ e, outcome p = .error e ∧ file = ⟨p, e.text⟩ := by
  unfold addOutcome at h
  split at h
  · split at h
    · exact .inl h
    · rcases List.mem_append.mp h with h | h
      · exact .inl h
      · exact .inr ⟨‹_›, _, ‹_›, List.mem_singleton.mp h⟩
  · exact .inl h

variable (machine s) in
/-- **The turn of a document** in a loop over entries: those before it have been handled, and the
tree in which it is converted is the one that they left. -/
structure Machine.Turn (r : Report) (t : FileTree) (entries before : List Path) (p : Path)
    (later : List Path) (current : FileTree) : Prop where
  /-- The document comes between other entries. -/
  entries_eq : entries = before ++ p :: later
  /-- Those before it leave a tree. -/
  reached : ((before.foldlM (convertEntry s) r : machine.Run Report).on t).2 = current
  /-- In this tree it is a document. -/
  isDocument : s.isDocument current p = true

/-- A turn comes after one more entry if the loop begins with one more. -/
theorem Machine.Turn.cons {r : Report} {entries before later : List Path} {current : FileTree}
    {first : Path}
    (h : Turn machine s ((convertEntry s r first : machine.Run Report).on t).1
      ((convertEntry s r first : machine.Run Report).on t).2 entries before p later current) :
    Turn machine s r t (first :: entries) (first :: before) p later current where
  entries_eq := by rw [h.entries_eq, List.cons_append]
  reached := by rw [List.foldlM_cons, Run.on_bind, h.reached]
  isDocument := h.isDocument

/-- **What a report says of a document came of it in its turn.** The induction is on the entries,
from the first. -/
theorem exists_turn_of_foldlM_on {entries : List Path} {r report : Report}
    (h : (entries.foldlM (convertEntry s) r : machine.Run Report).on t = (report, after)) :
    (∀ file ∈ report.converted, file ∈ r.converted ∨ ∃ before later current,
        Turn machine s r t entries before file.input later current
          ∧ machine.outcome s current file.input = .ok file)
      ∧ ∀ file ∈ report.failed, file ∈ r.failed ∨ ∃ before later current e,
        Turn machine s r t entries before file.input later current
          ∧ machine.outcome s current file.input = .error e ∧ file.error = e.text := by
  induction entries generalizing r t with
  | nil =>
    obtain ⟨rfl, -⟩ := Prod.mk.inj h
    exact ⟨fun _ => .inl, fun _ => .inl⟩
  | cons p entries ih =>
    rw [List.foldlM_cons, Run.on_bind] at h
    obtain ⟨hconverted, hfailed⟩ := ih h
    have hentry : ((convertEntry s r p : machine.Run Report).on t).1
        = r.addOutcome (s.isDocument t) (machine.outcome s t) p :=
      congrArg Prod.fst (convertEntry_on r t p)
    have hfirst : s.isDocument t p = true → Turn machine s r t (p :: entries) [] p entries t :=
      fun hdocument => ⟨rfl, rfl, hdocument⟩
    refine ⟨fun file hfile => ?_, fun file hfile => ?_⟩
    · rcases hconverted file hfile with hsofar | ⟨before, later, current, hturn, houtcome⟩
      · rw [hentry] at hsofar
        refine (Report.mem_converted_addOutcome hsofar).imp_right fun ⟨hdocument, houtcome⟩ => ?_
        obtain rfl := input_of_outcome houtcome
        exact ⟨[], entries, t, hfirst hdocument, houtcome⟩
      · exact .inr ⟨p :: before, later, current, hturn.cons, houtcome⟩
    · rcases hfailed file hfile with hsofar | ⟨before, later, current, e, hturn, houtcome⟩
      · rw [hentry] at hsofar
        refine (Report.mem_failed_addOutcome hsofar).imp_right fun ⟨hdocument, e, houtcome, heq⟩ => ?_
        subst heq
        exact ⟨[], entries, t, e, hfirst hdocument, houtcome, rfl⟩
      · exact .inr ⟨p :: before, later, current, e, hturn.cons, houtcome⟩

/-- **What is overwritten before the turn of a document and after it**: declaration files that the
report names, and after it only those of other documents. -/
theorem Machine.Turn.overwrites {r report : Report} {entries before later : List Path}
    {current : FileTree} (hturn : Turn machine s r t entries before p later current)
    (hnodup : entries.Nodup)
    (h : (entries.foldlM (convertEntry s) r : machine.Run Report).on t = (report, after)) :
    Overwrites (report.converted.map (·.output)) t current
      ∧ Overwrites ((report.converted.filter (·.input ≠ p)).map (·.output))
        (machine.conversion s current p).2 after := by
  obtain ⟨rfl, hreached, hdocument⟩ := hturn
  rw [foldlM_append_on, List.foldlM_cons, Run.on_bind] at h
  rcases hbefore : (before.foldlM (convertEntry s) r : machine.Run Report).on t with ⟨sofar, u⟩
  rw [hbefore] at h hreached
  obtain rfl : u = current := hreached
  obtain ⟨files, hfiles, -, hoverwrites⟩ := exists_overwrites_of_foldlM_on hbefore
  obtain ⟨one, hone, -, -⟩ := exists_overwrites_of_convertEntry_on (convertEntry_on sofar u p)
  rw [convertEntry_on, if_pos hdocument] at h
  obtain ⟨more, hmore, hinputs, hrest⟩ := exists_overwrites_of_foldlM_on h
  have hconverted : report.converted = r.converted ++ files ++ one ++ more := by
    rw [hmore, hone, hfiles]
  refine ⟨hoverwrites.mono (List.map_subset _ fun file hfile => ?_),
    hrest.mono (List.map_subset _ fun file hfile => List.mem_filter.mpr ⟨?_, decide_eq_true ?_⟩)⟩
  · rw [hconverted]
    exact List.mem_append_left _ (List.mem_append_left _ (List.mem_append_right _ hfile))
  · rw [hconverted]
    exact List.mem_append_right _ hfile
  · intro heq
    exact (List.nodup_cons.mp (List.nodup_append.mp hnodup).2.1).1 (heq ▸ hinputs file hfile)

/-! ## The turns of a run -/

/-- **A run that succeeds** lists entries, each once, adds the folders that are missing on the path
of the output folder, and goes through the entries. -/
theorem exists_loop_of_convertFolder_on {report : Report} (hnamed : t.WellNamed)
    (h : (convertFolder s : ExceptT Error machine.Run Report).run.on t = (.ok report, after)) :
    ∃ entries, (listEntries s : ExceptT Error machine.Run (List Path)).run.on t = (.ok entries, t)
      ∧ entries.Nodup ∧ Overwrites [] t (machine.prepared s t)
      ∧ (entries.foldlM (convertEntry s) {} : machine.Run Report).on (machine.prepared s t)
        = (report, after) := by
  obtain ⟨entries, hlist, hcreate, hloop⟩ := exists_entries_of_convertFolder_on h
  obtain ⟨-, names, hnames, hentries⟩ := of_listEntries_on hlist
  obtain ⟨hnodup, -, around, hfolder, -⟩ := hnamed.of_namesAt hnames
  obtain ⟨hadds, -⟩ := Run.createFolders_on (top_of_folderOf hfolder) hcreate
  refine ⟨entries, hlist, ?_, hadds.overwrites, hloop⟩
  rw [← hentries]
  refine (pairwise_entries s.inputFolder hnodup).imp fun {q r} hlt => ?_
  rintro rfl
  exact String.lt_irrefl q.text hlt

/-- **A run overwrites nothing** but the declaration files that it reports. -/
theorem overwrites_of_convertFolder_on {report : Report} (hnamed : t.WellNamed)
    (h : (convertFolder s : ExceptT Error machine.Run Report).run.on t = (.ok report, after)) :
    Overwrites (report.converted.map (·.output)) t after := by
  obtain ⟨entries, -, -, hprepared, hloop⟩ := exists_loop_of_convertFolder_on hnamed h
  obtain ⟨files, hfiles, -, hloop⟩ := exists_overwrites_of_foldlM_on hloop
  obtain rfl : report.converted = files := hfiles
  exact hprepared.trans hloop

variable (machine s t) in
/-- **A text is written to a declaration file** when the turn of its document comes, and the text is
found there then. -/
def Machine.WritesInTurn (file : Converted) (text : String) : Prop :=
  ∃ before later sofar current next,
    (listEntries s : ExceptT Error machine.Run (List Path)).run.on t
        = (.ok (before ++ file.input :: later), t)
      ∧ (before.foldlM (convertEntry s) {} : machine.Run Report).on (machine.prepared s t)
        = (sofar, current)
      ∧ (writeConverted s file.input : ExceptT Error machine.Run Converted).run.on current
        = (.ok file, next)
      ∧ next.find file.output = .ok (.file text.toUTF8)

/-- **A document that was converted in a run**: in its turn it became what is written to its
declaration file, and this is found there in the end if the declaration file of no other document is
written to the same place. The tree in which it was converted differs from the first one in nothing
that the run spares. -/
theorem exists_typings_of_mem_converted {report : Report} (hnamed : t.WellNamed)
    (h : (convertFolder s : ExceptT Error machine.Run Report).run.on t = (.ok report, after))
    {file : Converted} (hfile : file ∈ report.converted) :
    ∃ current typings, Overwrites (report.converted.map (·.output)) t current
      ∧ Keeps current after ∧ machine.typings s current file.input = .ok typings
      ∧ machine.WritesInTurn s t file typings.text
      ∧ (after.Spares ((report.converted.filter (·.input ≠ file.input)).map (·.output)) file.output →
        after.find file.output = .ok (.file typings.text.toUTF8)) := by
  obtain ⟨entries, hlist, hnodup, hprepared, hloop⟩ := exists_loop_of_convertFolder_on hnamed h
  obtain hnone | ⟨before, later, current, hturn, houtcome⟩ :=
    (exists_turn_of_foldlM_on hloop).1 file hfile
  · cases hnone
  obtain ⟨hbefore, hafter⟩ := hturn.overwrites hnodup hloop
  have hconverts := converts_conversion machine s current file.input
  rw [houtcome] at hconverts
  obtain ⟨typings, htypings, hwritten⟩ := hconverts.exists_find
  refine ⟨current, typings, hprepared.trans hbefore, hconverts.overwrites.keeps.trans hafter.keeps,
    htypings, ?_, fun hspares => hafter.find_eq hspares hwritten⟩
  exact ⟨before, later, _, current, _, hturn.entries_eq ▸ hlist, Prod.ext rfl hturn.reached,
    Prod.ext houtcome rfl, hwritten⟩

/-- **A document that failed in a run** failed in its turn, before its declaration file was written
or when it was to be written. The tree in which it was to be converted differs from the first one in
nothing that the run spares. -/
theorem exists_error_of_mem_failed {report : Report} (hnamed : t.WellNamed)
    (h : (convertFolder s : ExceptT Error machine.Run Report).run.on t = (.ok report, after))
    {file : Failed} (hfile : file ∈ report.failed) :
    ∃ current, Overwrites (report.converted.map (·.output)) t current ∧ Keeps current after
      ∧ ((∃ e, machine.typings s current file.input = .error e ∧ file.error = e.text)
        ∨ ∃ typings cause, machine.typings s current file.input = .ok typings ∧ file.error
          = (Error.resource (.writeFile (s.declarationPath file.input) cause)).text) := by
  obtain ⟨entries, -, hnodup, hprepared, hloop⟩ := exists_loop_of_convertFolder_on hnamed h
  obtain hnone | ⟨before, later, current, e, hturn, houtcome, htext⟩ :=
    (exists_turn_of_foldlM_on hloop).2 file hfile
  · cases hnone
  obtain ⟨hbefore, hafter⟩ := hturn.overwrites hnodup hloop
  have hconverts := converts_conversion machine s current file.input
  refine ⟨current, hprepared.trans hbefore, hconverts.overwrites.keeps.trans hafter.keeps, ?_⟩
  rw [houtcome] at hconverts
  generalize (machine.conversion s current file.input).2 = next at hconverts
  cases hconverts with
  | failed htypings => exact .inl ⟨e, htypings, htext⟩
  | refused htypings cause => exact .inr ⟨_, cause, htypings, htext⟩

end SchemaTypings
