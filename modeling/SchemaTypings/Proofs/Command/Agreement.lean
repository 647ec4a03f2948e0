import SchemaTypings.Command.Run
import SchemaTypings.Proofs.Batch.Blame
import SchemaTypings.Proofs.Batch.Turns
import SchemaTypings.Proofs.Markup.Bounded

/-!
# Printing what is converted

Printing a document and converting its folder come to the same (`print_agrees_with_convert`). What a
run over a folder writes for a document is what the document prints, and a document that fails in
the run before anything is written fails to print with the same error. It makes no difference
whether it is printed before the run or after it, and neither what the machine refuses nor the order
in which it lists the folder does.

Both commands read their settings in the same way and differ in the folders alone, which printing
does not look at (`typings_withFolders`). So the one thing to know is that they meet the same
document. This takes that the run does not overwrite the document, nor the settings file if it is
printed afterwards (`FileTree.Spares`): declaration files may be written anywhere, so also in place
of a document.
-/

namespace SchemaTypings

open FileTree Machine

namespace Command

variable {machine : Machine} {s : Settings} {t u after : FileTree} {g : Given} {p : Path}

/-! ## Settings -/

variable (machine) in
/-- **Reading settings only asks about the settings file.** -/
theorem answersAlike_baseSettings (h : ∀ c ∈ g.config, t.find c = u.find c) :
    Run.AnswersAlike t u (baseSettings g : ExceptT Error machine.Run Settings).run := by
  unfold baseSettings
  cases hconfig : g.config with
  | none => exact .bindExcept (.pure _) fun s => .pure _
  | some c =>
    refine .bindExcept ?_ fun s => .pure _
    exact .bindExcept (answersAlike_readText machine (h c hconfig) _) fun text => .settle _

/-- The settings that hold for both commands, as they are read in a tree. -/
def settingsIn (machine : Machine) (g : Given) (t : FileTree) : Except Error Settings :=
  ((baseSettings g : ExceptT Error machine.Run Settings).run.on t).1

variable (machine g) in
/-- Reading settings changes nothing. -/
theorem baseSettings_on (t : FileTree) :
    (baseSettings g : ExceptT Error machine.Run Settings).run.on t
      = (settingsIn machine g t, t) := by
  obtain ⟨result, hresult, -⟩ := answersAlike_baseSettings machine (g := g) (u := t) fun _ _ => rfl
  rw [settingsIn, hresult]

/-- The same settings are read where the same settings file is found. -/
theorem settingsIn_congr (h : ∀ c ∈ g.config, t.find c = u.find c) :
    settingsIn machine g t = settingsIn machine g u := by
  obtain ⟨result, ht, hu⟩ := answersAlike_baseSettings machine h
  rw [settingsIn, settingsIn, ht, hu]

/-- **Settings depend on nothing else** that a command line says. -/
theorem settingsIn_eq {other : Given} (hconfig : other.config = g.config)
    (hnaming : other.naming = g.naming) (hheader : other.noHeader = g.noHeader) :
    settingsIn machine other t = settingsIn machine g t := by
  unfold settingsIn baseSettings Given.overOutput
  rw [hconfig, hnaming, hheader]

/-- A settings file that is read is there. -/
theorem exists_find_of_settingsIn (h : settingsIn machine g t = .ok s) :
    ∀ c ∈ g.config, ∃ bytes, t.find c = .ok (.file bytes) := by
  intro c hconfig
  unfold settingsIn baseSettings at h
  rw [Option.mem_def.mp hconfig] at h
  dsimp only at h
  rw [Run.on_bindExcept, settingsFile, Run.on_bindExcept] at h
  rcases hread : (readText (fun cause => .settings (.unreadable c cause)) c :
    ExceptT Error machine.Run String).run.on t with ⟨_ | text, u⟩
  · rw [hread] at h
    cases h
  · exact exists_find_of_readText_on hread

/-- The settings of a conversion, from those that hold for both commands. -/
def withFolders (g : Given) (s : Settings) : Settings :=
  { s with
    inputFolder := g.operand.getD s.inputFolder
    outputFolder := g.output.getD s.outputFolder }

variable (machine g) in
theorem convertSettings_on (t : FileTree) :
    (convertSettings g : ExceptT Error machine.Run Settings).run.on t
      = ((settingsIn machine g t).map (withFolders g), t) := by
  unfold convertSettings
  rw [Run.on_bindExcept, baseSettings_on]
  cases settingsIn machine g t with
  | error e => rfl
  | ok s => rfl

/-- **What comes of a document has nothing to do with folders.** -/
theorem typings_withFolders (g : Given) (s : Settings) (t : FileTree) (p : Path) :
    machine.typings (withFolders g s) t p = machine.typings s t p :=
  rfl

/-! ## The two commands -/

/-- What comes of printing a document. -/
def printOutcome (typings : Except Error TypingsFile) : Outcome :=
  match typings with
  | .ok written => { exit := 0, stdout := written.text }
  | .error e => .failure e

variable (machine) in
/-- **Printing a document** changes nothing. -/
theorem runPrint_on (h : settingsIn machine g t = .ok s) (p : Path) :
    (runPrint p g : machine.Run Outcome).on t = (printOutcome (machine.typings s t p), t) := by
  unfold runPrint
  show Run.on (_ >>= _ : machine.Run Outcome) t = _
  rw [Run.on_bind, Run.on_bindExcept, baseSettings_on, h]
  dsimp only
  rw [convertFile_on]
  cases machine.typings s t p with
  | ok written => rfl
  | error e => rfl

variable (machine g) in
/-- **Converting a folder**: the settings are read first, and the exit status is that of the
report. -/
theorem runConvert_on (t : FileTree) :
    (runConvert g : machine.Run Outcome).on t
      = match settingsIn machine g t with
        | .error e => (.failure e, t)
        | .ok s =>
          match (convertFolder (withFolders g s) : ExceptT Error machine.Run Report).run.on t with
          | (.error e, u) => (.failure e, u)
          | (.ok report, u) =>
            ({ exit := if report.allConverted then 0 else 1, stdout := reportText g report }, u) := by
  unfold runConvert
  show Run.on (_ >>= _ : machine.Run Outcome) t = _
  rw [Run.on_bind, Run.on_bindExcept, convertSettings_on]
  cases settingsIn machine g t with
  | error e => rfl
  | ok s =>
    show Run.on _ ((convertFolder (withFolders g s) : ExceptT Error machine.Run Report).run.on t).2
      = _
    dsimp only [Except.map]
    rcases (convertFolder (withFolders g s) : ExceptT Error machine.Run Report).run.on t with
      ⟨_ | _, u⟩
    · rfl
    · rfl

/-- A report without failures gives the exit status of success, and no other does. -/
theorem exit_eq_zero_iff (report : Report) :
    (if report.allConverted then 0 else 1) = 0 ↔ report.failed = [] := by
  rw [← List.isEmpty_iff, Report.allConverted]
  cases report.failed.isEmpty with
  | true => exact ⟨fun _ => rfl, fun _ => rfl⟩
  | false => exact ⟨(nomatch ·), (nomatch ·)⟩

/-- Settings of a conversion that are loaded are those that hold for both commands, with the folders
of the command line. -/
theorem exists_settingsIn_of_convertSettings_on
    (h : (convertSettings g : ExceptT Error machine.Run Settings).run.on t = (.ok s, u)) :
    ∃ base, settingsIn machine g t = .ok base ∧ withFolders g base = s := by
  rw [convertSettings_on] at h
  have hsettings : (settingsIn machine g t).map (withFolders g) = .ok s := congrArg Prod.fst h
  cases hbase : settingsIn machine g t with
  | error e =>
    rw [hbase] at hsettings
    cases hsettings
  | ok base =>
    rw [hbase] at hsettings
    exact ⟨base, rfl, Except.ok.inj hsettings⟩

/-- **When converting a folder succeeds**: the settings are loaded, the run over the folder succeeds,
and no document fails. -/
theorem exit_of_runConvert_on {outcome : Outcome}
    (h : (runConvert g : machine.Run Outcome).on t = (outcome, after)) :
    outcome.exit = 0 ↔ ∃ s report,
      (convertSettings g : ExceptT Error machine.Run Settings).run.on t = (.ok s, t)
        ∧ (convertFolder s : ExceptT Error machine.Run Report).run.on t = (.ok report, after)
        ∧ report.failed = [] := by
  rw [runConvert_on] at h
  constructor
  · intro hexit
    split at h
    · obtain rfl := congrArg Prod.fst h
      cases hexit
    · rename_i s hsettings
      split at h
      · obtain rfl := congrArg Prod.fst h
        cases hexit
      · rename_i report v hfolder
        obtain ⟨rfl, rfl⟩ := Prod.mk.inj h
        refine ⟨withFolders g s, report, ?_, hfolder, (exit_eq_zero_iff report).mp hexit⟩
        rw [convertSettings_on, hsettings]
        rfl
  · rintro ⟨s, report, hsettings, hfolder, hnone⟩
    obtain ⟨base, hbase, rfl⟩ := exists_settingsIn_of_convertSettings_on hsettings
    rw [hbase] at h
    dsimp only at h
    rw [hfolder] at h
    obtain ⟨rfl, -⟩ := Prod.mk.inj h
    exact (exit_eq_zero_iff report).mpr hnone

/-- **What converting a folder writes to the output** is the report. -/
theorem stdout_of_runConvert_on {outcome : Outcome} {report : Report}
    (h : (runConvert g : machine.Run Outcome).on t = (outcome, after))
    (hsettings : (convertSettings g : ExceptT Error machine.Run Settings).run.on t = (.ok s, t))
    (hfolder : (convertFolder s : ExceptT Error machine.Run Report).run.on t = (.ok report, after)) :
    outcome.stdout = reportText g report := by
  obtain ⟨base, hbase, rfl⟩ := exists_settingsIn_of_convertSettings_on hsettings
  rw [runConvert_on, hbase] at h
  dsimp only at h
  rw [hfolder] at h
  obtain ⟨rfl, -⟩ := Prod.mk.inj h
  rfl

/-! ## Agreement -/

variable (machine s t) in
/-- **What is printed of a document agrees with a report** of its folder. -/
structure Agrees (report : Report) (after : FileTree) (p : Path) (printed : Outcome) : Prop where
  /-- A document that was converted is printed as it was written in its turn, and as it stands in
  its declaration file in the end if no other document is written there. -/
  converted : ∀ file ∈ report.converted, file.input = p →
    ∃ text, printed = { exit := 0, stdout := text } ∧ machine.WritesInTurn s t file text
      ∧ (after.Spares ((report.converted.filter (·.input ≠ p)).map (·.output)) file.output →
        after.bytesAt file.output = .ok text.toUTF8)
  /-- A document that failed before anything was written is not printed, for the same error. -/
  failed : ∀ file ∈ report.failed, file.input = p → file.BeforeWriting →
    printed = { exit := 1, stderr := "Error: " ++ file.error ++ "\n" }
  /-- Any other document that failed could not be written, and is printed. -/
  refused : ∀ file ∈ report.failed, file.input = p → ¬ file.BeforeWriting →
    (∃ cause, file.error = (Error.resource (.writeFile (s.declarationPath p) cause)).text)
      ∧ printed.exit = 0

/-- **A document is printed as a run handles it**, wherever it is found as it was before the run. -/
theorem agrees_of_convertFolder_on {report : Report} (hnamed : t.WellNamed)
    (hrun : (convertFolder s : ExceptT Error machine.Run Report).run.on t = (.ok report, after))
    (hdocument : s.isDocument t p = true)
    (hspares : after.Spares (report.converted.map (·.output)) p) (hfind : u.find p = t.find p) :
    Agrees machine s t report after p (printOutcome (machine.typings s u p)) := by
  obtain ⟨bytes, hbytes⟩ := isFileAt_iff.mp (Bool.and_eq_true_iff.mp hdocument).1
  have hsame : ∀ current, Overwrites (report.converted.map (·.output)) t current →
      Keeps current after → machine.typings s current p = machine.typings s u p := by
    intro current hoverwrites hkeeps
    refine typings_congr machine s ?_
    rw [hfind, hbytes]
    exact hoverwrites.find_eq (hspares.of_keeps hkeeps) hbytes
  refine ⟨?_, ?_, ?_⟩
  · rintro file hfile rfl
    obtain ⟨current, written, hoverwrites, hkeeps, htypings, hturn, hend⟩ :=
      exists_typings_of_mem_converted hnamed hrun hfile
    rw [← hsame current hoverwrites hkeeps, htypings]
    exact ⟨written.text, rfl, hturn, fun hother => bytesAt_of_find (hend hother)⟩
  · rintro file hfile rfl ⟨e, hblame, htext⟩
    obtain ⟨current, hoverwrites, hkeeps, ⟨other, htypings, hother⟩ | ⟨_, cause, -, hother⟩⟩ :=
      exists_error_of_mem_failed hnamed hrun hfile
    · rw [← hsame current hoverwrites hkeeps, htypings, hother]
      rfl
    · exact absurd (htext.symm.trans hother) (hblame.text_ne _ cause)
  · rintro file hfile rfl hlate
    obtain ⟨current, hoverwrites, hkeeps, ⟨e, htypings, htext⟩ | ⟨written, cause, htypings, htext⟩⟩ :=
      exists_error_of_mem_failed hnamed hrun hfile
    · exact absurd ⟨e, ofDocument_of_typings htypings, htext⟩ hlate
    · rw [← hsame current hoverwrites hkeeps, htypings]
      exact ⟨⟨cause, htext⟩, rfl⟩

/-- **Printing a document and converting its folder agree**, with the same settings file and the
same options for output. The conversion succeeds if the settings are loaded, the run over the folder
succeeds and no document fails. Whatever document of the folder the run does not overwrite is
printed as the report says, before the run and after it. -/
theorem print_agrees_with_convert {arguments : List String} {outcome : Outcome}
    (hnamed : t.WellNamed) (hrequest : request? arguments = some (.convert g))
    (hrun : (run arguments : machine.Run Outcome).on t = (outcome, after)) :
    (outcome.exit = 0 ↔ ∃ s report,
      (convertSettings g : ExceptT Error machine.Run Settings).run.on t = (.ok s, t)
        ∧ (convertFolder s : ExceptT Error machine.Run Report).run.on t = (.ok report, after)
        ∧ report.failed = [])
      ∧ ∀ s report,
        (convertSettings g : ExceptT Error machine.Run Settings).run.on t = (.ok s, t) →
        (convertFolder s : ExceptT Error machine.Run Report).run.on t = (.ok report, after) →
        outcome.stdout = reportText g report
          ∧ ∀ p, s.isDocument t p = true → after.Spares (report.converted.map (·.output)) p →
            ∀ words given, request? words = some (.print p given) → given.config = g.config →
              given.naming = g.naming → given.noHeader = g.noHeader →
              ∀ u, (u = t ∨ u = after
                ∧ ∀ c ∈ g.config, after.Spares (report.converted.map (·.output)) c) →
              ∃ printed, (run words : machine.Run Outcome).on u = (printed, u)
                ∧ Agrees machine s t report after p printed := by
  have hconvert : (runConvert g : machine.Run Outcome).on t = (outcome, after) := by
    unfold run at hrun
    rw [hrequest] at hrun
    exact hrun
  refine ⟨exit_of_runConvert_on hconvert, fun s report hsettings hfolder =>
    ⟨stdout_of_runConvert_on hconvert hsettings hfolder, ?_⟩⟩
  intro p hdocument hspares words given hwords hconfig hnaming hheader u hu
  obtain ⟨base, hbase, rfl⟩ := exists_settingsIn_of_convertSettings_on hsettings
  have hoverwrites := overwrites_of_convertFolder_on hnamed hfolder
  obtain ⟨bytes, hbytes⟩ := isFileAt_iff.mp (Bool.and_eq_true_iff.mp hdocument).1
  have hfind : u.find p = t.find p := by
    rcases hu with rfl | ⟨rfl, -⟩
    · rfl
    · rw [hbytes]
      exact hoverwrites.find_eq hspares hbytes
  have hloaded : settingsIn machine given u = .ok base := by
    rw [settingsIn_eq hconfig hnaming hheader, ← hbase]
    refine settingsIn_congr fun c hc => ?_
    rcases hu with rfl | ⟨rfl, hkept⟩
    · rfl
    · obtain ⟨written, hwritten⟩ := exists_find_of_settingsIn hbase c hc
      rw [hwritten]
      exact hoverwrites.find_eq (hkept c hc) hwritten
  refine ⟨_, ?_, agrees_of_convertFolder_on hnamed hfolder hdocument hspares hfind⟩
  unfold run
  rw [hwords, typings_withFolders]
  exact runPrint_on machine hloaded p

/-! ## A folder with a document that cannot be read -/

/-- What is asked for by a command line that converts the folder. -/
def sharedGiven : Given where
  operand := some ⟨"schemas"⟩
  output := some ⟨"types"⟩

/-- A command line that asks for it. -/
def sharedArguments : List String :=
  ["convert", "schemas", "-o", "types"]

/-- The error of the document that cannot be read. -/
def sharedError : Error :=
  .resource (.readFile ⟨"schemas/orders.wsdl"⟩ (.other "Permission denied (os error 13)"))

/-- The tree after the run. -/
def convertedTree (typings : TypingsFile) : FileTree :=
  .folder [("schemas", .folder [
    ("orders.wsdl", .file "<definitions/>".toUTF8),
    ("notes", .empty),
    ("items.wsdl", .file "<schema/>".toUTF8)]),
    ("types", .folder [("items.d.ts", .file typings.text.toUTF8)])]

/-- The report of the run. -/
def sharedReport (typings : TypingsFile) : Report where
  converted := [sharedSettings.reported ⟨"schemas/items.wsdl"⟩ typings]
  failed := [⟨⟨"schemas/orders.wsdl"⟩, sharedError.text⟩]
  skipped := [⟨"schemas/notes"⟩]

/-- The declarations of a schema with nothing in it. -/
def emptyTypings : TypingsFile :=
  (⟨[{}]⟩ : Schema.Document).typings {}

theorem typings_items : sharedMachine.typings sharedSettings preparedTree ⟨"schemas/items.wsdl"⟩
    = .ok emptyTypings := by
  have hwritten : Markup.Written [⟨"schema", [], []⟩] "<schema/>".toList :=
    .empty (by decide) .nil
  have hdocument : Schema.Document.ofText .default "<schema/>" = .ok ⟨[{}]⟩ := by
    rw [Schema.Document.ofText, replacePrefixes_eq_self (by decide),
      Markup.parse_written_of_within hwritten (by unfold Markup.Tree.Within; decide)]
    rfl
  have hread : sharedMachine.typings sharedSettings preparedTree ⟨"schemas/items.wsdl"⟩
      = convert {} .default "<schema/>" :=
    typings_eq_convert sharedMachine (by decide) (by decide) rfl (by decide)
  exact hread.trans (convert_of_ofText {} hdocument (by decide))

section Shared

variable {typings : TypingsFile}
  (htypings : sharedMachine.typings sharedSettings preparedTree ⟨"schemas/items.wsdl"⟩
    = .ok typings)
include htypings

theorem convertFolder_sharedTree :
    (convertFolder sharedSettings : ExceptT Error sharedMachine.Run Report).run.on sharedTree
      = (.ok (sharedReport typings), convertedTree typings) := by
  have hnames : byName ["items.wsdl", "notes", "orders.wsdl"]
      = ["items.wsdl", "notes", "orders.wsdl"] := List.mergeSort_of_pairwise (by decide)
  have hlist : (listEntries sharedSettings : ExceptT Error sharedMachine.Run (List Path)).run.on
      sharedTree = (.ok (["items.wsdl", "notes", "orders.wsdl"].map (Path.join ⟨"schemas"⟩)),
        sharedTree) := by
    rw [← hnames]
    rfl
  have hitems : (convertEntry sharedSettings {} ⟨"schemas/items.wsdl"⟩ :
      sharedMachine.Run Report).on preparedTree
      = ({ converted := [sharedSettings.reported ⟨"schemas/items.wsdl"⟩ typings] },
        convertedTree typings) := by
    rw [convertEntry_on, if_pos (by decide), Report.addOutcome, if_pos (by decide), outcome,
      conversion_eq_write, htypings]
    rfl
  have hnotes : ∀ report : Report, (convertEntry sharedSettings report ⟨"schemas/notes"⟩ :
      sharedMachine.Run Report).on (convertedTree typings)
      = (report.addSkipped ⟨"schemas/notes"⟩, convertedTree typings) := fun report => rfl
  have horders : ∀ report : Report, (convertEntry sharedSettings report ⟨"schemas/orders.wsdl"⟩ :
      sharedMachine.Run Report).on (convertedTree typings)
      = (report.addFailed ⟨⟨"schemas/orders.wsdl"⟩, sharedError.text⟩, convertedTree typings) := by
    intro report
    have hdocument : sharedSettings.isDocument (convertedTree typings) ⟨"schemas/orders.wsdl"⟩
      = true := rfl
    have hfailed : sharedMachine.typings sharedSettings (convertedTree typings)
      ⟨"schemas/orders.wsdl"⟩ = .error sharedError := rfl
    rw [convertEntry_on, if_pos hdocument, Report.addOutcome, if_pos hdocument, outcome,
      conversion_eq_write, hfailed]
  refine convertFolder_on hlist createFolders_sharedTree ?_
  show (List.foldlM (convertEntry sharedSettings) {} [⟨"schemas/items.wsdl"⟩, ⟨"schemas/notes"⟩,
    ⟨"schemas/orders.wsdl"⟩] : sharedMachine.Run Report).on preparedTree = _
  rw [List.foldlM_cons, Run.on_bind, hitems, List.foldlM_cons, Run.on_bind, hnotes,
    List.foldlM_cons, Run.on_bind, horders]
  rfl

theorem run_sharedArguments :
    (run sharedArguments : sharedMachine.Run Outcome).on sharedTree
      = ({ exit := 1, stdout := (sharedReport typings).text }, convertedTree typings) := by
  have hrequest : request? sharedArguments = some (.convert sharedGiven) := by decide
  have hfolder : (convertFolder (withFolders sharedGiven {}) :
      ExceptT Error sharedMachine.Run Report).run.on sharedTree
      = (.ok (sharedReport typings), convertedTree typings) := convertFolder_sharedTree htypings
  have hsettings : settingsIn sharedMachine sharedGiven sharedTree = .ok {} := rfl
  unfold run
  rw [hrequest]
  show Run.on (runConvert sharedGiven : sharedMachine.Run Outcome) sharedTree = _
  rw [runConvert_on, hsettings]
  dsimp only
  rw [hfolder]
  rfl

end Shared

theorem spares_convertedTree (typings : TypingsFile) {location : List String}
    (hlocate : (convertedTree typings).locate p = .ok location)
    (hother : location ≠ ["types", "items.d.ts"]) :
    (convertedTree typings).Spares [⟨"types/items.d.ts"⟩] p := by
  intro output houtput there hled hthere
  obtain rfl := List.mem_singleton.mp houtput
  have hwritten : (convertedTree typings).locate ⟨"types/items.d.ts"⟩
    = .ok ["types", "items.d.ts"] := rfl
  obtain rfl := Except.ok.inj (hled.symm.trans hwritten)
  exact hother (Except.ok.inj (hlocate.symm.trans hthere))

/-- A folder is converted but for a document that cannot be read. The other one is printed after the
run as it was written, and the one that cannot be read fails to print before the run. -/
theorem print_agrees_with_convert_shared :
    (run sharedArguments : sharedMachine.Run Outcome).on sharedTree
        = ({ exit := 1, stdout := (sharedReport emptyTypings).text }, convertedTree emptyTypings)
      ∧ (run ["print", "schemas/items.wsdl"] : sharedMachine.Run Outcome).on
          (convertedTree emptyTypings)
        = ({ exit := 0, stdout := emptyTypings.text }, convertedTree emptyTypings)
      ∧ (run ["print", "schemas/orders.wsdl"] : sharedMachine.Run Outcome).on sharedTree
        = ({ exit := 1, stderr := "Error: resource error: Failed to read file "
          ++ "'schemas/orders.wsdl': Permission denied (os error 13)\n" }, sharedTree) := by
  have hrun := run_sharedArguments typings_items
  have hrequest : request? sharedArguments = some (.convert sharedGiven) := by decide
  have hsettings : (convertSettings sharedGiven : ExceptT Error sharedMachine.Run Settings).run.on
      sharedTree = (.ok sharedSettings, sharedTree) := rfl
  obtain ⟨-, hall⟩ := print_agrees_with_convert wellNamed_sharedTree hrequest hrun
  obtain ⟨-, hprint⟩ := hall _ _ hsettings (convertFolder_sharedTree typings_items)
  refine ⟨hrun, ?_, ?_⟩
  · have hspares := spares_convertedTree (p := ⟨"schemas/items.wsdl"⟩) emptyTypings rfl (by decide)
    obtain ⟨printed, hprinted, hagrees⟩ := hprint ⟨"schemas/items.wsdl"⟩ (by decide) hspares
      ["print", "schemas/items.wsdl"] { operand := some ⟨"schemas/items.wsdl"⟩ } (by decide)
      rfl rfl rfl _ (.inr ⟨rfl, nofun⟩)
    obtain ⟨text, rfl, -, hend⟩ := hagrees.converted _ (List.mem_singleton_self _) rfl
    have hwritten : (convertedTree emptyTypings).bytesAt ⟨"types/items.d.ts"⟩
      = .ok emptyTypings.text.toUTF8 := rfl
    obtain rfl : text = emptyTypings.text :=
      String.toByteArray_inj.mp (Except.ok.inj ((hend nofun).symm.trans hwritten))
    exact hprinted
  · have hspares := spares_convertedTree (p := ⟨"schemas/orders.wsdl"⟩) emptyTypings rfl (by decide)
    obtain ⟨printed, hprinted, hagrees⟩ := hprint ⟨"schemas/orders.wsdl"⟩ (by decide) hspares
      ["print", "schemas/orders.wsdl"] { operand := some ⟨"schemas/orders.wsdl"⟩ } (by decide)
      rfl rfl rfl _ (.inl rfl)
    obtain rfl := hagrees.failed _ (List.mem_singleton_self _) rfl
      ⟨sharedError, .unreadable _, rfl⟩
    exact hprinted

end Command

end SchemaTypings
