import SchemaTypings.Proofs.Batch.Alone
import SchemaTypings.Proofs.Batch.Outcomes

/-!
# Every document of a folder is handled on its own

The conversion of a folder goes through one tree of files, and writes into it while it goes. It
comes to the same as converting each document alone: in the tree that the run begins with, once the
output folder is there, and with what each conversion would have written
(`convertFolder_handles_alone`).
Neither the order in which a machine lists the folder nor what it refuses makes a difference.

* The invariant is `Overlay`: at the declaration file of every document that was gone through stands
  what its own conversion would have left there, and everything else is untouched.
* One more document preserves it (`Overlay.step`), as documents of different names have declaration
  files of different names and no declaration file takes the place of a document.
* A run succeeds if the input folder is listed and the output folder created, whatever fails in
  between (`exists_convertFolder_on`).
-/

namespace SchemaTypings

open FileTree Machine

variable (machine : Machine) (s : Settings)

namespace Settings

/-- **A document of a tree**: a file that is recognized. -/
def isDocument (t : FileTree) (p : Path) : Bool :=
  t.isFileAt p && s.recognizes p

/-- **A name of a document** in the input folder. -/
def namesDocument (t : FileTree) (name : String) : Bool :=
  s.isDocument t (s.inputFolder.join name)

/-- The entries of the input folder. -/
def Lists (t : FileTree) (p : Path) : Prop :=
  ∃ names, t.namesAt s.inputFolder = .ok names ∧ ∃ name ∈ names, s.inputFolder.join name = p

end Settings

namespace Machine

/-- **The tree in which a run converts**: the one it begins with, and the output folder. -/
def prepared (t : FileTree) : FileTree :=
  ((createFolders s.outputFolder : machine.Run _).on t).2

end Machine

/-! ## A run, document by document -/

/-- **What a run over a folder begins with**, once the output folder is there: the names of the
input folder, and where the output folder is. -/
structure Stage (ready : FileTree) (names place : List String) : Prop where
  /-- Names of entries are listed. -/
  isEntryName : ∀ name ∈ names, IsEntryName name
  /-- Documents have declaration files that are entries of a folder. -/
  written : ∀ name ∈ names, s.namesDocument ready name = true →
    IsEntryName (s.declarationName name)
  /-- What is listed is there. -/
  listed : ∃ around, ready.folderOf s.inputFolder = .ok around
    ∧ ∀ name ∈ names, (ready.kindAt (around ++ [name])).isSome
  /-- The output folder is there. -/
  place : ready.folderOf s.outputFolder = .ok place
  /-- No declaration file of a document takes the place of a document. -/
  spares : ∀ a ∈ names, ∀ b ∈ names, s.namesDocument ready a = true →
    s.namesDocument ready b = true →
    ∀ location, ready.locate (s.declarationPath (s.inputFolder.join a)) = .ok location →
      ready.locate (s.inputFolder.join b) ≠ .ok location

/-- **A tree after some conversions**: at the declaration file of each stands what the conversion on
its own would have left there, and everywhere else what stood there before them all. -/
structure Overlay (ready : FileTree) (place done : List String) (current : FileTree) : Prop where
  /-- What each conversion leaves. -/
  written : ∀ name ∈ done, current.kindAt (place ++ [s.declarationName name])
    = (machine.conversion s ready (s.inputFolder.join name)).2.kindAt
      (place ++ [s.declarationName name])
  /-- What none of them changes. -/
  kept : ∀ location, (∀ name ∈ done, location ≠ place ++ [s.declarationName name]) →
    current.kindAt location = ready.kindAt location

section Run

variable {machine s} {ready current : FileTree} {names place done : List String} {name : String}

theorem exists_of_isDocument {t : FileTree} {p : Path} (h : s.isDocument t p = true) :
    ∃ location bytes, t.locate p = .ok location ∧ t.kindAt location = some (.file bytes) := by
  obtain ⟨bytes, hfind⟩ := isFileAt_iff.mp (Bool.and_eq_true_iff.mp h).1
  obtain ⟨location, hlocate, hkind⟩ := find_eq_file.mp hfind
  exact ⟨location, bytes, hlocate, hkind⟩

/-- A document has the extension of documents. -/
theorem recognizes_of_namesDocument (hname : IsEntryName name)
    (h : s.namesDocument ready name = true) :
    (Path.splitName name).2 = some s.inputExtension :=
  (s.recognizes_join s.inputFolder hname).mp (Bool.and_eq_true_iff.mp h).2

/-- **A conversion on its own leaves the documents as they are.** -/
theorem Stage.kindAt_conversion (hstage : Stage s ready names place) {a b : String}
    (ha : a ∈ names) (hb : b ∈ names) (hda : s.namesDocument ready a = true)
    (hdb : s.namesDocument ready b = true) {location : List String}
    (hlocate : ready.locate (s.inputFolder.join b) = .ok location) :
    (machine.conversion s ready (s.inputFolder.join a)).2.kindAt location
      = ready.kindAt location := by
  have hname := hstage.isEntryName a ha
  have hwritten := hstage.written a ha hda
  by_cases hother : location = place ++ [s.declarationName a]
  · rcases conversion_cases machine hname hwritten hstage.place with
      ⟨e, heq⟩ | ⟨typings, -, haskable, -, -⟩
    · rw [heq]
    · -- The declaration file would stand where the document stands.
      obtain ⟨found, bytes, hfound, hkind⟩ := exists_of_isDocument hdb
      obtain rfl : location = found := Except.ok.inj (hlocate.symm.trans hfound)
      refine absurd hlocate (hstage.spares a ha b hb hda hdb location ?_)
      rw [s.declarationPath_join s.inputFolder hname, locate_join hwritten hstage.place, haskable,
        ← hother, hkind]
      rfl
  · exact SchemaTypings.kindAt_conversion hname hwritten hstage.place hother

namespace Overlay

theorem start (ready : FileTree) (place : List String) : Overlay machine s ready place [] ready :=
  ⟨fun _ h => (nomatch h), fun _ _ => rfl⟩

/-- What stands anywhere is what stood there, or what a conversion on its own leaves there. -/
theorem kindAt_eq (h : Overlay machine s ready place done current) (location : List String) :
    current.kindAt location = ready.kindAt location
      ∨ ∃ name ∈ done, current.kindAt location
        = (machine.conversion s ready (s.inputFolder.join name)).2.kindAt location := by
  by_cases hdone : ∃ name ∈ done, location = place ++ [s.declarationName name]
  · obtain ⟨name, hname, rfl⟩ := hdone
    exact .inr ⟨name, hname, h.written name hname⟩
  · refine .inl (h.kept location fun name hname heq => hdone ⟨name, hname, heq⟩)

variable (hstage : Stage s ready names place)
  (hdone : ∀ name ∈ done, name ∈ names ∧ s.namesDocument ready name = true)

include hstage hdone

/-- **Conversions keep what is there.** -/
theorem keeps (h : Overlay machine s ready place done current) : Keeps ready current := by
  have hkeeps : ∀ location, ∃ u, Keeps ready u ∧ current.kindAt location = u.kindAt location := by
    intro location
    rcases h.kindAt_eq location with heq | ⟨name, hname, heq⟩
    · exact ⟨ready, .of_kept fun _ _ h => h, heq⟩
    · obtain ⟨hmem, hdocument⟩ := hdone name hname
      exact ⟨_, keeps_conversion (hstage.isEntryName name hmem)
        (hstage.written name hmem hdocument) hstage.place, heq⟩
  refine ⟨fun location hfolder => ?_, fun location bytes hfile => ?_⟩
  · obtain ⟨u, hu, heq⟩ := hkeeps location
    rw [heq, hu.folder location hfolder]
  · obtain ⟨u, hu, heq⟩ := hkeeps location
    rw [heq]
    exact hu.file location bytes hfile

/-- **Conversions leave the documents as they are.** -/
theorem find_eq (h : Overlay machine s ready place done current) (hname : name ∈ names)
    (hdocument : s.namesDocument ready name = true) :
    current.find (s.inputFolder.join name) = ready.find (s.inputFolder.join name) := by
  obtain ⟨location, bytes, hlocate, hkind⟩ := exists_of_isDocument hdocument
  have hthere := locate_of_keeps (h.keeps hstage hdone) hlocate
  have heq : current.kindAt location = ready.kindAt location := by
    rcases h.kindAt_eq location with heq | ⟨other, hother, heq⟩
    · exact heq
    · obtain ⟨hmem, hdother⟩ := hdone other hother
      rw [heq, hstage.kindAt_conversion hmem hname hdother hdocument hlocate]
  rw [find_eq_file.mpr ⟨location, hlocate, hkind⟩,
    find_eq_file.mpr ⟨location, hthere, heq.trans hkind⟩]

/-- **Conversions do not change which entries are documents.** -/
theorem isDocument_eq (h : Overlay machine s ready place done current) (hname : name ∈ names) :
    s.isDocument current (s.inputFolder.join name)
      = s.isDocument ready (s.inputFolder.join name) := by
  obtain ⟨around, hfolder, hthere⟩ := hstage.listed
  unfold Settings.isDocument
  rw [isFileAt_join_of_keeps (h.keeps hstage hdone) (hstage.isEntryName name hname) hfolder
    (hthere name hname)]

/-- **One more document** is converted as it would be on its own, if its declaration file is not
that of a document before it. -/
theorem step (h : Overlay machine s ready place done current) (hname : name ∈ names)
    (hdocument : s.namesDocument ready name = true)
    (hfresh : ∀ other ∈ done, s.declarationName other ≠ s.declarationName name) :
    machine.outcome s current (s.inputFolder.join name)
        = machine.outcome s ready (s.inputFolder.join name)
      ∧ Overlay machine s ready place (done ++ [name])
        (machine.conversion s current (s.inputFolder.join name)).2 := by
  have hentry := hstage.isEntryName name hname
  have hwritten := hstage.written name hname hdocument
  have hplace := folderOf_of_keeps (h.keeps hstage hdone) hstage.place
  have hapart : ∀ other ∈ done,
      place ++ [s.declarationName name] ≠ place ++ [s.declarationName other] :=
    fun other hother heq =>
      hfresh other hother (List.singleton_inj.mp (List.append_cancel_left heq)).symm
  obtain ⟨hresult, hleft⟩ := conversion_agrees machine hentry hwritten hplace
    hstage.place (h.find_eq hstage hdone hname hdocument) (h.kept _ hapart)
  refine ⟨hresult, ⟨fun other hother => ?_, fun location hlocation => ?_⟩⟩
  · rcases List.mem_append.mp hother with hother | hother
    · rw [kindAt_conversion hentry hwritten hplace (hapart other hother).symm]
      exact h.written other hother
    · rw [List.mem_singleton.mp hother]
      exact hleft
  · have hname := hlocation name (List.mem_append_right done (List.mem_singleton_self name))
    rw [kindAt_conversion hentry hwritten hplace hname]
    exact h.kept location fun other hother => hlocation other (List.mem_append_left _ hother)

/-- **A document that is converted on its own** has the declaration file written that it would have
been written, and the path of the file leads there. -/
theorem of_outcome_eq_ok (h : Overlay machine s ready place done current) (hname : name ∈ done)
    {file : Converted}
    (houtcome : machine.outcome s ready (s.inputFolder.join name) = .ok file) :
    current.locate file.output = .ok (place ++ [s.declarationName name])
      ∧ ∃ typings, machine.typings s ready file.input = .ok typings
        ∧ file.input = s.inputFolder.join name
        ∧ file.output = s.declarationPath file.input ∧ file.declarations = typings.declarations
        ∧ file.diagnostics = typings.diagnostics
        ∧ current.kindAt (place ++ [s.declarationName name])
          = some (.file typings.text.toUTF8) := by
  obtain ⟨hmem, hdocument⟩ := hdone name hname
  have hentry := hstage.isEntryName name hmem
  have hwritten := hstage.written name hmem hdocument
  have hplace := folderOf_of_keeps (h.keeps hstage hdone) hstage.place
  unfold outcome at houtcome
  rcases conversion_cases machine hentry hwritten hstage.place with
    ⟨e, heq⟩ | ⟨typings, htypings, haskable, hfree, heq⟩
  · rw [heq] at houtcome
    cases houtcome
  · rw [heq] at houtcome
    obtain rfl := Except.ok.inj houtcome
    have hkind : current.kindAt (place ++ [s.declarationName name])
        = some (.file typings.text.toUTF8) := by
      rw [h.written name hname, heq]
      show (put _ ready (place ++ [_])).kindAt _ = _
      rw [kindAt_put (kindAt_of_folderOf hstage.place) hfree fun names => kindAt_file_of_ne_nil _,
        if_pos rfl, kind]
    refine ⟨?_, typings, htypings, rfl, (s.declarationPath_join _ hentry).symm, rfl, rfl, hkind⟩
    rw [locate_join hwritten hplace, haskable, hkind]
    rfl

end Overlay

/-- One entry: its outcome is added to the report, and only a document is converted. -/
theorem convertEntry_on (report : Report) (t : FileTree) (p : Path) :
    (convertEntry s report p : machine.Run Report).on t
      = (report.addOutcome (s.isDocument t) (machine.outcome s t) p,
        if s.isDocument t p then (machine.conversion s t p).2 else t) := by
  unfold convertEntry
  rw [Run.on_bind, Run.on_isFile]
  unfold Report.addOutcome
  show Run.on (if s.isDocument t p = true then _ else _) t = _
  by_cases hdocument : s.isDocument t p = true
  · rw [if_pos hdocument, if_pos hdocument, if_pos hdocument, Run.on_bind]
    unfold outcome conversion
    rcases (writeConverted s p : ExceptT Error machine.Run Converted).run.on t with ⟨_ | _, u⟩
    · rfl
    · rfl
  · rw [if_neg hdocument, if_neg hdocument, if_neg hdocument]
    rfl

/-- **One more entry** adds to the report what it comes to on its own. -/
theorem Overlay.convertEntry_on (hstage : Stage s ready names place)
    (hdone : ∀ name ∈ done, name ∈ names ∧ s.namesDocument ready name = true)
    (h : Overlay machine s ready place done current) (hname : name ∈ names) (hnew : name ∉ done)
    (report : Report) :
    ∃ next, (convertEntry s report (s.inputFolder.join name) : machine.Run Report).on current
        = (report.addOutcome (s.isDocument ready) (machine.outcome s ready)
          (s.inputFolder.join name), next)
      ∧ Overlay machine s ready place (done ++ [name].filter (s.namesDocument ready)) next := by
  have hsame := h.isDocument_eq hstage hdone hname
  rw [SchemaTypings.convertEntry_on]
  by_cases hdocument : s.namesDocument ready name = true
  · have hfresh : ∀ other ∈ done, s.declarationName other ≠ s.declarationName name := by
      intro other hother heq
      obtain ⟨hmem, hdother⟩ := hdone other hother
      refine hnew (s.declarationName_inj ?_ ?_ heq ▸ hother)
      · exact recognizes_of_namesDocument (hstage.isEntryName other hmem) hdother
      · exact recognizes_of_namesDocument (hstage.isEntryName name hname) hdocument
    obtain ⟨hresult, hoverlay⟩ := h.step hstage hdone hname hdocument hfresh
    refine ⟨(machine.conversion s current (s.inputFolder.join name)).2, ?_, ?_⟩
    · rw [if_pos (hsame.trans hdocument), report.addOutcome_congr hsame fun _ => hresult]
    · rw [List.filter_cons_of_pos hdocument]
      exact hoverlay
  · refine ⟨current, ?_, ?_⟩
    · rw [if_neg fun hcurrent => hdocument (hsame.symm.trans hcurrent),
        report.addOutcome_congr hsame fun hready => absurd hready hdocument]
    · rw [List.filter_cons_of_neg hdocument, List.filter_nil, List.append_nil]
      exact h

variable (machine) in
/-- **The loop over the entries** adds to the report what each comes to on its own. The induction is
on the entries that are left; the overlay of the documents before them carries it. -/
theorem foldlM_convertEntry_on (hstage : Stage s ready names place) {left : List String}
    (hdone : ∀ name ∈ done, name ∈ names ∧ s.namesDocument ready name = true)
    (hleft : ∀ name ∈ left, name ∈ names) (hnodup : (done ++ left).Nodup)
    (h : Overlay machine s ready place done current) (report : Report) :
    ∃ after, ((left.map s.inputFolder.join).foldlM (convertEntry s) report : machine.Run Report).on
          current
        = ((left.map s.inputFolder.join).foldl (Report.addOutcome (s.isDocument ready)
          (machine.outcome s ready)) report, after)
      ∧ Overlay machine s ready place (done ++ left.filter (s.namesDocument ready)) after := by
  induction left generalizing done current report with
  | nil =>
    refine ⟨current, rfl, ?_⟩
    rw [List.filter_nil, List.append_nil]
    exact h
  | cons name left ih =>
    have hname := hleft name List.mem_cons_self
    have hnew : name ∉ done := fun hmem =>
      (List.nodup_append.mp hnodup).2.2 name hmem name List.mem_cons_self rfl
    obtain ⟨next, hentry, hnext⟩ := h.convertEntry_on hstage hdone hname hnew report
    have hone : List.Sublist ([name].filter (s.namesDocument ready)) [name] :=
      List.filter_sublist
    have hdone' : ∀ other ∈ done ++ [name].filter (s.namesDocument ready),
        other ∈ names ∧ s.namesDocument ready other = true := by
      intro other hother
      rcases List.mem_append.mp hother with hother | hother
      · exact hdone other hother
      · obtain ⟨hmem, hdocument⟩ := List.mem_filter.mp hother
        rw [List.mem_singleton.mp hmem] at hdocument ⊢
        exact ⟨hname, hdocument⟩
    have hnodup' : ((done ++ [name].filter (s.namesDocument ready)) ++ left).Nodup := by
      rw [List.append_assoc]
      exact hnodup.sublist ((hone.append_right left).append_left done)
    have hleft' : ∀ other ∈ left, other ∈ names :=
      fun other hother => hleft other (List.mem_cons_of_mem _ hother)
    obtain ⟨after, hrun, hafter⟩ := ih hdone' hleft' hnodup' hnext (report.addOutcome
      (s.isDocument ready) (machine.outcome s ready) (s.inputFolder.join name))
    refine ⟨after, ?_, ?_⟩
    · rw [List.map_cons, List.foldlM_cons, List.foldl_cons, Run.on_bind, hentry]
      exact hrun
    · rw [List.append_assoc, ← List.filter_append] at hafter
      exact hafter

end Run

/-! ## The whole run -/

/-- **No declaration file takes the place of a document**: where the declaration file of a document
would be, no document of the input folder is found. -/
def SparesDocuments (t : FileTree) : Prop :=
  ∀ p q, s.Lists t p → s.Lists t q → s.isDocument t p = true → s.isDocument t q = true →
    ∀ location, (machine.prepared s t).locate (s.declarationPath p) = .ok location →
      (machine.prepared s t).locate q ≠ .ok location

/-- **Every document is handled on its own.** What is reported of an entry and written for it is
what converting it alone comes to, in the tree in which the run converts. -/
structure HandledAlone (t : FileTree) (entries : List Path) (report : Report) (after : FileTree) :
    Prop where
  /-- Of each document the report says what comes of it alone, and it names what is no document. -/
  eq_ofOutcomes : report
    = .ofOutcomes (s.isDocument t) (machine.outcome s (machine.prepared s t)) entries
  /-- Every entry is in exactly one list of the report. -/
  once : (report.converted.map (·.input) ++ report.failed.map (·.input)
    ++ report.skipped).Perm entries
  /-- What is converted comes in the order of the entries. -/
  converted_sublist : (report.converted.map (·.input)).Sublist entries
  /-- What fails comes in the order of the entries. -/
  failed_sublist : (report.failed.map (·.input)).Sublist entries
  /-- What is passed over comes in the order of the entries. -/
  skipped_sublist : report.skipped.Sublist entries
  /-- The run begins with adding the folders that are missing on the path of the output folder. -/
  addsFolders : AddsFolders (s.outputFolder :: s.outputFolder.ancestors) t (machine.prepared s t)
  /-- The path then leads to a folder. -/
  folderOf : ∃ place, (machine.prepared s t).folderOf s.outputFolder = .ok place
  /-- Of a document that is converted, the declaration file is written. -/
  written : ∀ file ∈ report.converted, ∃ typings,
    machine.typings s (machine.prepared s t) file.input = .ok typings
      ∧ file.output = s.declarationPath file.input ∧ file.declarations = typings.declarations
      ∧ file.diagnostics = typings.diagnostics
      ∧ after.bytesAt file.output = .ok typings.text.toUTF8
  /-- Nothing else is changed. -/
  rest : ∀ location, (∀ file ∈ report.converted, after.locate file.output ≠ .ok location) →
    after.kindAt location = (machine.prepared s t).kindAt location

/-- Names in their order. -/
def byName (names : List String) : List String :=
  names.mergeSort fun a b => decide (a ≤ b)

section Folder

variable {machine s} {t after : FileTree} {report : Report}

/-- Listing the input folder changes nothing. -/
theorem of_listEntries_on {entries : List Path} {u : FileTree}
    (h : (listEntries s : ExceptT Error machine.Run (List Path)).run.on t = (.ok entries, u)) :
    t = u ∧ ∃ names, t.namesAt s.inputFolder = .ok names
      ∧ (byName (machine.order names)).map s.inputFolder.join = entries := by
  unfold listEntries at h
  rw [Run.on_bindExcept, Run.on_demand, Run.on_names] at h
  unfold answer at h
  cases hrefusal : machine.refusal .names s.inputFolder with
  | some e =>
    rw [hrefusal] at h
    cases congrArg Prod.fst h
  | none =>
    rw [hrefusal] at h
    cases hnames : t.namesAt s.inputFolder with
    | error e =>
      rw [hnames] at h
      cases congrArg Prod.fst h
    | ok names =>
      rw [hnames] at h
      exact ⟨congrArg Prod.snd h, names, rfl, Except.ok.inj (congrArg Prod.fst h)⟩

/-- **The steps of a run that succeeds**: listing the input folder, creating the output folder, and
going through the entries. -/
theorem exists_entries_of_convertFolder_on
    (h : (convertFolder s : ExceptT Error machine.Run Report).run.on t = (.ok report, after)) :
    ∃ entries, (listEntries s : ExceptT Error machine.Run (List Path)).run.on t = (.ok entries, t)
      ∧ (createFolders s.outputFolder : machine.Run _).on t = (.ok (), machine.prepared s t)
      ∧ (entries.foldlM (convertEntry s) {} : machine.Run Report).on (machine.prepared s t)
        = (report, after) := by
  unfold convertFolder at h
  rw [Run.on_bindExcept] at h
  rcases hlist : (listEntries s : ExceptT Error machine.Run (List Path)).run.on t with
    ⟨_ | entries, u⟩
  · rw [hlist] at h
    cases congrArg Prod.fst h
  · obtain ⟨rfl, -⟩ := of_listEntries_on hlist
    rw [hlist] at h
    dsimp only at h
    rw [Run.on_bindExcept, Run.on_demand] at h
    unfold prepared
    rcases hcreate : (createFolders s.outputFolder : machine.Run _).on t with ⟨_ | _, ready⟩
    · rw [hcreate] at h
      cases congrArg Prod.fst h
    · rw [hcreate] at h
      obtain ⟨hreport, hafter⟩ := Prod.mk.inj h
      exact ⟨entries, rfl, rfl, Prod.ext (Except.ok.inj hreport) hafter⟩

/-- A run that succeeds goes through the entries by name. -/
theorem of_convertFolder_on
    (h : (convertFolder s : ExceptT Error machine.Run Report).run.on t = (.ok report, after)) :
    ∃ names, t.namesAt s.inputFolder = .ok names
      ∧ (createFolders s.outputFolder : machine.Run _).on t = (.ok (), machine.prepared s t)
      ∧ (((byName (machine.order names)).map s.inputFolder.join).foldlM (convertEntry s) {} :
        machine.Run Report).on (machine.prepared s t) = (report, after) := by
  obtain ⟨entries, hlist, hcreate, hloop⟩ := exists_entries_of_convertFolder_on h
  obtain ⟨-, names, hnames, rfl⟩ := of_listEntries_on hlist
  exact ⟨names, hnames, hcreate, hloop⟩

theorem byName_perm (names : List String) : (byName names).Perm names :=
  List.mergeSort_perm names _

/-- Different names come in strictly ascending order. -/
theorem pairwise_byName {names : List String} (h : names.Nodup) :
    (byName names).Pairwise (· < ·) := by
  have hsorted : (byName names).Pairwise fun a b => decide (a ≤ b) = true := by
    refine List.pairwise_mergeSort (fun a b c hab hbc => ?_) (fun a b => ?_) names
    · exact decide_eq_true (String.le_trans (of_decide_eq_true hab) (of_decide_eq_true hbc))
    · exact Bool.or_eq_true_iff.mpr ((String.le_total a b).imp decide_eq_true decide_eq_true)
  refine (hsorted.and ((byName_perm names).nodup_iff.mpr h)).imp fun {a b} ⟨hle, hne⟩ => ?_
  by_contra hlt
  exact hne (String.le_antisymm (of_decide_eq_true hle) (String.not_lt.mp hlt))

/-- Entries come in strictly ascending order, as their names do. -/
theorem pairwise_entries (p : Path) {names : List String} (h : names.Nodup) :
    ((byName (machine.order names)).map p.join).Pairwise fun q r => q.text < r.text :=
  List.pairwise_map.mpr
    ((pairwise_byName ((machine.order_perm names).nodup_iff.mpr h)).imp p.text_join_lt_text_join)

/-- Something can be there only if the top is a folder. -/
theorem top_of_folderOf {p : Path} {location : List String} (h : t.folderOf p = .ok location) :
    t.kindAt [] = some .folder := by
  obtain ⟨entries, hget⟩ := exists_folder_of_kindAt (kindAt_of_folderOf h)
  cases t with
  | folder entries => exact kindAt_nil _
  | file bytes =>
    cases location with
    | nil => cases hget
    | cons name names => cases hget

/-- **Where a run stands** once the output folder is there: entries are documents if they were. -/
theorem exists_stage (hnamed : t.WellNamed) (hextension : s.outputExtension ≠ "")
    (hslash : '/' ∉ s.outputExtension.toList) (hspares : SparesDocuments machine s t)
    {names : List String} (hnames : t.namesAt s.inputFolder = .ok names)
    (hcreate : (createFolders s.outputFolder : machine.Run _).on t
      = (.ok (), machine.prepared s t)) :
    AddsFolders (s.outputFolder :: s.outputFolder.ancestors) t (machine.prepared s t)
      ∧ (∀ name ∈ names, s.isDocument (machine.prepared s t) (s.inputFolder.join name)
        = s.isDocument t (s.inputFolder.join name))
      ∧ ∃ place, Stage s (machine.prepared s t) names place := by
  obtain ⟨-, hentry, around, hfolder, hthere⟩ := hnamed.of_namesAt hnames
  obtain ⟨hadds, place, hplace⟩ := Run.createFolders_on (top_of_folderOf hfolder) hcreate
  have hdocument : ∀ name ∈ names, s.isDocument (machine.prepared s t) (s.inputFolder.join name)
      = s.isDocument t (s.inputFolder.join name) := by
    intro name hname
    unfold Settings.isDocument
    rw [isFileAt_join_of_keeps hadds.keeps (hentry name hname) hfolder (hthere name hname)]
  refine ⟨hadds, hdocument, place, ⟨hentry, fun name hname hready => ?_, ?_, hplace, ?_⟩⟩
  · exact s.isEntryName_declarationName hextension hslash (hentry name hname)
      (recognizes_of_namesDocument (hentry name hname) hready)
  · exact ⟨around, folderOf_of_keeps hadds.keeps hfolder,
      fun name hname => hadds.keeps.isSome (hthere name hname)⟩
  · intro a ha b hb hda hdb
    exact hspares _ _ ⟨names, hnames, a, ha, rfl⟩ ⟨names, hnames, b, hb, rfl⟩
      ((hdocument a ha).symm.trans hda) ((hdocument b hb).symm.trans hdb)

/-- **A tree after the conversions of a run** is one in which every document was handled on its own,
if the report says what comes of each. -/
theorem Overlay.handledAlone {names left place : List String}
    (hstage : Stage s (machine.prepared s t) names place)
    (hadds : AddsFolders (s.outputFolder :: s.outputFolder.ancestors) t (machine.prepared s t))
    (hdocument : ∀ name ∈ names, s.isDocument (machine.prepared s t) (s.inputFolder.join name)
      = s.isDocument t (s.inputFolder.join name))
    (hleft : ∀ name ∈ left, name ∈ names)
    (h : Overlay machine s (machine.prepared s t) place
      (left.filter (s.namesDocument (machine.prepared s t))) after) :
    HandledAlone machine s t (left.map s.inputFolder.join)
      (.ofOutcomes (s.isDocument t) (machine.outcome s (machine.prepared s t))
        (left.map s.inputFolder.join)) after := by
  have hinput : ∀ p file, machine.outcome s (machine.prepared s t) p = .ok file → file.input = p :=
    fun p file => input_of_outcome
  have hdone : ∀ name ∈ left.filter (s.namesDocument (machine.prepared s t)),
      name ∈ names ∧ s.namesDocument (machine.prepared s t) name = true :=
    fun name hname => (List.mem_filter.mp hname).imp_left (hleft name)
  refine ⟨rfl, Report.inputs_ofOutcomes_perm _ hinput _, ?_, ?_, List.filter_sublist, hadds,
    ⟨place, hstage.place⟩, fun file hfile => ?_, fun location hlocation => ?_⟩
  · rw [Report.map_input_converted _ hinput]
    exact List.filter_sublist.trans List.filter_sublist
  · rw [Report.map_input_failed]
    exact List.filter_sublist.trans List.filter_sublist
  · obtain ⟨p, hp, hpdocument, houtcome⟩ := (Report.mem_converted_ofOutcomes _ _).mp hfile
    obtain ⟨name, hname, rfl⟩ := List.mem_map.mp hp
    have hname : name ∈ left.filter (s.namesDocument (machine.prepared s t)) :=
      List.mem_filter.mpr ⟨hname, (hdocument name (hleft name hname)).trans hpdocument⟩
    obtain ⟨hlocate, typings, htypings, -, houtput, hcount, hnotes, hkind⟩ :=
      h.of_outcome_eq_ok hstage hdone hname houtcome
    exact ⟨typings, htypings, houtput, hcount, hnotes,
      bytesAt_of_find (find_eq_file.mpr ⟨_, hlocate, hkind⟩)⟩
  · rcases h.kindAt_eq location with heq | ⟨name, hname, heq⟩
    · exact heq
    · obtain ⟨hmem, hready⟩ := hdone name hname
      have hentry := hstage.isEntryName name hmem
      have hwritten := hstage.written name hmem hready
      rw [heq]
      by_cases hother : location = place ++ [s.declarationName name]
      · rcases conversion_cases machine hentry hwritten hstage.place with
          ⟨e, hfailed⟩ | ⟨typings, -, -, -, hconverted⟩
        · rw [hfailed]
        · -- The document is reported, so its declaration file is not at the location.
          have houtcome := congrArg Prod.fst hconverted
          refine absurd (hother ▸ (h.of_outcome_eq_ok hstage hdone hname houtcome).1)
            (hlocation _ ((Report.mem_converted_ofOutcomes _ _).mpr ⟨_, ?_, ?_, houtcome⟩))
          · exact List.mem_map_of_mem (List.mem_filter.mp hname).1
          · exact (hdocument name hmem).symm.trans hready
      · exact kindAt_conversion hentry hwritten hstage.place hother

/-- **Every document of a folder is converted on its own.** Whatever the order in which a machine
lists the folder and whatever it refuses, a run that succeeds goes through the entries by name, each
is reported and written as if it were the only one, and nothing else changes.

It takes that the folders of the tree name their entries apart, that declaration files have an
extension which is the end of a file name, and that no declaration file takes the place of a
document. -/
theorem convertFolder_handles_alone (hnamed : t.WellNamed) (hextension : s.outputExtension ≠ "")
    (hslash : '/' ∉ s.outputExtension.toList) (hspares : SparesDocuments machine s t)
    (hrun : (convertFolder s : ExceptT Error machine.Run Report).run.on t = (.ok report, after)) :
    ∃ entries : List Path, (∀ p, p ∈ entries ↔ s.Lists t p)
      ∧ entries.Pairwise (fun p q => p.text < q.text)
      ∧ HandledAlone machine s t entries report after := by
  obtain ⟨names, hnames, hcreate, hloop⟩ := of_convertFolder_on hrun
  obtain ⟨hadds, hdocument, place, hstage⟩ :=
    exists_stage hnamed hextension hslash hspares hnames hcreate
  have hperm : (byName (machine.order names)).Perm names :=
    (byName_perm _).trans (machine.order_perm names)
  obtain ⟨hnodup, -, -⟩ := hnamed.of_namesAt hnames
  have hleft : ∀ name ∈ byName (machine.order names), name ∈ names :=
    fun name h => hperm.mem_iff.mp h
  have hnone : ∀ name ∈ ([] : List String), name ∈ names
      ∧ s.namesDocument (machine.prepared s t) name = true := nofun
  obtain ⟨final, hfinal, hoverlay⟩ := foldlM_convertEntry_on machine hstage hnone hleft
    (hperm.nodup_iff.mpr hnodup) (.start (machine.prepared s t) place) {}
  obtain ⟨rfl, rfl⟩ := Prod.mk.inj (hfinal.symm.trans hloop)
  have hsame : ∀ p ∈ (byName (machine.order names)).map s.inputFolder.join,
      s.isDocument (machine.prepared s t) p = s.isDocument t p := by
    intro p hp
    obtain ⟨name, hname, rfl⟩ := List.mem_map.mp hp
    exact hdocument name (hleft name hname)
  rw [Report.foldl_addOutcome, Report.ofOutcomes_congr _ hsame]
  refine ⟨_, fun p => ?_, ?_, hoverlay.handledAlone hstage hadds hdocument hleft⟩
  · rw [List.mem_map]
    constructor
    · rintro ⟨name, hname, rfl⟩
      exact ⟨names, hnames, name, hleft name hname, rfl⟩
    · rintro ⟨listed, hlisted, name, hname, rfl⟩
      obtain rfl := Except.ok.inj (hnames.symm.trans hlisted)
      exact ⟨name, hperm.mem_iff.mpr hname, rfl⟩
  · exact pairwise_entries s.inputFolder hnodup

/-- What a run comes to if its steps succeed. -/
theorem convertFolder_on {entries : List Path} {ready : FileTree}
    (hlist : (listEntries s : ExceptT Error machine.Run (List Path)).run.on t = (.ok entries, t))
    (hcreate : (createFolders s.outputFolder : machine.Run _).on t = (.ok (), ready))
    (hloop : (entries.foldlM (convertEntry s) {} : machine.Run Report).on ready
      = (report, after)) :
    (convertFolder s : ExceptT Error machine.Run Report).run.on t = (.ok report, after) := by
  have hlift : (ExceptT.lift (entries.foldlM (convertEntry s) {}) :
      ExceptT Error machine.Run Report).run.on ready = (.ok report, after) :=
    congrArg (fun r => (Except.ok r.1, r.2)) hloop
  unfold convertFolder
  rw [Run.on_bindExcept, hlist]
  dsimp only
  rw [Run.on_bindExcept, Run.on_demand, hcreate]
  exact hlift

/-- **Only two things can end a run**: that the input folder is not listed, and that the output
folder is not created. -/
theorem exists_convertFolder_on {names : List String} {ready : FileTree}
    (hallowed : machine.refusal .names s.inputFolder = none)
    (hnames : t.namesAt s.inputFolder = .ok names)
    (hcreate : (createFolders s.outputFolder : machine.Run _).on t = (.ok (), ready)) :
    ∃ report after,
      (convertFolder s : ExceptT Error machine.Run Report).run.on t = (.ok report, after) := by
  have hlist : (listEntries s : ExceptT Error machine.Run (List Path)).run.on t
      = (.ok ((byName (machine.order names)).map s.inputFolder.join), t) := by
    unfold listEntries
    rw [Run.on_bindExcept, Run.on_demand, Run.on_names, answer, hallowed, hnames]
    rfl
  exact ⟨_, _, convertFolder_on hlist hcreate rfl⟩

end Folder

/-! ## A folder with a document that cannot be read -/

/-- A folder with two documents and a folder. -/
def sharedTree : FileTree :=
  .folder [("schemas", .folder [
    ("orders.wsdl", .file "<definitions/>".toUTF8),
    ("notes", .empty),
    ("items.wsdl", .file "<schema/>".toUTF8)])]

/-- The settings of a run over the folder, whose output folder is missing. -/
def sharedSettings : Settings where
  inputFolder := ⟨"schemas"⟩
  outputFolder := ⟨"types"⟩

/-- A machine that lists folders backwards and does not let one of the documents be read. -/
def sharedMachine : Machine where
  order := List.reverse
  order_perm := List.reverse_perm
  refusal request p :=
    if request = .bytes ∧ p.text = "schemas/orders.wsdl" then
      some (.other "Permission denied (os error 13)")
    else none

/-- The tree with the output folder. -/
def preparedTree : FileTree :=
  .folder [("schemas", .folder [
    ("orders.wsdl", .file "<definitions/>".toUTF8),
    ("notes", .empty),
    ("items.wsdl", .file "<schema/>".toUTF8)]), ("types", .empty)]

theorem wellNamed_sharedTree : sharedTree.WellNamed := by
  refine .folder (by decide) (by decide) fun entry hentry => ?_
  obtain rfl := List.mem_singleton.mp hentry
  refine .folder (by decide) (by decide) fun entry hentry => ?_
  rcases List.mem_cons.mp hentry with rfl | hentry
  · exact .file _
  rcases List.mem_cons.mp hentry with rfl | hentry
  · exact .folder List.nodup_nil nofun nofun
  · obtain rfl := List.mem_singleton.mp hentry
    exact .file _

theorem createFolders_sharedTree :
    (createFolders sharedSettings.outputFolder : sharedMachine.Run _).on sharedTree
      = (.ok (), preparedTree) := by
  have hcreated : sharedTree.withFolder sharedSettings.outputFolder = .ok preparedTree := rfl
  unfold createFolders createAlong
  rw [if_neg (by decide), Run.on_bind, Run.on_createFolder, hcreated]
  rfl

theorem sparesDocuments_sharedTree : SparesDocuments sharedMachine sharedSettings sharedTree := by
  rintro p q ⟨listed, hlisted, name, hname, rfl⟩ - hdocument - location hlocate
  have hprepared : sharedMachine.prepared sharedSettings sharedTree = preparedTree :=
    congrArg Prod.snd createFolders_sharedTree
  obtain rfl : ["orders.wsdl", "notes", "items.wsdl"] = listed := Except.ok.inj hlisted
  rw [hprepared] at hlocate
  rcases List.mem_cons.mp hname with rfl | hname
  · cases hlocate
  rcases List.mem_cons.mp hname with rfl | hname
  · cases hdocument
  · obtain rfl := List.mem_singleton.mp hname
    cases hlocate

/-- A run over a folder with a document that cannot be read. -/
theorem convertFolder_handles_alone_shared :
    ∃ report after, (convertFolder sharedSettings : ExceptT Error sharedMachine.Run Report).run.on
        sharedTree = (.ok report, after)
      ∧ ∃ entries : List Path, (∀ p, p ∈ entries ↔ sharedSettings.Lists sharedTree p)
        ∧ entries.Pairwise (fun p q => p.text < q.text)
        ∧ HandledAlone sharedMachine sharedSettings sharedTree entries report after := by
  obtain ⟨report, after, hrun⟩ := exists_convertFolder_on (s := sharedSettings) rfl rfl
    createFolders_sharedTree
  exact ⟨report, after, hrun, convertFolder_handles_alone wellNamed_sharedTree (by decide)
    (by decide) sparesDocuments_sharedTree hrun⟩

end SchemaTypings
