import SchemaTypings.Batch.Convert
import SchemaTypings.Proofs.Files.Creation

/-!
# A document on its own

What comes of one document, as a function of the tree in which it is converted. A conversion asks
only about the path of the document, and fails without a trace or writes the declaration file
(`conversion_cases`). So it comes to the same in trees that agree about the document and about what
stands where its declaration file goes (`conversion_agrees`), and it changes nothing but that file
(`kindAt_conversion`).
-/

namespace SchemaTypings

open FileTree Machine

variable (machine : Machine) (s : Settings)

namespace Machine

/-- What comes of converting a document, without writing anything. -/
def typings (t : FileTree) (p : Path) : Except Error TypingsFile :=
  ((convertFile s p : ExceptT Error machine.Run TypingsFile).run.on t).1

/-- **The conversion of a document on its own**: what comes of it, and the tree that it leaves. -/
def conversion (t : FileTree) (p : Path) : Except Error Converted × FileTree :=
  (writeConverted s p : ExceptT Error machine.Run Converted).run.on t

/-- **What comes of a document** that is converted on its own. -/
def outcome (t : FileTree) (p : Path) : Except Error Converted :=
  (machine.conversion s t p).1

end Machine

variable {machine s} {t u : FileTree} {p : Path}

variable (machine) in
/-- **Reading a text only asks about its path**, so it comes to the same where the same file is
found. -/
theorem answersAlike_readText (h : t.find p = u.find p) (refused : SystemError → Error) :
    Run.AnswersAlike t u (readText refused p : ExceptT Error machine.Run String).run := by
  refine .bindExcept (.demand (.bytes h) refused) fun bytes => ?_
  cases String.fromUTF8? bytes with
  | some text => exact .pure (Except.ok text)
  | none => exact .pure (Except.error (refused .notText))

/-- A text that is read is that of a file. -/
theorem exists_find_of_readText_on {refused : SystemError → Error} {text : String}
    (h : (readText refused p : ExceptT Error machine.Run String).run.on t = (.ok text, u)) :
    ∃ bytes, t.find p = .ok (.file bytes) := by
  unfold readText at h
  rw [Run.on_bindExcept, Run.on_demand, Run.on_bytes] at h
  cases hanswer : machine.answer .bytes p (t.bytesAt p) with
  | error cause =>
    rw [hanswer] at h
    cases congrArg Prod.fst h
  | ok bytes => exact ⟨bytes, find_of_bytesAt (machine.eq_ok_of_answer_eq_ok hanswer)⟩

variable (machine) in
/-- **Converting a document only asks about its path**, so it comes to the same where the same file
is found. -/
theorem answersAlike_convertFile (h : t.find p = u.find p) :
    Run.AnswersAlike t u (convertFile s p : ExceptT Error machine.Run TypingsFile).run := by
  refine .bindExcept ?_ fun text => .settle _
  refine .bindExcept (.demand (.size h) _) fun size => .bindExcept (.settle _) fun _ => ?_
  exact .bindExcept (answersAlike_readText machine h _) fun text =>
    .bindExcept (.settle _) fun _ => .pure (Except.ok text)

variable (machine s) in
/-- Converting a document without writing anything changes nothing. -/
theorem convertFile_on (t : FileTree) (p : Path) :
    (convertFile s p : ExceptT Error machine.Run TypingsFile).run.on t
      = (machine.typings s t p, t) := by
  obtain ⟨result, hresult, -⟩ := answersAlike_convertFile machine (s := s) (u := t) (p := p) rfl
  rw [Machine.typings, hresult]

variable (machine s) in
/-- The same comes of a document where the same file is found. -/
theorem typings_congr (h : t.find p = u.find p) :
    machine.typings s t p = machine.typings s u p := by
  obtain ⟨result, ht, hu⟩ := answersAlike_convertFile machine (s := s) h
  rw [Machine.typings, Machine.typings, ht, hu]

/-- The bytes of a text are read as the text. -/
theorem fromUTF8?_toUTF8 (text : String) : String.fromUTF8? text.toUTF8 = some text :=
  dif_pos text.isValidUTF8

variable (machine) in
/-- A text that is found is read, unless the machine refuses that. -/
theorem readText_on {text : String} (hbytes : machine.refusal .bytes p = none)
    (hfind : t.find p = .ok (.file text.toUTF8)) (refused : SystemError → Error) :
    (readText refused p : ExceptT Error machine.Run String).run.on t = (.ok text, t) := by
  unfold readText
  rw [Run.on_bindExcept, Run.on_demand, Run.on_bytes, answer, hbytes, bytesAt_of_find hfind]
  dsimp only [Except.mapError]
  rw [fromUTF8?_toUTF8]
  rfl

variable (machine) in
/-- **A document is loaded** if the machine does not refuse that and it is not too large. -/
theorem loadDocument_on {limits : Limits} {text : String} (hsize : machine.refusal .size p = none)
    (hbytes : machine.refusal .bytes p = none) (hfind : t.find p = .ok (.file text.toUTF8))
    (hlimit : text.utf8ByteSize ≤ limits.maximum .size) :
    (loadDocument limits p : ExceptT Error machine.Run String).run.on t = (.ok text, t) := by
  have hrequire : limits.require .size text.utf8ByteSize = .ok () := by
    unfold Limits.require Limits.check
    rw [if_neg (Nat.not_lt.mpr hlimit)]
    rfl
  have hcount : t.sizeAt p = .ok text.utf8ByteSize := by
    rw [sizeAt, hfind]
    rfl
  unfold loadDocument
  rw [Run.on_bindExcept, Run.on_demand, Run.on_size, answer, hsize, hcount]
  show Run.on (ExceptT.run (settle (limits.require .size _) >>= fun _ => _)) t = _
  rw [hrequire]
  show Run.on (ExceptT.run (readText _ p >>= fun _ => _)) t = _
  rw [Run.on_bindExcept, readText_on machine hbytes hfind]
  show Run.on (ExceptT.run (settle (limits.require .size _) >>= fun _ => _)) t = _
  rw [hrequire]
  rfl

variable (machine) in
/-- **A document that can be read**, and is not too large, comes to what its text comes to. -/
theorem typings_eq_convert {text : String} (hsize : machine.refusal .size p = none)
    (hbytes : machine.refusal .bytes p = none) (hfind : t.find p = .ok (.file text.toUTF8))
    (hlimit : text.utf8ByteSize ≤ s.limits.maximum .size) :
    machine.typings s t p = convert s.output s.limits text := by
  unfold Machine.typings convertFile
  rw [Run.on_bindExcept, loadDocument_on machine hsize hbytes hfind hlimit]
  rfl

/-- What is reported of a document that is converted. -/
def Settings.reported (s : Settings) (p : Path) (typings : TypingsFile) : Converted where
  input := p
  output := s.declarationPath p
  declarations := typings.declarations
  diagnostics := typings.diagnostics

variable (machine s) in
/-- **The conversion of a document**: what it became is written, and reported if it could be. -/
theorem conversion_eq_write (t : FileTree) (p : Path) :
    machine.conversion s t p
      = match machine.typings s t p with
        | .error e => (.error e, t)
        | .ok typings =>
          match (FileStore.write (s.declarationPath p) typings.text : machine.Run _).on t with
          | (.error cause, u) => (.error (.resource (.writeFile (s.declarationPath p) cause)), u)
          | (.ok (), u) => (.ok (s.reported p typings), u) := by
  unfold conversion writeConverted
  rw [Run.on_bindExcept, convertFile_on]
  cases machine.typings s t p with
  | error e => rfl
  | ok typings =>
    show (demand _ (FileStore.write (s.declarationPath p) typings.text) >>= fun _ => _ :
      ExceptT Error machine.Run Converted).run.on t = _
    rw [Run.on_bindExcept, Run.on_demand]
    dsimp only
    rcases (FileStore.write (s.declarationPath p) typings.text : machine.Run _).on t with ⟨_ | _, u⟩
    · rfl
    · rfl

/-- What is reported of a document names it. -/
theorem input_of_outcome {file : Converted} (h : machine.outcome s t p = .ok file) :
    file.input = p := by
  rw [outcome, conversion_eq_write] at h
  split at h
  · cases h
  · split at h
    · cases h
    · obtain rfl := Except.ok.inj h
      rfl

variable {name : String} {place : List String}

variable (machine) in
/-- **The conversion of an entry**: its declaration file is written in the output folder if the
document is converted, and what stands there decides about that. -/
theorem conversion_eq (hname : IsEntryName name) (hwritten : IsEntryName (s.declarationName name))
    (hplace : t.folderOf s.outputFolder = .ok place) :
    machine.conversion s t (s.inputFolder.join name)
      = match machine.typings s t (s.inputFolder.join name) with
        | .error e => (.error e, t)
        | .ok typings =>
          match machine.writing (s.outputFolder.join (s.declarationName name))
            (t.kindAt (place ++ [s.declarationName name])) with
          | .error cause =>
            (.error <| .resource <|
              .writeFile (s.outputFolder.join (s.declarationName name)) cause, t)
          | .ok () =>
            (.ok {
              input := s.inputFolder.join name
              output := s.outputFolder.join (s.declarationName name)
              declarations := typings.declarations
              diagnostics := typings.diagnostics },
              put (.file typings.text.toUTF8) t (place ++ [s.declarationName name])) := by
  rw [conversion_eq_write]
  cases machine.typings s t (s.inputFolder.join name) with
  | error e => rfl
  | ok typings =>
    dsimp only
    rw [s.declarationPath_join s.inputFolder hname, Run.write_join_on hwritten hplace, Settings.reported,
      s.declarationPath_join s.inputFolder hname]
    cases machine.writing (s.outputFolder.join (s.declarationName name))
      (t.kindAt (place ++ [s.declarationName name])) with
    | ok _ => rfl
    | error e => rfl

variable (machine) in
/-- **What a conversion can do**: fail and change nothing, or write the declaration file where no
folder stands. -/
theorem conversion_cases (hname : IsEntryName name)
    (hwritten : IsEntryName (s.declarationName name))
    (hplace : t.folderOf s.outputFolder = .ok place) :
    (∃ e, machine.conversion s t (s.inputFolder.join name) = (.error e, t))
      ∨ ∃ typings, machine.typings s t (s.inputFolder.join name) = .ok typings
        ∧ askable (s.outputFolder.join (s.declarationName name)) = .ok ()
        ∧ t.kindAt (place ++ [s.declarationName name]) ≠ some .folder
        ∧ machine.conversion s t (s.inputFolder.join name)
          = (.ok {
              input := s.inputFolder.join name
              output := s.outputFolder.join (s.declarationName name)
              declarations := typings.declarations
              diagnostics := typings.diagnostics },
              put (.file typings.text.toUTF8) t (place ++ [s.declarationName name])) := by
  have heq := conversion_eq machine hname hwritten hplace
  cases htypings : machine.typings s t (s.inputFolder.join name) with
  | error e =>
    rw [htypings] at heq
    exact .inl ⟨e, heq⟩
  | ok typings =>
    rw [htypings] at heq
    cases hwriting : machine.writing (s.outputFolder.join (s.declarationName name))
      (t.kindAt (place ++ [s.declarationName name])) with
    | error cause =>
      rw [hwriting] at heq
      exact .inl ⟨_, heq⟩
    | ok _ =>
      rw [hwriting] at heq
      obtain ⟨haskable, hfree⟩ := of_writing_eq_ok machine hwriting
      exact .inr ⟨typings, rfl, haskable, hfree, heq⟩

/-- The tree that a conversion leaves keeps what is there. -/
theorem keeps_conversion (hname : IsEntryName name)
    (hwritten : IsEntryName (s.declarationName name))
    (hplace : t.folderOf s.outputFolder = .ok place) :
    Keeps t (machine.conversion s t (s.inputFolder.join name)).2 := by
  rcases conversion_cases machine hname hwritten hplace with
    ⟨e, heq⟩ | ⟨typings, -, -, hfree, heq⟩
  · rw [heq]
    exact .of_kept fun _ _ h => h
  · rw [heq]
    exact .put_file (kindAt_of_folderOf hplace) hfree typings.text.toUTF8

/-- **A conversion changes its declaration file and nothing else.** -/
theorem kindAt_conversion (hname : IsEntryName name)
    (hwritten : IsEntryName (s.declarationName name))
    (hplace : t.folderOf s.outputFolder = .ok place) {location : List String}
    (hother : location ≠ place ++ [s.declarationName name]) :
    (machine.conversion s t (s.inputFolder.join name)).2.kindAt location = t.kindAt location := by
  rcases conversion_cases machine hname hwritten hplace with
    ⟨e, heq⟩ | ⟨typings, -, -, hfree, heq⟩
  · rw [heq]
  · rw [heq]
    show (put _ t (place ++ [_])).kindAt location = _
    rw [kindAt_put (kindAt_of_folderOf hplace) hfree fun names => kindAt_file_of_ne_nil _,
      if_neg hother]

variable (machine) in
/-- **Conversions come to the same** in trees that agree about the document and about what stands at
its declaration file. -/
theorem conversion_agrees (hname : IsEntryName name)
    (hwritten : IsEntryName (s.declarationName name))
    (ht : t.folderOf s.outputFolder = .ok place) (hu : u.folderOf s.outputFolder = .ok place)
    (hfind : t.find (s.inputFolder.join name) = u.find (s.inputFolder.join name))
    (hkind : t.kindAt (place ++ [s.declarationName name])
      = u.kindAt (place ++ [s.declarationName name])) :
    machine.outcome s t (s.inputFolder.join name) = machine.outcome s u (s.inputFolder.join name)
      ∧ (machine.conversion s t (s.inputFolder.join name)).2.kindAt
          (place ++ [s.declarationName name])
        = (machine.conversion s u (s.inputFolder.join name)).2.kindAt
          (place ++ [s.declarationName name]) := by
  have htypings := typings_congr machine s hfind
  unfold outcome
  rw [conversion_eq machine hname hwritten ht, conversion_eq machine hname hwritten hu, htypings,
    hkind]
  cases machine.typings s u (s.inputFolder.join name) with
  | error e => exact ⟨rfl, hkind⟩
  | ok typings =>
    cases hwriting : machine.writing (s.outputFolder.join (s.declarationName name))
      (u.kindAt (place ++ [s.declarationName name])) with
    | error cause => exact ⟨rfl, hkind⟩
    | ok _ =>
      have hfree := (of_writing_eq_ok machine hwriting).2
      refine ⟨rfl, ?_⟩
      show (put _ t (place ++ [_])).kindAt _ = (put _ u (place ++ [_])).kindAt _
      rw [kindAt_put (kindAt_of_folderOf ht) (hkind ▸ hfree) fun names => kindAt_file_of_ne_nil _,
        kindAt_put (kindAt_of_folderOf hu) hfree fun names => kindAt_file_of_ne_nil _,
        if_pos rfl, if_pos rfl]

end SchemaTypings
