import SchemaTypings.Proofs.Files.Folder

/-!
# Documents of one folder

Different documents of one folder have different declaration files (`declarationPath_apart`).

Paths count as what they go through: `a//b` and `a/./b` are the path `a/b` (`Path.Same`), and paths
are in one folder if they go through the same up to their last parts (`Path.InOneFolder`). Such
paths are told apart by their file names, and a document keeps all of its file name but the
extension, which is the same for all documents. So the declaration files are told apart by their
file names as well, and wherever the output folder is, they are different files in it.

This takes an extension of declaration files that is the end of a file name: one that is not empty
and goes through no folders. Nothing is asked of the extension of documents, which may be empty, so
that documents are the names with a dot at the end.
-/

namespace SchemaTypings

namespace Path

/-- **Paths that go through the same parts**, however they are written. -/
def Same (p q : Path) : Prop :=
  p.isAbsolute = q.isAbsolute ∧ p.parts = q.parts

instance (p q : Path) : Decidable (Same p q) :=
  inferInstanceAs (Decidable (_ ∧ _))

/-- **Paths that go through the same parts but for the last.** -/
def InOneFolder (p q : Path) : Prop :=
  p.isAbsolute = q.isAbsolute ∧ p.parts.dropLast = q.parts.dropLast

instance (p q : Path) : Decidable (InOneFolder p q) :=
  inferInstanceAs (Decidable (_ ∧ _))

/-! ## File names -/

/-- No part between slashes holds a slash. -/
theorem not_mem_of_mem_split {cs part : List Char} (h : part ∈ split cs) : '/' ∉ part := by
  unfold split at h
  induction cs generalizing part with
  | nil =>
    obtain rfl := List.mem_singleton.mp (List.splitOn_nil (a := '/') ▸ h)
    exact List.not_mem_nil
  | cons c cs ih =>
    obtain ⟨first, others, hparts⟩ := List.exists_cons_of_ne_nil (List.splitOn_ne_nil '/' cs)
    rw [List.splitOn_cons_eq_if_modifyHead, hparts] at h
    rw [hparts] at ih
    split at h
    · rcases List.mem_cons.mp h with rfl | h
      · exact List.not_mem_nil
      · exact ih h
    · rename_i hc
      rw [List.modifyHead_cons] at h
      rcases List.mem_cons.mp h with rfl | h
      · rw [List.mem_cons, not_or]
        exact ⟨fun heq => hc (beq_iff_eq.mpr heq.symm), ih List.mem_cons_self⟩
      · exact ih (List.mem_cons_of_mem first h)

theorem fileName?_eq_some {p : Path} {name : String} :
    p.fileName? = some name ↔ p.parts.getLast? = some name ∧ isName name = true := by
  rw [fileName?, Option.filter_eq_some_iff]

/-- **A file name is one that an entry of a folder may have.** -/
theorem isEntryName_of_fileName? {p : Path} {name : String} (h : p.fileName? = some name) :
    IsEntryName name := by
  obtain ⟨hlast, hname⟩ := fileName?_eq_some.mp h
  have hdot : name ≠ "." := (of_decide_eq_true hname).1
  have hmem : name ∈ ((split p.text.toList).map String.ofList).filter
      fun part => part ≠ "" ∧ part ≠ "." := by
    have hparts := List.mem_of_getLast? hlast
    unfold parts at hparts
    dsimp only at hparts
    split at hparts
    · exact (List.mem_cons.mp hparts).resolve_left hdot
    · exact hparts
  obtain ⟨hpart, hkept⟩ := List.mem_filter.mp hmem
  obtain ⟨part, hsplit, rfl⟩ := List.mem_map.mp hpart
  refine ⟨(of_decide_eq_true hkept).1, ?_, hname⟩
  rw [String.toList_ofList]
  exact not_mem_of_mem_split hsplit

theorem fileName?_of_same {p q : Path} (h : Same p q) : p.fileName? = q.fileName? := by
  rw [fileName?, fileName?, h.2]

/-- **Paths of one folder are told apart by their file names.** -/
theorem same_of_fileName? {p q : Path} (hfolder : InOneFolder p q) {name : String}
    (hp : p.fileName? = some name) (hq : q.fileName? = some name) : Same p q := by
  have hparts : ∀ r : Path, r.fileName? = some name → r.parts = r.parts.dropLast ++ [name] :=
    fun r hr => (List.dropLast_append_getLast? name (fileName?_eq_some.mp hr).1).symm
  refine ⟨hfolder.1, ?_⟩
  rw [hparts p hp, hparts q hq, hfolder.2]

end Path

namespace FileTree

/-- **The path of an entry leads to something of its name.** -/
theorem getLast?_of_locate_join {t : FileTree} {p : Path} {name : String} (hname : IsEntryName name)
    {location : List String} (h : t.locate (p.join name) = .ok location) :
    location.getLast? = some name := by
  unfold locate at h
  obtain ⟨_, -, hwalk⟩ := Markup.exists_of_bind_eq_ok h
  rw [steps, endsInSlash_join p hname.ne_empty hname.slash_not_mem,
    pieces_join p hname.ne_empty hname.slash_not_mem, if_neg Bool.false_ne_true,
    walk_append] at hwalk
  obtain ⟨around, -, hwalk⟩ := Markup.exists_of_bind_eq_ok hwalk
  rw [walk_cons, if_neg hname.ne_dot, if_neg hname.ne_dots, walk] at hwalk
  split at hwalk
  · split at hwalk
    · rw [← Except.ok.inj hwalk, List.getLast?_concat]
    · cases hwalk
  · cases hwalk

end FileTree

namespace Settings

variable (s : Settings)

/-- **A document and its declaration file**: the file name of the document is a stem, a dot and the
extension of documents, and the declaration file is one name in the output folder, the stem with the
extension of declaration files. -/
theorem exists_stem_of_recognizes (hextension : s.outputExtension ≠ "")
    (hslash : '/' ∉ s.outputExtension.toList) {p : Path} (h : s.recognizes p = true) :
    ∃ stem, stem ≠ "" ∧ '.' ∉ s.inputExtension.toList
      ∧ p.fileName? = some (stem ++ "." ++ s.inputExtension)
      ∧ s.declarationPath p = s.outputFolder.join (stem ++ "." ++ s.outputExtension)
      ∧ IsEntryName (stem ++ "." ++ s.outputExtension) := by
  obtain ⟨name, hname, hsplit⟩ := s.recognizes_iff.mp h
  obtain ⟨hstem, hdot, heq⟩ := Path.splitName_eq_iff.mp (Prod.ext rfl hsplit)
  refine ⟨(Path.splitName name).1, hstem, hdot, heq ▸ hname, s.declarationPath_of_fileName? hname,
    s.isEntryName_declarationName hextension hslash (Path.isEntryName_of_fileName? hname) hsplit⟩

/-- Different documents of one folder have declaration files of different names. -/
theorem declarationName_ne {p q : Path} (hfolder : p.InOneFolder q) (hne : ¬ p.Same q)
    {a b : String} (hp : p.fileName? = some a) (hq : q.fileName? = some b)
    (ha : (Path.splitName a).2 = some s.inputExtension)
    (hb : (Path.splitName b).2 = some s.inputExtension) :
    s.declarationName a ≠ s.declarationName b := by
  intro heq
  obtain rfl := s.declarationName_inj ha hb heq
  exact hne (Path.same_of_fileName? hfolder hp hq)

/-- **Different documents of one folder have different declaration files**: other paths, which in no
tree lead to the same place. Each declaration file is one name in the output folder, the file name
of the document with the extension of declaration files in place of its own. -/
theorem declarationPath_apart (hextension : s.outputExtension ≠ "")
    (hslash : '/' ∉ s.outputExtension.toList) :
    (∀ p, s.recognizes p = true →
      ∃ stem, stem ≠ "" ∧ '.' ∉ s.inputExtension.toList
        ∧ p.fileName? = some (stem ++ "." ++ s.inputExtension)
        ∧ s.declarationPath p = s.outputFolder.join (stem ++ "." ++ s.outputExtension)
        ∧ IsEntryName (stem ++ "." ++ s.outputExtension)
        ∧ (s.declarationPath p).fileName? = some (stem ++ "." ++ s.outputExtension))
      ∧ ∀ p q, s.recognizes p = true → s.recognizes q = true → p.InOneFolder q → ¬ p.Same q →
        ¬ (s.declarationPath p).Same (s.declarationPath q)
          ∧ ∀ (t : FileTree) (location : List String),
            t.locate (s.declarationPath p) = .ok location →
            t.locate (s.declarationPath q) ≠ .ok location := by
  refine ⟨fun p hp => ?_, fun p q hp hq hfolder hne => ?_⟩
  · obtain ⟨stem, hstem, hdot, hname, houtput, hentry⟩ :=
      s.exists_stem_of_recognizes hextension hslash hp
    exact ⟨stem, hstem, hdot, hname, houtput, hentry, houtput ▸ Path.fileName?_join _ hentry⟩
  · obtain ⟨a, hpname, ha⟩ := s.recognizes_iff.mp hp
    obtain ⟨b, hqname, hb⟩ := s.recognizes_iff.mp hq
    have hnames : s.declarationName a ≠ s.declarationName b :=
      s.declarationName_ne hfolder hne hpname hqname ha hb
    have hentryA := s.isEntryName_declarationName hextension hslash
      (Path.isEntryName_of_fileName? hpname) ha
    have hentryB := s.isEntryName_declarationName hextension hslash
      (Path.isEntryName_of_fileName? hqname) hb
    rw [s.declarationPath_of_fileName? hpname, s.declarationPath_of_fileName? hqname]
    refine ⟨fun hsame => hnames ?_, fun t location hlocateA hlocateB => hnames ?_⟩
    · have heq := Path.fileName?_of_same hsame
      rw [Path.fileName?_join _ hentryA, Path.fileName?_join _ hentryB] at heq
      exact Option.some.inj heq
    · have hlast := FileTree.getLast?_of_locate_join hentryA hlocateA
      rw [FileTree.getLast?_of_locate_join hentryB hlocateB] at hlast
      exact (Option.some.inj hlast).symm

/-- Settings by which documents are the names with a dot at the end. -/
def ofTrailingDots : Settings where
  inputExtension := ""

/-- Two documents of one folder with names that begin with a dot, hold several and end in one or
two, and with the folder written in two ways. -/
theorem declarationPath_apart_trailing_dots :
    ofTrailingDots.declarationPath ⟨"in/.a.b."⟩ = ⟨"output/.a.b.d.ts"⟩
      ∧ ofTrailingDots.declarationPath ⟨"in//./.a.b.."⟩ = ⟨"output/.a.b..d.ts"⟩
      ∧ (∃ stem, stem ≠ "" ∧ (⟨"in/.a.b."⟩ : Path).fileName? = some (stem ++ "." ++ "")
        ∧ IsEntryName (stem ++ "." ++ "d.ts"))
      ∧ ¬ (ofTrailingDots.declarationPath ⟨"in/.a.b."⟩).Same
        (ofTrailingDots.declarationPath ⟨"in//./.a.b.."⟩) := by
  obtain ⟨hstem, happart⟩ := ofTrailingDots.declarationPath_apart (by decide) (by decide)
  refine ⟨by decide, by decide, ?_, ?_⟩
  · obtain ⟨stem, hne, -, hname, -, hentry, -⟩ := hstem ⟨"in/.a.b."⟩ (by decide)
    exact ⟨stem, hne, hname, hentry⟩
  · exact (happart ⟨"in/.a.b."⟩ ⟨"in//./.a.b.."⟩ (by decide) (by decide) (by decide)
      (by decide)).1

end Settings

end SchemaTypings
