import SchemaTypings.Proofs.Files.Folder
import SchemaTypings.Proofs.Files.Machine

/-!
# Creating folders and files

What a tree says after a folder or a file has been put where a path says.

* Creating the folder that a path names, with the missing folders above it, adds folders and
  changes nothing else (`Machine.Run.createFolders_on`). The path then leads to a folder.
* Writing an entry of a folder puts the file there, unless a folder stands there
  (`FileTree.withFile_join`). Nothing else decides whether it succeeds.
-/

namespace SchemaTypings

namespace FileTree

variable {t u : FileTree} {p : Path}

/-! ## Creating one folder -/

/-- **A folder is created** where the path is placed and nothing stood. -/
theorem withFolder_eq_ok (h : t.withFolder p = .ok u) :
    ∃ around name, t.place p = .ok (some (around, name)) ∧ t.kindAt (around ++ [name]) = none
      ∧ u = put empty t (around ++ [name]) := by
  unfold withFolder at h
  obtain ⟨_ | ⟨around, name⟩, hplace, h⟩ := Markup.exists_of_bind_eq_ok h
  · cases h
  · have hput : (if (t.get? (around ++ [name])).isSome then Except.error SystemError.alreadyExists
      else .ok (put empty t (around ++ [name]))) = .ok u := h
    split at hput
    · cases hput
    · rename_i hnone
      refine ⟨around, name, hplace, ?_, (Except.ok.inj hput).symm⟩
      rw [kindAt, Option.not_isSome_iff_eq_none.mp hnone, Option.map_none]

/-- **Folders are added to a tree**: what stands in the first tree stands in the second, and what
else stands there are folders that some of the paths lead to. -/
structure AddsFolders (paths : List Path) (t u : FileTree) : Prop where
  /-- Nothing is changed or taken away. -/
  kept : ∀ location kind, t.kindAt location = some kind → u.kindAt location = some kind
  /-- Only folders come to be. -/
  added : ∀ location, t.kindAt location = none → u.kindAt location = none ∨
    u.kindAt location = some .folder ∧ ∃ p ∈ paths, u.locate p = .ok location

namespace AddsFolders

variable {paths : List Path} {v : FileTree}

theorem keeps (h : AddsFolders paths t u) : Keeps t u :=
  .of_kept h.kept

protected theorem refl (paths : List Path) (t : FileTree) : AddsFolders paths t t :=
  ⟨fun _ _ h => h, fun _ h => .inl h⟩

protected theorem trans (h : AddsFolders paths t u) (h' : AddsFolders paths u v) :
    AddsFolders paths t v where
  kept location kind hkind := h'.kept location kind (h.kept location kind hkind)
  added location hnone := by
    rcases h.added location hnone with hnone | ⟨hfolder, q, hq, hlocate⟩
    · exact h'.added location hnone
    · exact .inr ⟨h'.kept location _ hfolder, q, hq, locate_of_keeps h'.keeps hlocate⟩

theorem mono {more : List Path} (hsubset : ∀ q ∈ paths, q ∈ more) (h : AddsFolders paths t u) :
    AddsFolders more t u where
  kept := h.kept
  added location hnone := (h.added location hnone).imp_right fun ⟨hfolder, q, hq, hlocate⟩ =>
    ⟨hfolder, q, hsubset q hq, hlocate⟩

end AddsFolders

/-- **Creating a folder adds a folder** and changes nothing else. The path leads to it then. -/
theorem addsFolders_withFolder (h : t.withFolder p = .ok u) :
    AddsFolders [p] t u ∧ ∃ location, u.folderOf p = .ok location := by
  obtain ⟨around, name, hplace, hnone, rfl⟩ := withFolder_eq_ok h
  obtain ⟨-, haskable, -, -, haround, -⟩ := place_eq_some hplace
  have hkind := kindAt_put haround (fun hfolder => by rw [hnone] at hfolder; cases hfolder)
    fun names => kindAt_empty_of_ne_nil
  have hkept : ∀ location kind, t.kindAt location = some kind →
      (put empty t (around ++ [name])).kindAt location = some kind := by
    intro location kind h
    rw [hkind, if_neg fun heq => ?_, h]
    rw [heq, hnone] at h
    cases h
  have hkeeps : Keeps t (put empty t (around ++ [name])) := .of_kept hkept
  have hthere := (hkind (around ++ [name])).trans (if_pos rfl)
  have hfolder : (put empty t (around ++ [name])).folderOf p = .ok (around ++ [name]) := by
    refine walk_append_dot.mpr ⟨walk_pieces_of_place hplace hkeeps ?_, hthere⟩
    rw [hthere]
    rfl
  refine ⟨⟨hkept, fun location hlocation => ?_⟩, _, hfolder⟩
  rw [hkind]
  by_cases heq : location = around ++ [name]
  · rw [if_pos heq, heq]
    exact .inr ⟨rfl, p, List.mem_singleton_self p, locate_of_folderOf haskable hfolder⟩
  · rw [if_neg heq]
    exact .inl hlocation

/-! ## Writing a file -/

/-- **A file is written** where the path is placed and no folder stands, if the path asks for no
folder. -/
theorem withFile_eq_ok {bytes : ByteArray} (h : t.withFile p bytes = .ok u) :
    ∃ around name, t.place p = .ok (some (around, name)) ∧ endsInSlash p = false
      ∧ t.kindAt (around ++ [name]) ≠ some .folder ∧ u = put (.file bytes) t (around ++ [name]) := by
  unfold withFile at h
  obtain ⟨_ | ⟨around, name⟩, hplace, h⟩ := Markup.exists_of_bind_eq_ok h
  · cases h
  · dsimp only at h
    split at h
    · cases h
    · rename_i hnot
      split at h
      · cases h
      · rename_i hslash
        refine ⟨around, name, hplace, Bool.eq_false_iff.mpr hslash, fun hfolder => ?_,
          (Except.ok.inj h).symm⟩
        obtain ⟨entries, hget⟩ := exists_folder_of_kindAt hfolder
        exact hnot entries hget

/-- **Writing an entry of a folder** puts the file there, unless a folder stands there. -/
theorem withFile_join {name : String} (hname : IsEntryName name) {around : List String}
    (hfolder : t.folderOf p = .ok around) (bytes : ByteArray) :
    t.withFile (p.join name) bytes = askable (p.join name) >>= fun _ =>
      if t.kindAt (around ++ [name]) = some .folder then .error .isFolder
      else .ok (put (.file bytes) t (around ++ [name])) := by
  rw [withFile, place_join hname hfolder]
  cases askable (p.join name) with
  | error e => rfl
  | ok _ =>
    rw [endsInSlash_join p hname.ne_empty hname.slash_not_mem, kindAt]
    dsimp only [bind, Except.bind]
    cases t.get? (around ++ [name]) with
    | none => rfl
    | some there =>
      cases there with
      | file bytes => rfl
      | folder entries => rfl

end FileTree

namespace Machine

open FileTree

variable (machine : Machine) {t u : FileTree} {p : Path}

/-- **Whether a file is written** at a path, which what stands there decides: a folder is not
replaced by a file. -/
def writing (p : Path) (there : Option Kind) : Except SystemError Unit :=
  machine.answer .write p <| askable p >>= fun _ =>
    if there = some .folder then .error .isFolder else .ok ()

/-- Where a file is written, the path can be asked about and no folder stands. -/
theorem of_writing_eq_ok {there : Option Kind} (h : machine.writing p there = .ok ()) :
    askable p = .ok () ∧ there ≠ some .folder := by
  obtain ⟨_, haskable, h⟩ := Markup.exists_of_bind_eq_ok (machine.eq_ok_of_answer_eq_ok h)
  refine ⟨haskable, fun hthere => ?_⟩
  rw [if_pos hthere] at h
  cases h

namespace Run

variable {machine}

/-! ## Creating a folder and those above it -/

/-- **One folder is created or not**, and if not, nothing changes. -/
theorem createFolder_on (p : Path) (t : FileTree) :
    (∃ e, (FileStore.createFolder p : machine.Run _).on t = (.error e, t))
      ∨ ∃ u, (FileStore.createFolder p : machine.Run _).on t = (.ok (), u)
        ∧ AddsFolders [p] t u ∧ ∃ location, u.folderOf p = .ok location := by
  rw [on_createFolder]
  cases hanswer : machine.answer .createFolder p (t.withFolder p) with
  | error e => exact .inl ⟨e, rfl⟩
  | ok u =>
    exact .inr ⟨u, rfl, addsFolders_withFolder (machine.eq_ok_of_answer_eq_ok hanswer)⟩

/-- A folder that could not be created may be there already. -/
theorem folderOf_of_settled_on {e : SystemError}
    (h : (createAlong.settled p (.error e) : machine.Run _).on t = (.ok (), u)) :
    t = u ∧ ∃ location, u.folderOf p = .ok location := by
  unfold createAlong.settled at h
  rw [on_bind, on_isFolder] at h
  obtain rfl : t = u := congrArg Prod.snd h
  refine ⟨rfl, folderOf_of_isFolderAt ?_⟩
  have hfolder : (if t.isFolderAt p = true then Except.ok () else Except.error e) = .ok () :=
    congrArg Prod.fst h
  split at hfolder
  · assumption
  · cases hfolder

/-- Creating a folder that may be there already. -/
theorem createFolder_settled_on
    (h : (FileStore.createFolder p >>= createAlong.settled p : machine.Run _).on t = (.ok (), u)) :
    AddsFolders [p] t u ∧ ∃ location, u.folderOf p = .ok location := by
  rw [on_bind] at h
  rcases createFolder_on p t with ⟨e, hrefused⟩ | ⟨v, hcreated, hadds, hfolder⟩
  · rw [hrefused] at h
    obtain ⟨rfl, hfolder⟩ := folderOf_of_settled_on h
    exact ⟨.refl [p] t, hfolder⟩
  · rw [hcreated] at h
    obtain rfl : v = u := congrArg Prod.snd h
    exact ⟨hadds, hfolder⟩

/-- **A folder is created in a folder that is there**, or once those above it have been. -/
theorem exists_of_createAlong_cons_on (htop : t.kindAt [] = some .folder) {above : List Path}
    (h : (createAlong (p :: above) : machine.Run _).on t = (.ok (), u)) :
    ∃ v, (v = t ∨ (createAlong above : machine.Run _).on t = (.ok (), v))
      ∧ AddsFolders [p] v u ∧ ∃ location, u.folderOf p = .ok location := by
  unfold createAlong at h
  by_cases hempty : p.text = ""
  · rw [if_pos hempty] at h
    obtain rfl : t = u := congrArg Prod.snd h
    exact ⟨t, .inl rfl, .refl _ t, [], folderOf_of_text_eq_empty htop hempty⟩
  · rw [if_neg hempty, on_bind] at h
    rcases createFolder_on p t with ⟨e, hrefused⟩ | ⟨v, hcreated, hadds⟩
    · rw [hrefused] at h
      cases e with
      | notFound =>
        rw [on_bind] at h
        rcases habove : (createAlong above : machine.Run _).on t with ⟨_ | _, v⟩
        · rw [habove] at h
          cases congrArg Prod.fst h
        · rw [habove] at h
          exact ⟨v, .inr rfl, createFolder_settled_on h⟩
      | _ =>
        obtain ⟨rfl, hfolder⟩ := folderOf_of_settled_on h
        exact ⟨t, .inl rfl, .refl _ t, hfolder⟩
    · rw [hcreated] at h
      obtain rfl : v = u := congrArg Prod.snd h
      exact ⟨t, .inl rfl, hadds⟩

/-- **Creating a folder and those above it adds folders**, and the path then leads to one. The
induction is on the folders above, nearest first. -/
theorem createAlong_on (htop : t.kindAt [] = some .folder) {paths : List Path}
    (h : (createAlong paths : machine.Run _).on t = (.ok (), u)) :
    AddsFolders paths t u ∧ ∀ p ∈ paths.head?, ∃ location, u.folderOf p = .ok location := by
  induction paths generalizing u with
  | nil => cases h
  | cons p above ih =>
    obtain ⟨v, hbefore, hadds, hfolder⟩ := exists_of_createAlong_cons_on htop h
    refine ⟨?_, fun q hq => Option.some.inj hq ▸ hfolder⟩
    have hadds : AddsFolders (p :: above) v u :=
      hadds.mono fun q hq => List.mem_singleton.mp hq ▸ List.mem_cons_self
    rcases hbefore with rfl | hbefore
    · exact hadds
    · exact ((ih hbefore).1.mono fun q => List.mem_cons_of_mem p).trans hadds

/-- **Creating a folder adds the folders that were missing** on its path and changes nothing else.
The path then leads to a folder. -/
theorem createFolders_on (htop : t.kindAt [] = some .folder)
    (h : (createFolders p : machine.Run _).on t = (.ok (), u)) :
    AddsFolders (p :: p.ancestors) t u ∧ ∃ location, u.folderOf p = .ok location :=
  (createAlong_on htop h).imp_right fun hfolder => hfolder p rfl

/-! ## Writing a file -/

/-- **Writing an entry of a folder** puts the file there, or changes nothing. -/
theorem write_join_on {name : String} (hname : IsEntryName name) {around : List String}
    (hfolder : t.folderOf p = .ok around) (text : String) :
    (FileStore.write (p.join name) text : machine.Run _).on t
      = match machine.writing (p.join name) (t.kindAt (around ++ [name])) with
        | .ok () => (.ok (), put (.file text.toUTF8) t (around ++ [name]))
        | .error e => (.error e, t) := by
  rw [on_write, withFile_join hname hfolder]
  unfold writing answer
  cases machine.refusal .write (p.join name) with
  | some e => rfl
  | none =>
    cases askable (p.join name) with
    | error e => rfl
    | ok _ =>
      dsimp only [bind, Except.bind]
      by_cases hthere : t.kindAt (around ++ [name]) = some .folder
      · rw [if_pos hthere, if_pos hthere]
      · rw [if_neg hthere, if_neg hthere]

end Run

end Machine

end SchemaTypings
