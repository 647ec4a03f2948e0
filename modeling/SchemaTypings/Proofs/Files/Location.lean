import SchemaTypings.Files.Tree

/-!
# Locations

What a tree of files says, location by location. At a location there is a file, a folder or
nothing; `kindAt` says which, and for a file also its bytes. What is inside a folder is said at the
locations below it, so trees that agree everywhere hold the same files, in whatever order their
folders list them.

* Putting a file or an empty folder somewhere changes what is said there and nowhere else
  (`kindAt_put`).
* Going through a path looks at nothing but this (`walk_cons`), so a way that is found is found
  in every tree that keeps what stands on it (`locate_of_keeps`).
-/

namespace SchemaTypings

namespace FileTree

/-! ## Kinds -/

/-- **What stands somewhere**, apart from what is inside it. -/
inductive Kind where
  /-- A file, by its bytes. -/
  | file (bytes : ByteArray)
  /-- A folder. -/
  | folder

instance decidableEqFolder (there : Option Kind) : Decidable (there = some .folder) :=
  match there with
  | some .folder => isTrue rfl
  | some (.file _) => isFalse nofun
  | none => isFalse nofun

/-- What a tree is at its top. -/
def kind : FileTree → Kind
  | .file bytes => .file bytes
  | .folder _ => .folder

/-- **What stands at a location**, apart from what is inside it. -/
def kindAt (t : FileTree) (location : List String) : Option Kind :=
  (t.get? location).map kind

@[simp] theorem get?_nil (t : FileTree) : t.get? [] = some t := by
  unfold get?
  rfl

theorem get?_folder_cons (entries : List (String × FileTree)) (name : String)
    (names : List String) :
    (folder entries).get? (name :: names) = (entries.lookup name).bind (·.get? names) := by
  rw [get?]
  cases entries.lookup name with
  | none => rfl
  | some t => rfl

/-- **A location below another** is looked up from there. -/
theorem get?_append (t : FileTree) (a b : List String) :
    t.get? (a ++ b) = (t.get? a).bind (·.get? b) := by
  induction a generalizing t with
  | nil => rw [List.nil_append, get?_nil, Option.bind_some]
  | cons name names ih =>
    cases t with
    | file bytes => rfl
    | folder entries =>
      rw [List.cons_append, get?_folder_cons, get?_folder_cons, Option.bind_assoc]
      exact congrArg _ (funext fun u => ih u)

theorem exists_folder_of_kindAt {t : FileTree} {location : List String}
    (h : t.kindAt location = some .folder) :
    ∃ entries, t.get? location = some (.folder entries) := by
  unfold kindAt at h
  obtain ⟨u, hu, hkind⟩ := Option.map_eq_some_iff.mp h
  cases u with
  | file bytes => cases hkind
  | folder entries => exact ⟨entries, hu⟩

theorem kindAt_of_get? {t u : FileTree} {location : List String} (h : t.get? location = some u) :
    t.kindAt location = some u.kind := by
  rw [kindAt, h, Option.map_some]

/-- What stands in a folder is what the folder lists. -/
theorem isSome_kindAt_append_singleton {t : FileTree} {location : List String}
    {entries : List (String × FileTree)} (h : t.get? location = some (.folder entries))
    (name : String) : (t.kindAt (location ++ [name])).isSome = (entries.lookup name).isSome := by
  rw [kindAt, get?_append, h, Option.bind_some, get?_folder_cons, Option.isSome_map]
  cases entries.lookup name with
  | none => rfl
  | some u => rw [Option.bind_some, get?_nil]

/-- Something stands below a folder only. -/
theorem kindAt_eq_none_of_not_folder {t : FileTree} {a b : List String} (hb : b ≠ [])
    (h : t.kindAt a ≠ some .folder) : t.kindAt (a ++ b) = none := by
  unfold kindAt at h ⊢
  rw [get?_append]
  cases hget : t.get? a with
  | none => rfl
  | some u =>
    rw [hget] at h
    obtain ⟨name, names, rfl⟩ := List.exists_cons_of_ne_nil hb
    cases u with
    | file bytes => rfl
    | folder entries => exact absurd rfl h

/-! ## Putting something at a location -/

theorem lookup_cons_eq_ite (name : String) (t : FileTree) (entries : List (String × FileTree))
    (other : String) :
    ((name, t) :: entries).lookup other
      = if other = name then some t else entries.lookup other := by
  rw [List.lookup_cons]
  by_cases h : other = name
  · rw [if_pos h, beq_iff_eq.mpr h]
  · rw [if_neg h, beq_eq_false_iff_ne.mpr h]

/-- Setting a name sets it and leaves the others. -/
theorem lookup_setEntry (name : String) (t : FileTree) (entries : List (String × FileTree))
    (other : String) :
    (setEntry name t entries).lookup other
      = if other = name then some t else entries.lookup other := by
  induction entries with
  | nil => rw [setEntry, lookup_cons_eq_ite]
  | cons entry entries ih =>
    obtain ⟨n, u⟩ := entry
    unfold setEntry
    by_cases hn : n = name
    · rw [if_pos hn, hn, lookup_cons_eq_ite, lookup_cons_eq_ite]
      by_cases h : other = name
      · rw [if_pos h, if_pos h]
      · rw [if_neg h, if_neg h, if_neg h]
    · rw [if_neg hn, lookup_cons_eq_ite, lookup_cons_eq_ite, ih]
      by_cases h : other = n
      · rw [if_pos h, if_pos h, if_neg (h ▸ hn)]
      · rw [if_neg h, if_neg h]

/-- Putting something further down puts it into the folder on the way. -/
theorem put_folder_cons (new : FileTree) {entries : List (String × FileTree)} {name : String}
    {t : FileTree} (h : entries.lookup name = some t) {names : List String} (hnames : names ≠ []) :
    put new (.folder entries) (name :: names)
      = .folder (setEntry name (put new t names) entries) := by
  rw [put, h]
  exact hnames

@[simp] theorem kindAt_nil (t : FileTree) : t.kindAt [] = some t.kind := by
  rw [kindAt, get?_nil, Option.map_some]

theorem kindAt_folder_cons (entries : List (String × FileTree)) (name : String)
    (names : List String) :
    (folder entries).kindAt (name :: names) = (entries.lookup name).bind (·.kindAt names) := by
  rw [kindAt, get?_folder_cons, Option.map_bind]
  rfl

/-- What is said below an entry, once that is set. -/
theorem kindAt_setEntry (name : String) (t : FileTree) (entries : List (String × FileTree))
    (other : String) (names : List String) :
    (folder (setEntry name t entries)).kindAt (other :: names)
      = if other = name then t.kindAt names else (folder entries).kindAt (other :: names) := by
  rw [kindAt_folder_cons, kindAt_folder_cons, lookup_setEntry]
  by_cases h : other = name
  · rw [if_pos h, if_pos h, Option.bind_some]
  · rw [if_neg h, if_neg h]

/-- **Putting a file or an empty folder somewhere changes what is said there and nowhere else**, if
no folder stood there. -/
theorem kindAt_put {new t : FileTree} {around : List String} {name : String}
    (haround : t.kindAt around = some .folder) (hold : t.kindAt (around ++ [name]) ≠ some .folder)
    (hnew : ∀ names, names ≠ [] → new.kindAt names = none) (location : List String) :
    (put new t (around ++ [name])).kindAt location
      = if location = around ++ [name] then some new.kind else t.kindAt location := by
  induction around generalizing t location with
  | nil =>
    obtain ⟨entries, hentries⟩ := exists_folder_of_kindAt haround
    obtain rfl : t = .folder entries := Option.some.inj hentries
    rw [List.nil_append] at hold ⊢
    rw [put]
    cases location with
    | nil => rfl
    | cons other names =>
      rw [kindAt_setEntry]
      by_cases hother : other = name
      · rw [if_pos hother, hother]
        by_cases hnames : names = []
        · rw [hnames, if_pos rfl, kindAt_nil]
        · rw [hnew names hnames, if_neg fun heq => hnames (List.cons_eq_cons.mp heq).2]
          exact (kindAt_eq_none_of_not_folder hnames hold).symm
      · rw [if_neg hother, if_neg fun heq => hother (List.cons_eq_cons.mp heq).1]
  | cons step around ih =>
    obtain ⟨entries, hentries⟩ : ∃ entries, t = .folder entries := by
      cases t with
      | file bytes => cases haround
      | folder entries => exact ⟨entries, rfl⟩
    subst hentries
    rw [kindAt_folder_cons] at haround
    obtain ⟨u, hu, haround⟩ := Option.bind_eq_some_iff.mp haround
    have hbelow : ∀ names, (folder entries).kindAt (step :: names) = u.kindAt names := by
      intro names
      rw [kindAt_folder_cons, hu, Option.bind_some]
    rw [List.cons_append, hbelow] at hold
    rw [List.cons_append, put_folder_cons new hu (List.append_ne_nil_of_right_ne_nil _
      (List.cons_ne_nil _ _))]
    cases location with
    | nil => rfl
    | cons other names =>
      rw [kindAt_setEntry]
      by_cases hother : other = step
      · rw [if_pos hother, ih haround hold, hother, hbelow]
        simp only [List.cons.injEq, true_and]
      · rw [if_neg hother, if_neg fun heq => hother (List.cons_eq_cons.mp heq).1]

/-- Nothing is inside a file. -/
theorem kindAt_file_of_ne_nil (bytes : ByteArray) {names : List String} (h : names ≠ []) :
    (file bytes).kindAt names = none := by
  obtain ⟨name, more, rfl⟩ := List.exists_cons_of_ne_nil h
  rfl

/-- Nothing is inside an empty folder. -/
theorem kindAt_empty_of_ne_nil {names : List String} (h : names ≠ []) :
    empty.kindAt names = none := by
  obtain ⟨name, more, rfl⟩ := List.exists_cons_of_ne_nil h
  rw [empty, kindAt_folder_cons]
  rfl

/-! ## Ways through a tree -/

/-- **One part of a path**: it is followed in a folder only, and it is `.`, `..` or something that
stands there. -/
theorem walk_cons (t : FileTree) (here : List String) (step : String) (more : List String) :
    walk t here (step :: more)
      = if t.kindAt here = some .folder then
          if step = "." then walk t here more
          else if step = ".." then walk t here.dropLast more
          else if (t.kindAt (here ++ [step])).isSome then walk t (here ++ [step]) more
          else .error .notFound
        else .error .notFolder := by
  rw [walk]
  split
  · rename_i entries hget
    have hfolder : t.kindAt here = some .folder := kindAt_of_get? hget
    rw [if_pos hfolder, isSome_kindAt_append_singleton hget]
  · rename_i hnot
    rw [if_neg fun h => ?_]
    obtain ⟨entries, hget⟩ := exists_folder_of_kindAt h
    exact hnot entries hget

/-- A path is gone through part by part. -/
theorem walk_append (t : FileTree) (here a b : List String) :
    walk t here (a ++ b) = walk t here a >>= fun there => walk t there b := by
  induction a generalizing here with
  | nil => rw [List.nil_append, walk]; rfl
  | cons step more ih =>
    rw [List.cons_append, walk_cons, walk_cons, ih, ih, ih]
    split
    · split
      · rfl
      · split
        · rfl
        · split
          · rfl
          · rfl
    · rfl

/-- **A tree that keeps what stands in another**: folders and files stay what they are. What a file
holds may change, and more may be there. -/
structure Keeps (t u : FileTree) : Prop where
  /-- Folders stay folders. -/
  folder : ∀ location, t.kindAt location = some .folder → u.kindAt location = some .folder
  /-- Files stay files. -/
  file : ∀ location bytes, t.kindAt location = some (.file bytes) →
    ∃ other, u.kindAt location = some (.file other)

namespace Keeps

variable {t u : FileTree}

/-- What is there stays there. -/
theorem isSome (h : Keeps t u) {location : List String} (hsome : (t.kindAt location).isSome) :
    (u.kindAt location).isSome := by
  obtain ⟨kind, hkind⟩ := Option.isSome_iff_exists.mp hsome
  cases kind with
  | folder => rw [h.folder location hkind, Option.isSome_some]
  | file bytes =>
    obtain ⟨other, hother⟩ := h.file location bytes hkind
    rw [hother, Option.isSome_some]

/-- What is kept is kept once more. -/
protected theorem trans {v : FileTree} (h : Keeps t u) (h' : Keeps u v) : Keeps t v where
  folder location hfolder := h'.folder location (h.folder location hfolder)
  file location bytes hfile := by
    obtain ⟨other, hother⟩ := h.file location bytes hfile
    exact h'.file location other hother

/-- A tree that changes nothing of what stands in another keeps it. -/
theorem of_kept
    (h : ∀ location kind, t.kindAt location = some kind → u.kindAt location = some kind) :
    Keeps t u where
  folder location := h location .folder
  file location bytes hfile := ⟨bytes, h location (.file bytes) hfile⟩

/-- **A tree keeps what is there when a file is put** where no folder stands. -/
theorem put_file {around : List String} {name : String} (haround : t.kindAt around = some .folder)
    (hold : t.kindAt (around ++ [name]) ≠ some .folder) (bytes : ByteArray) :
    Keeps t (put (.file bytes) t (around ++ [name])) := by
  have hkind := kindAt_put haround hold fun names => kindAt_file_of_ne_nil bytes
  refine ⟨fun location hfolder => ?_, fun location other hfile => ?_⟩
  · have hother : location ≠ around ++ [name] := fun heq => hold (heq ▸ hfolder)
    rw [hkind, if_neg hother, hfolder]
  · rw [hkind]
    split
    · exact ⟨bytes, rfl⟩
    · exact ⟨other, hfile⟩

end Keeps

/-- **A way that is found is found in every tree that keeps what stands on it.** -/
theorem walk_of_keeps {t u : FileTree} (h : Keeps t u) {here there : List String}
    {steps : List String} (hwalk : walk t here steps = .ok there) :
    walk u here steps = .ok there := by
  induction steps generalizing here with
  | nil => exact hwalk
  | cons step more ih =>
    rw [walk_cons] at hwalk ⊢
    by_cases hfolder : t.kindAt here = some .folder
    · rw [if_pos hfolder] at hwalk
      rw [if_pos (h.folder here hfolder)]
      by_cases hdot : step = "."
      · rw [if_pos hdot] at hwalk ⊢
        exact ih hwalk
      · rw [if_neg hdot] at hwalk ⊢
        by_cases hup : step = ".."
        · rw [if_pos hup] at hwalk ⊢
          exact ih hwalk
        · rw [if_neg hup] at hwalk ⊢
          by_cases hthere : (t.kindAt (here ++ [step])).isSome = true
          · rw [if_pos hthere] at hwalk
            rw [if_pos (h.isSome hthere)]
            exact ih hwalk
          · rw [if_neg hthere] at hwalk
            cases hwalk
    · rw [if_neg hfolder] at hwalk
      cases hwalk

/-- **Where a path leads, it leads in every tree that keeps what is there.** -/
theorem locate_of_keeps {t u : FileTree} (h : Keeps t u) {p : Path} {location : List String}
    (hlocate : t.locate p = .ok location) : u.locate p = .ok location := by
  unfold locate at hlocate ⊢
  cases haskable : askable p with
  | error e =>
    rw [haskable] at hlocate
    cases hlocate
  | ok _ =>
    rw [haskable] at hlocate
    exact walk_of_keeps h hlocate

/-! ## What a path leads to -/

/-- What stands where a path leads is looked up there. -/
theorem find_eq (t : FileTree) (p : Path) :
    t.find p = t.locate p >>= fun location => (t.get? location).elim (.error .notFound) .ok := by
  unfold find
  refine congrArg (t.locate p >>= ·) (funext fun location => ?_)
  cases t.get? location with
  | none => rfl
  | some found => rfl

/-- **What is found** is what stands where the path leads. -/
theorem find_eq_ok {t found : FileTree} {p : Path} :
    t.find p = .ok found
      ↔ ∃ location, t.locate p = .ok location ∧ t.get? location = some found := by
  rw [find_eq]
  constructor
  · intro h
    obtain ⟨location, hlocate, hget⟩ := Markup.exists_of_bind_eq_ok h
    refine ⟨location, hlocate, ?_⟩
    cases hthere : t.get? location with
    | none =>
      rw [hthere] at hget
      cases hget
    | some there =>
      rw [hthere] at hget
      exact congrArg some (Except.ok.inj hget)
  · rintro ⟨location, hlocate, hget⟩
    rw [hlocate]
    show (t.get? location).elim _ _ = _
    rw [hget, Option.elim_some]

/-- **A file is found** where the path leads, if a file stands there. -/
theorem find_eq_file {t : FileTree} {p : Path} {bytes : ByteArray} :
    t.find p = .ok (.file bytes)
      ↔ ∃ location, t.locate p = .ok location ∧ t.kindAt location = some (.file bytes) := by
  rw [find_eq_ok]
  refine exists_congr fun location => and_congr_right fun _ => ?_
  unfold kindAt
  rw [Option.map_eq_some_iff]
  constructor
  · intro hget
    exact ⟨_, hget, rfl⟩
  · rintro ⟨found, hfound, hkind⟩
    cases found with
    | file other => rw [hfound, Kind.file.inj hkind]
    | folder entries => cases hkind

/-- **A file stands at a path** if one is found there. -/
theorem isFileAt_iff {t : FileTree} {p : Path} :
    t.isFileAt p = true ↔ ∃ bytes, t.find p = .ok (.file bytes) := by
  unfold isFileAt
  split
  · rename_i bytes h
    exact ⟨fun _ => ⟨bytes, h⟩, fun _ => rfl⟩
  · rename_i hnone
    refine ⟨fun h => absurd h Bool.false_ne_true, ?_⟩
    rintro ⟨bytes, h⟩
    exact absurd h (hnone bytes)

/-- **The bytes of a file** are read where it is found. -/
theorem bytesAt_of_find {t : FileTree} {p : Path} {bytes : ByteArray}
    (h : t.find p = .ok (.file bytes)) : t.bytesAt p = .ok bytes := by
  rw [bytesAt, h]
  rfl

/-- Where bytes are read, a file is found. -/
theorem find_of_bytesAt {t : FileTree} {p : Path} {bytes : ByteArray}
    (h : t.bytesAt p = .ok bytes) : t.find p = .ok (.file bytes) := by
  unfold bytesAt at h
  obtain ⟨found, hfind, h⟩ := Markup.exists_of_bind_eq_ok h
  cases found with
  | file other => rw [hfind, Except.ok.inj h]
  | folder entries => cases h

end FileTree

end SchemaTypings
