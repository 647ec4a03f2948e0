import Mathlib.Data.List.Basic
import SchemaTypings.Proofs.Files.Location
import SchemaTypings.Proofs.Files.Path

/-!
# Entries of a folder

What a path of an entry leads to: if the path of the folder leads to a folder, the joined path leads
to what stands there under the name of the entry (`FileTree.locate_join`), and something new is put
there (`FileTree.place_join`).

What a folder lists are names of entries, each once, where the folders of a tree name what is in
them apart (`FileTree.WellNamed`). Whether a listed entry is a file stays as it is while the tree
keeps what is there (`FileTree.isFileAt_join_of_keeps`).
-/

namespace SchemaTypings

namespace FileTree

variable {t u : FileTree} {p : Path}

/-! ## The folder that a path leads to -/

/-- **The folder that a path leads to**, as it is looked for when something is put into it. The
empty path leads to the top. -/
def folderOf (t : FileTree) (p : Path) : Except SystemError (List String) :=
  walk t [] (pieces p ++ ["."])

/-- A `.` at the end asks for a folder. -/
theorem walk_append_dot {here there steps : List String} :
    walk t here (steps ++ ["."]) = .ok there
      ↔ walk t here steps = .ok there ∧ t.kindAt there = some .folder := by
  rw [walk_append]
  cases walk t here steps with
  | error e =>
    constructor
    · intro h
      cases h
    · intro h
      cases h.1
  | ok found =>
    show walk t found ["."] = .ok there ↔ _
    rw [walk_cons, walk]
    by_cases hfolder : t.kindAt found = some .folder
    · rw [if_pos hfolder, if_pos rfl]
      exact ⟨fun h => ⟨h, Except.ok.inj h ▸ hfolder⟩, fun h => h.1⟩
    · rw [if_neg hfolder]
      refine ⟨fun h => ?_, fun h => absurd (Except.ok.inj h.1 ▸ h.2) hfolder⟩
      cases h

theorem kindAt_of_folderOf {location : List String} (h : t.folderOf p = .ok location) :
    t.kindAt location = some .folder :=
  (walk_append_dot.mp h).2

/-- A folder that is found is found in every tree that keeps what is there. -/
theorem folderOf_of_keeps (h : Keeps t u) {location : List String}
    (hfolder : t.folderOf p = .ok location) : u.folderOf p = .ok location :=
  walk_of_keeps h hfolder

/-- The empty path leads to the top. -/
theorem folderOf_of_text_eq_empty (htop : t.kindAt [] = some .folder) (h : p.text = "") :
    t.folderOf p = .ok [] := by
  have hpieces : pieces p = [] := by
    unfold pieces
    rw [h]
    rfl
  unfold folderOf
  rw [hpieces]
  exact walk_append_dot.mpr ⟨rfl, htop⟩

/-- A path that leads to a folder leads there when it is asked about. -/
theorem locate_of_folderOf (haskable : askable p = .ok ()) {location : List String}
    (h : t.folderOf p = .ok location) : t.locate p = .ok location := by
  unfold locate steps
  rw [haskable]
  show walk t [] (if endsInSlash p then pieces p ++ ["."] else pieces p) = .ok location
  split
  · exact h
  · exact (walk_append_dot.mp h).1

/-- A path where a folder is found leads to it. -/
theorem folderOf_of_find {entries : List (String × FileTree)}
    (h : t.find p = .ok (.folder entries)) :
    ∃ location, t.folderOf p = .ok location ∧ t.get? location = some (.folder entries) := by
  obtain ⟨location, hlocate, hget⟩ := find_eq_ok.mp h
  have hfolder : t.kindAt location = some .folder := kindAt_of_get? hget
  refine ⟨location, ?_, hget⟩
  unfold locate at hlocate
  obtain ⟨_, -, hwalk⟩ := Markup.exists_of_bind_eq_ok hlocate
  unfold steps at hwalk
  split at hwalk
  · exact hwalk
  · exact walk_append_dot.mpr ⟨hwalk, hfolder⟩

theorem folderOf_of_isFolderAt (h : t.isFolderAt p = true) :
    ∃ location, t.folderOf p = .ok location := by
  unfold isFolderAt at h
  split at h
  · rename_i entries hfind
    obtain ⟨location, hfolder, -⟩ := folderOf_of_find hfind
    exact ⟨location, hfolder⟩
  · cases h

/-! ## Putting something into a folder -/

/-- A path with a last part is placed in the folder that the parts before it lead to. -/
theorem place_eq {front : List String} {last : String} (h : pieces p = front ++ [last]) :
    t.place p = askable p >>= fun _ => walk t [] (front ++ ["."]) >>= fun around =>
      .ok (if Path.isName last then some (around, last) else none) := by
  unfold place
  rw [h, List.getLast?_concat, List.dropLast_concat]
  rfl

/-- **A path is placed** under its last part, if that is a name, in the folder that the parts before
it lead to. -/
theorem place_eq_some {around : List String} {name : String}
    (h : t.place p = .ok (some (around, name))) :
    ∃ front, askable p = .ok () ∧ pieces p = front ++ [name] ∧ walk t [] front = .ok around
      ∧ t.kindAt around = some .folder ∧ Path.isName name = true := by
  rcases List.eq_nil_or_concat' (pieces p) with hnil | ⟨front, last, hpieces⟩
  · unfold place at h
    obtain ⟨_, -, h⟩ := Markup.exists_of_bind_eq_ok h
    rw [hnil] at h
    cases Except.ok.inj h
  · rw [place_eq hpieces] at h
    obtain ⟨_, haskable, h⟩ := Markup.exists_of_bind_eq_ok h
    obtain ⟨found, hwalk, h⟩ := Markup.exists_of_bind_eq_ok h
    by_cases hname : Path.isName last = true
    · rw [if_pos hname] at h
      obtain ⟨rfl, rfl⟩ := Prod.mk.inj (Option.some.inj (Except.ok.inj h))
      obtain ⟨hfront, haround⟩ := walk_append_dot.mp hwalk
      exact ⟨front, haskable, hpieces, hfront, haround, hname⟩
    · rw [if_neg hname] at h
      cases Except.ok.inj h

/-- **A path leads to where it is placed**, once something stands there. -/
theorem walk_pieces_of_place {around : List String} {name : String}
    (h : t.place p = .ok (some (around, name))) (hkeeps : Keeps t u)
    (hthere : (u.kindAt (around ++ [name])).isSome) :
    walk u [] (pieces p) = .ok (around ++ [name]) := by
  obtain ⟨front, -, hpieces, hfront, haround, hname⟩ := place_eq_some h
  have hentry : name ≠ "." ∧ name ≠ ".." := of_decide_eq_true hname
  rw [hpieces, walk_append, walk_of_keeps hkeeps hfront]
  show walk u around [name] = _
  rw [walk_cons, if_pos (hkeeps.folder _ haround), if_neg hentry.1, if_neg hentry.2, if_pos hthere,
    walk]

/-- An entry of a folder is placed in the folder. -/
theorem place_join {name : String} (hname : IsEntryName name) {around : List String}
    (hfolder : t.folderOf p = .ok around) :
    t.place (p.join name) = askable (p.join name) >>= fun _ => .ok (some (around, name)) := by
  unfold folderOf at hfolder
  rw [place_eq (pieces_join p hname.ne_empty hname.slash_not_mem), hfolder]
  show (askable (p.join name) >>= fun _ =>
    .ok (if Path.isName name then some (around, name) else none)) = _
  rw [if_pos hname.isName]

/-- **The path of an entry** leads where the folder is, if something stands there. -/
theorem locate_join {name : String} (hname : IsEntryName name) {around : List String}
    (hfolder : t.folderOf p = .ok around) :
    t.locate (p.join name) = askable (p.join name) >>= fun _ =>
      if (t.kindAt (around ++ [name])).isSome then .ok (around ++ [name])
      else .error .notFound := by
  obtain ⟨hwalk, haround⟩ := walk_append_dot.mp hfolder
  unfold locate steps
  rw [endsInSlash_join p hname.ne_empty hname.slash_not_mem,
    pieces_join p hname.ne_empty hname.slash_not_mem, if_neg Bool.false_ne_true, walk_append, hwalk]
  show (askable (p.join name) >>= fun _ => walk t around [name]) = _
  rw [walk_cons, if_pos haround, if_neg hname.ne_dot, if_neg hname.ne_dots, walk]

/-- **A file stands at the path of an entry** if one stands where the folder is. -/
theorem isFileAt_join {name : String} (hname : IsEntryName name) {around : List String}
    (hfolder : t.folderOf p = .ok around) :
    t.isFileAt (p.join name) = true
      ↔ askable (p.join name) = .ok ()
        ∧ ∃ bytes, t.kindAt (around ++ [name]) = some (.file bytes) := by
  rw [isFileAt_iff, exists_congr fun bytes => find_eq_file, exists_comm, locate_join hname hfolder]
  cases askable (p.join name) with
  | error e =>
    constructor
    · rintro ⟨_, _, h, _⟩
      cases h
    · rintro ⟨h, _⟩
      cases h
  | ok _ =>
    show (∃ location bytes, (if (t.kindAt (around ++ [name])).isSome then
      Except.ok (around ++ [name]) else Except.error SystemError.notFound) = .ok location ∧ _) ↔ _
    constructor
    · rintro ⟨location, bytes, hlocate, hkind⟩
      split at hlocate
      · exact ⟨rfl, bytes, Except.ok.inj hlocate ▸ hkind⟩
      · cases hlocate
    · rintro ⟨-, bytes, hkind⟩
      exact ⟨_, bytes, if_pos (by rw [hkind]; rfl), hkind⟩

/-- **Whether an entry is a file** stays as it is in every tree that keeps what is there. -/
theorem isFileAt_join_of_keeps (h : Keeps t u) {name : String} (hname : IsEntryName name)
    {around : List String} (hfolder : t.folderOf p = .ok around)
    (hthere : (t.kindAt (around ++ [name])).isSome) :
    u.isFileAt (p.join name) = t.isFileAt (p.join name) := by
  rw [Bool.eq_iff_iff, isFileAt_join hname (folderOf_of_keeps h hfolder),
    isFileAt_join hname hfolder]
  refine and_congr_right fun _ => ⟨fun ⟨bytes, hfile⟩ => ?_, fun ⟨bytes, hfile⟩ => h.file _ _ hfile⟩
  obtain ⟨kind, hkind⟩ := Option.isSome_iff_exists.mp hthere
  cases kind with
  | file other => exact ⟨other, hkind⟩
  | folder =>
    rw [h.folder _ hkind] at hfile
    cases hfile

/-! ## What a folder lists -/

/-- **A tree whose folders name what is in them apart**, by names that entries may have. -/
inductive WellNamed : FileTree → Prop where
  /-- A file. -/
  | file (bytes : ByteArray) : WellNamed (.file bytes)
  /-- A folder. -/
  | folder {entries : List (String × FileTree)} (nodup : (entries.map (·.1)).Nodup)
    (names : ∀ entry ∈ entries, IsEntryName entry.1)
    (below : ∀ entry ∈ entries, WellNamed entry.2) : WellNamed (.folder entries)

theorem WellNamed.of_get? (h : WellNamed t) {location : List String}
    (hget : t.get? location = some u) : WellNamed u := by
  induction location generalizing t with
  | nil =>
    rw [get?_nil] at hget
    exact Option.some.inj hget ▸ h
  | cons name names ih =>
    cases h with
    | file bytes => cases hget
    | folder nodup isEntryName below =>
      rw [get?_folder_cons] at hget
      obtain ⟨v, hlookup, hrest⟩ := Option.bind_eq_some_iff.mp hget
      obtain ⟨before, after, rfl, -⟩ := List.lookup_eq_some_iff.mp hlookup
      have hbelow : WellNamed v := below _ (List.mem_append_right before List.mem_cons_self)
      exact ih hbelow hrest

/-- **What a folder lists**, each once, has a name that an entry may have, and stands in the folder
that its path leads to. -/
theorem WellNamed.of_namesAt (h : WellNamed t) {names : List String}
    (hnames : t.namesAt p = .ok names) :
    names.Nodup ∧ (∀ name ∈ names, IsEntryName name)
      ∧ ∃ around, t.folderOf p = .ok around
        ∧ ∀ name ∈ names, (t.kindAt (around ++ [name])).isSome := by
  unfold namesAt at hnames
  obtain ⟨found, hfind, hnames⟩ := Markup.exists_of_bind_eq_ok hnames
  cases found with
  | file bytes => cases hnames
  | folder entries =>
    obtain rfl := Except.ok.inj hnames
    obtain ⟨location, hfolder, hget⟩ := folderOf_of_find hfind
    cases h.of_get? hget with
    | folder nodup isEntryName below =>
      refine ⟨nodup, fun name hname => ?_, location, hfolder, fun name hname => ?_⟩
      · obtain ⟨entry, hentry, rfl⟩ := List.mem_map.mp hname
        exact isEntryName entry hentry
      · obtain ⟨entry, hentry, rfl⟩ := List.mem_map.mp hname
        rw [isSome_kindAt_append_singleton hget, List.lookup_isSome_iff]
        exact ⟨entry, hentry, beq_self_eq_true _⟩

end FileTree

end SchemaTypings
