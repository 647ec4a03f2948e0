import Mathlib.Data.List.TakeWhile
import SchemaTypings.Files.Tree
import SchemaTypings.Settings.Basic

/-!
# Paths of entries

The path of an entry of a folder is the path of the folder, joined with the name of the entry.
However the folder is written – empty, with a slash at its end or without – the joined path goes
through the parts of the folder and then to the name (`FileTree.pieces_join`), and its file name,
stem and extension are those of the name (`Path.fileName?_join`).

So the declaration file of a document is one name in the output folder, which the name of the
document determines (`Settings.declarationPath_join`). Documents of one folder have declaration
files of different names (`Settings.declarationName_inj`).
-/

namespace SchemaTypings

/-- **A name that an entry of a folder may have.** -/
structure IsEntryName (name : String) : Prop where
  /-- It is not empty. -/
  ne_empty : name ≠ ""
  /-- It does not go through folders. -/
  slash_not_mem : '/' ∉ name.toList
  /-- It is neither the folder itself nor the one above. -/
  isName : Path.isName name = true

instance (name : String) : Decidable (IsEntryName name) :=
  decidable_of_iff (name ≠ "" ∧ '/' ∉ name.toList ∧ Path.isName name = true)
    ⟨fun h => ⟨h.1, h.2.1, h.2.2⟩, fun h => ⟨h.ne_empty, h.slash_not_mem, h.isName⟩⟩

theorem IsEntryName.ne_dot {name : String} (h : IsEntryName name) : name ≠ "." := by
  have hname := h.isName
  unfold Path.isName at hname
  exact (of_decide_eq_true hname).1

theorem IsEntryName.ne_dots {name : String} (h : IsEntryName name) : name ≠ ".." := by
  have hname := h.isName
  unfold Path.isName at hname
  exact (of_decide_eq_true hname).2

namespace Path

variable (p : Path) {name : String}

/-- The text of a joined path is that of a folder, written with a slash at its end or empty, and
then the name. -/
theorem exists_toList_join (name : String) :
    ∃ folder, (p.join name).text.toList = folder ++ name.toList
      ∧ ((folder = [] ∧ p.text.toList = [])
        ∨ ∃ front, folder = front ++ ['/']
          ∧ (p.text.toList = front ∨ p.text.toList = front ++ ['/'])) := by
  unfold join
  by_cases hempty : p.text = ""
  · refine ⟨[], ?_, .inl ⟨rfl, by rw [hempty]; rfl⟩⟩
    rw [if_pos (.inl hempty), hempty, String.toList_append]
    rfl
  · by_cases hslash : p.text.toList.getLast? = some '/'
    · obtain ⟨front, hfront⟩ := List.getLast?_eq_some_iff.mp hslash
      refine ⟨front ++ ['/'], ?_, .inr ⟨front, rfl, .inr hfront⟩⟩
      rw [if_pos (.inr hslash), String.toList_append, hfront]
    · refine ⟨p.text.toList ++ ['/'], ?_, .inr ⟨_, rfl, .inl rfl⟩⟩
      rw [if_neg (not_or.mpr ⟨hempty, hslash⟩), String.toList_append, String.toList_append]
      rfl

/-- **Paths of entries are in the order of their names.** -/
theorem text_join_lt_text_join {a b : String} (h : a < b) :
    (p.join a).text < (p.join b).text := by
  have happend : ∀ front : String, front ++ a < front ++ b := by
    intro front
    rw [String.lt_iff, String.toList_append, String.toList_append]
    exact List.append_left_lt (String.lt_iff.mp h)
  unfold join
  split
  · exact happend p.text
  · exact happend (p.text ++ "/")

/-- The parts between the slashes of a joined path: those of the folder, and the name. -/
theorem exists_split_join (hname : '/' ∉ name.toList) :
    ∃ front, split (p.join name).text.toList = front ++ [name.toList]
      ∧ front.filter (· ≠ []) = (split p.text.toList).filter (· ≠ []) := by
  have hsingle : split name.toList = [name.toList] := List.splitOn_eq_singleton hname
  obtain ⟨folder, htext, ⟨rfl, hempty⟩ | ⟨front, rfl, hfront⟩⟩ := p.exists_toList_join name
  · refine ⟨[], ?_, ?_⟩
    · rw [htext, List.nil_append, hsingle, List.nil_append]
    · rw [hempty]
      rfl
  · refine ⟨split front, ?_, ?_⟩
    · rw [htext, List.append_assoc, List.singleton_append, split, List.splitOn_append_cons_self]
      exact congrArg _ hsingle
    · rcases hfront with hfront | hfront
      · rw [hfront]
      · have hslash : split (front ++ ['/']) = split front ++ [[]] :=
          List.splitOn_append_cons_self front []
        rw [hfront, hslash, List.filter_append]
        exact (List.append_nil _).symm

end Path

namespace FileTree

/-- Parts that are empty as lists are those that are empty as texts. -/
theorem filter_map_ofList (parts : List (List Char)) :
    (parts.map String.ofList).filter (· ≠ "") = (parts.filter (· ≠ [])).map String.ofList := by
  rw [List.filter_map]
  refine congrArg _ (List.filter_congr fun part _ => ?_)
  exact decide_eq_decide.mpr (not_congr (String.ofList_eq_empty_iff ..))

/-- **A joined path goes through the parts of the folder and then to the name**, however the
folder is written. -/
theorem pieces_join (p : Path) {name : String} (hempty : name ≠ "")
    (hslash : '/' ∉ name.toList) : pieces (p.join name) = pieces p ++ [name] := by
  obtain ⟨front, hsplit, hfront⟩ := p.exists_split_join hslash
  have hname : [name.toList].filter (· ≠ []) = [name.toList] :=
    List.filter_cons_of_pos (decide_eq_true fun h => hempty (String.toList_eq_nil_iff.mp h))
  unfold pieces
  rw [filter_map_ofList, filter_map_ofList, hsplit, List.filter_append, hfront, hname,
    List.map_append, List.map_singleton, String.ofList_toList]

/-- A joined path ends in the name, so in no slash. -/
theorem endsInSlash_join (p : Path) {name : String} (hempty : name ≠ "")
    (hslash : '/' ∉ name.toList) : endsInSlash (p.join name) = false := by
  obtain ⟨folder, htext, -⟩ := p.exists_toList_join name
  have hne : name.toList ≠ [] := fun h => hempty (String.toList_eq_nil_iff.mp h)
  unfold endsInSlash
  rw [htext, List.getLast?_append, List.getLast?_eq_some_getLast hne, Option.some_or]
  refine beq_eq_false_iff_ne.mpr fun h => hslash ?_
  rw [← Option.some.inj h]
  exact List.getLast_mem hne

end FileTree

namespace Path

/-- **The file name of a joined path** is the name. -/
theorem fileName?_join (p : Path) {name : String} (h : IsEntryName name) :
    (p.join name).fileName? = some name := by
  obtain ⟨front, hsplit, -⟩ := p.exists_split_join h.slash_not_mem
  have hlast : (p.join name).parts.getLast? = some name := by
    have hkept : [name].filter (fun part => part ≠ "" ∧ part ≠ ".") = [name] :=
      List.filter_cons_of_pos (decide_eq_true ⟨h.ne_empty, h.ne_dot⟩)
    simp only [parts, hsplit, List.map_append, List.map_singleton, String.ofList_toList,
      List.filter_append, hkept]
    split
    · rw [← List.cons_append, List.getLast?_concat]
    · rw [List.getLast?_concat]
  rw [fileName?, hlast, Option.filter_some, if_pos h.isName]

/-! ## Stems and extensions -/

/-- **A name at its last dot** is split there, unless that comes first. -/
theorem splitName_append (stem : String) {extension : String} (h : '.' ∉ extension.toList) :
    splitName (stem ++ "." ++ extension)
      = if stem = "" then (stem ++ "." ++ extension, none) else (stem, some extension) := by
  have hreversed : (stem ++ "." ++ extension).toList.reverse
      = extension.toList.reverse ++ '.' :: stem.toList.reverse := by
    rw [String.toList_append, String.toList_append, List.reverse_append, List.reverse_append]
    rfl
  have hafter : ∀ c ∈ extension.toList.reverse, decide (c ≠ '.') = true :=
    fun c hc => decide_eq_true fun heq => h (heq ▸ List.mem_reverse.mp hc)
  have hdrop : (extension.toList.reverse ++ '.' :: stem.toList.reverse).dropWhile (· ≠ '.')
      = '.' :: stem.toList.reverse := by
    rw [List.dropWhile_append_of_pos hafter]
    rfl
  have htake : (extension.toList.reverse ++ '.' :: stem.toList.reverse).takeWhile (· ≠ '.')
      = extension.toList.reverse := by
    rw [List.takeWhile_append_of_pos hafter]
    exact List.append_nil _
  simp only [splitName, hreversed, hdrop, htake, List.reverse_reverse, String.ofList_toList,
    List.isEmpty_reverse, List.isEmpty_iff, String.toList_eq_nil_iff]

/-- A name without a dot has no extension. -/
theorem splitName_of_not_mem {name : String} (h : '.' ∉ name.toList) :
    splitName name = (name, none) := by
  have hdrop : name.toList.reverse.dropWhile (· ≠ '.') = [] :=
    List.dropWhile_eq_nil_iff.mpr fun c hc =>
      decide_eq_true fun heq => h (heq ▸ List.mem_reverse.mp hc)
  simp only [splitName, hdrop]

/-- A name with a dot, at its last one. -/
theorem exists_eq_append_dot {name : String} (h : '.' ∈ name.toList) :
    ∃ stem extension, name = stem ++ "." ++ extension ∧ '.' ∉ extension.toList := by
  obtain ⟨after, before, hreverse, hafter⟩ :=
    List.eq_append_cons_of_mem (List.mem_reverse.mpr h)
  refine ⟨String.ofList before.reverse, String.ofList after.reverse, ?_, ?_⟩
  · refine String.toList_inj.mp ?_
    rw [← List.reverse_reverse name.toList, hreverse]
    simp
  · rwa [String.toList_ofList, List.mem_reverse]

/-- **A name with an extension** is a stem that is not empty, a dot, and the extension, which holds
no dot. -/
theorem splitName_eq_iff {name stem extension : String} :
    splitName name = (stem, some extension)
      ↔ stem ≠ "" ∧ '.' ∉ extension.toList ∧ name = stem ++ "." ++ extension := by
  constructor
  · intro h
    by_cases hdot : '.' ∈ name.toList
    · obtain ⟨before, after, rfl, hafter⟩ := exists_eq_append_dot hdot
      rw [splitName_append before hafter] at h
      by_cases hbefore : before = ""
      · rw [if_pos hbefore] at h
        cases h
      · rw [if_neg hbefore] at h
        obtain ⟨rfl, hsome⟩ := Prod.mk.inj h
        obtain rfl : after = extension := Option.some.inj hsome
        exact ⟨hbefore, hafter, rfl⟩
    · rw [splitName_of_not_mem hdot] at h
      cases h
  · rintro ⟨hstem, hextension, rfl⟩
    rw [splitName_append stem hextension, if_neg hstem]

/-- A name with an extension, by its stem. -/
theorem splitName_eq_some {name extension : String} (h : (splitName name).2 = some extension) :
    (splitName name).1 ≠ "" ∧ name = (splitName name).1 ++ "." ++ extension := by
  obtain ⟨hstem, -, heq⟩ := splitName_eq_iff.mp (Prod.ext rfl h)
  exact ⟨hstem, heq⟩

end Path

namespace Settings

variable (s : Settings)

/-- **The name of the declaration file** for a document of a name. -/
def declarationName (name : String) : String :=
  (Path.splitName name).1 ++ "." ++ s.outputExtension

/-- A path with a file name has the declaration file of that name, whatever folder it is in. -/
theorem declarationPath_of_fileName? {p : Path} {name : String} (h : p.fileName? = some name) :
    s.declarationPath p = s.outputFolder.join (s.declarationName name) := by
  rw [declarationPath, Path.stem?, h, Option.map_some, Option.getD_some]
  rfl

/-- **The declaration file of a document** is one name in the output folder, whatever folder the
document is in. -/
theorem declarationPath_join (p : Path) {name : String} (h : IsEntryName name) :
    s.declarationPath (p.join name) = s.outputFolder.join (s.declarationName name) :=
  s.declarationPath_of_fileName? (p.fileName?_join h)

/-- **A path is recognized by its file name.** -/
theorem recognizes_iff {p : Path} :
    s.recognizes p = true
      ↔ ∃ name, p.fileName? = some name ∧ (Path.splitName name).2 = some s.inputExtension := by
  rw [recognizes, beq_iff_eq, Path.extension?, Option.bind_eq_some_iff]

/-- A document of a folder is recognized by its name. -/
theorem recognizes_join (p : Path) {name : String} (h : IsEntryName name) :
    s.recognizes (p.join name) = true ↔ (Path.splitName name).2 = some s.inputExtension := by
  rw [recognizes_iff, p.fileName?_join h]
  exact ⟨fun ⟨_, hname, hsplit⟩ => Option.some.inj hname ▸ hsplit, fun hsplit => ⟨name, rfl, hsplit⟩⟩

/-- **The name of a declaration file is one of an entry of a folder**, if the extension is not
empty and does not go through folders. -/
theorem isEntryName_declarationName (hextension : s.outputExtension ≠ "")
    (hslash : '/' ∉ s.outputExtension.toList) {name : String} (hname : IsEntryName name)
    (hdocument : (Path.splitName name).2 = some s.inputExtension) :
    IsEntryName (s.declarationName name) := by
  obtain ⟨hstem, heq⟩ := Path.splitName_eq_some hdocument
  have hlong : 2 < (s.declarationName name).length := by
    have hpos : ∀ text : String, text ≠ "" → 0 < text.length := fun text h => by
      rw [← String.length_toList]
      exact List.length_pos_iff.mpr fun hnil => h (String.toList_eq_nil_iff.mp hnil)
    have hdot : ".".length = 1 := rfl
    have hstem := hpos _ hstem
    have hextension := hpos _ hextension
    rw [declarationName, String.length_append, String.length_append]
    omega
  refine ⟨fun h => ?_, fun hmem => ?_, decide_eq_true ⟨fun h => ?_, fun h => ?_⟩⟩
  · rw [h] at hlong
    exact absurd hlong (by decide)
  · have hstem : '/' ∉ (Path.splitName name).1.toList := fun h => hname.slash_not_mem <| by
      rw [heq, String.toList_append, String.toList_append]
      exact List.mem_append_left _ (List.mem_append_left _ h)
    rw [declarationName, String.toList_append, String.toList_append, List.mem_append,
      List.mem_append] at hmem
    rcases hmem with (hmem | hmem) | hmem
    · exact hstem hmem
    · exact absurd hmem (by decide)
    · exact hslash hmem
  · rw [h] at hlong
    exact absurd hlong (by decide)
  · rw [h] at hlong
    exact absurd hlong (by decide)

/-- **Documents of different names have declaration files of different names.** -/
theorem declarationName_inj {a b : String}
    (ha : (Path.splitName a).2 = some s.inputExtension)
    (hb : (Path.splitName b).2 = some s.inputExtension)
    (h : s.declarationName a = s.declarationName b) : a = b := by
  have hstem : (Path.splitName a).1 = (Path.splitName b).1 := by
    unfold declarationName at h
    rw [String.append_assoc, String.append_assoc] at h
    exact String.append_left_inj _ |>.mp h
  rw [(Path.splitName_eq_some ha).2, (Path.splitName_eq_some hb).2, hstem]

end Settings

end SchemaTypings
