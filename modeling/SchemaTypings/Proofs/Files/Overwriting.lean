import SchemaTypings.Proofs.Files.Creation

/-!
# Overwriting files

What stands in a tree after files have been written, with nothing known of the paths that they were
written to. Such a path may go through folders, up and down, and several may lead to one place. All
that is said is that whatever stood in the tree stands there as it did, unless one of the paths
leads to it (`FileTree.Overwrites`).

This is enough for a file that none of the paths leads to: it is found as it was
(`FileTree.Overwrites.find_eq`). Whether a path leads to it is asked of the tree in the end, as a
path that leads somewhere keeps leading there (`FileTree.Spares.of_keeps`).
-/

namespace SchemaTypings

namespace FileTree

variable {t u v : FileTree} {p q : Path} {paths more : List Path}

/-- **Nothing is overwritten but where some of the paths lead.** Folders stay folders and files stay
files all the same, and more may be there. -/
structure Overwrites (paths : List Path) (t u : FileTree) : Prop where
  /-- What is there stays there. -/
  keeps : Keeps t u
  /-- It stays what it was where none of the paths leads. -/
  kept : ∀ location kind, t.kindAt location = some kind →
    u.kindAt location = some kind ∨ ∃ p ∈ paths, u.locate p = .ok location

/-- **No path of some leads where another path leads.** -/
def Spares (t : FileTree) (paths : List Path) (q : Path) : Prop :=
  ∀ p ∈ paths, ∀ location, t.locate p = .ok location → t.locate q ≠ .ok location

namespace Overwrites

protected theorem refl (t : FileTree) : Overwrites [] t t :=
  ⟨.of_kept fun _ _ h => h, fun _ _ h => .inl h⟩

protected theorem trans (h : Overwrites paths t u) (h' : Overwrites more u v) :
    Overwrites (paths ++ more) t v where
  keeps := h.keeps.trans h'.keeps
  kept location kind hkind := by
    rcases h.kept location kind hkind with hkind | ⟨r, hr, hlocate⟩
    · exact (h'.kept location kind hkind).imp_right fun ⟨r, hr, hlocate⟩ =>
        ⟨r, List.mem_append_right paths hr, hlocate⟩
    · exact .inr ⟨r, List.mem_append_left more hr, locate_of_keeps h'.keeps hlocate⟩

theorem mono (h : Overwrites paths t u) (hsubset : ∀ r ∈ paths, r ∈ more) : Overwrites more t u where
  keeps := h.keeps
  kept location kind hkind := (h.kept location kind hkind).imp_right fun ⟨r, hr, hlocate⟩ =>
    ⟨r, hsubset r hr, hlocate⟩

/-- **A file that is spared is found as it was.** -/
theorem find_eq (h : Overwrites paths t u) (hspares : u.Spares paths q) {bytes : ByteArray}
    (hfind : t.find q = .ok (.file bytes)) : u.find q = .ok (.file bytes) := by
  obtain ⟨location, hlocate, hkind⟩ := find_eq_file.mp hfind
  have hthere := locate_of_keeps h.keeps hlocate
  rcases h.kept location _ hkind with hkept | ⟨r, hr, hled⟩
  · exact find_eq_file.mpr ⟨location, hthere, hkept⟩
  · exact absurd hthere (hspares r hr location hled)

end Overwrites

namespace Spares

/-- **What is spared in the end was spared before**: ways that met once would still meet. -/
theorem of_keeps (h : u.Spares paths q) (hkeeps : Keeps t u) : t.Spares paths q :=
  fun r hr location hled hthere =>
    h r hr location (locate_of_keeps hkeeps hled) (locate_of_keeps hkeeps hthere)

end Spares

/-- Adding folders overwrites nothing. -/
theorem AddsFolders.overwrites (h : AddsFolders paths t u) : Overwrites [] t u :=
  ⟨h.keeps, fun location kind hkind => .inl (h.kept location kind hkind)⟩

/-- **Writing a file** overwrites nothing but where its path leads, and the file is found there. -/
theorem overwrites_withFile {bytes : ByteArray} (h : t.withFile p bytes = .ok u) :
    Overwrites [p] t u ∧ u.find p = .ok (.file bytes) := by
  obtain ⟨around, name, hplace, hslash, hfree, rfl⟩ := withFile_eq_ok h
  obtain ⟨-, haskable, -, -, haround, -⟩ := place_eq_some hplace
  have hkind := kindAt_put haround hfree fun names => kindAt_file_of_ne_nil bytes
  have hkeeps : Keeps t (put (.file bytes) t (around ++ [name])) := .put_file haround hfree bytes
  have hthere : (put (.file bytes) t (around ++ [name])).kindAt (around ++ [name])
      = some (.file bytes) := (hkind _).trans (if_pos rfl)
  have hlocate : (put (.file bytes) t (around ++ [name])).locate p = .ok (around ++ [name]) := by
    unfold locate steps
    rw [haskable, hslash]
    refine walk_pieces_of_place hplace hkeeps ?_
    rw [hthere]
    rfl
  refine ⟨⟨hkeeps, fun location kind hold => ?_⟩, find_eq_file.mpr ⟨_, hlocate, hthere⟩⟩
  by_cases heq : location = around ++ [name]
  · exact .inr ⟨p, List.mem_singleton_self p, heq ▸ hlocate⟩
  · rw [hkind, if_neg heq]
    exact .inl hold

end FileTree

end SchemaTypings
