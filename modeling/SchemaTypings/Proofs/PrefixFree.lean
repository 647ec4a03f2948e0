import Mathlib.Data.List.Basic

/-!
# Spellings that end by themselves

A spelling is *prefix-free* if what is spelled can be told from the text it begins, whatever
follows: two texts that begin with spellings and are equal begin with the same spelling, and
go on alike. That is what it takes for spellings to be put one after another without anything
between them, and it is preserved by doing so (`PrefixFree.flatMap`).
-/

namespace SchemaTypings

variable {α : Type}

/-- **A spelling is prefix-free** on some things if no spelling of one of them begins a text
that begins with the spelling of another. -/
def PrefixFree (good : α → Prop) (spell : α → List Char) : Prop :=
  ∀ ⦃a b : α⦄, good a → good b → ∀ ⦃r s : List Char⦄,
    spell a ++ r = spell b ++ s → a = b ∧ r = s

/-- What can be read from the front of a text is spelled prefix-free. -/
theorem PrefixFree.of_read {good : α → Prop} {spell : α → List Char}
    (read : List Char → Option (α × List Char))
    (h : ∀ a, good a → ∀ r, read (spell a ++ r) = some (a, r)) : PrefixFree good spell := by
  intro a b ha hb r s heq
  have hread := h a ha r
  rw [heq, h b hb s, Option.some.injEq, Prod.mk.injEq] at hread
  exact ⟨hread.1.symm, hread.2.symm⟩

/-- **A list is told from what follows it** if each item is, and if what follows begins with
no item. -/
theorem PrefixFree.flatMap {good : α → Prop} {spell : α → List Char} (h : PrefixFree good spell)
    {r s : List Char} (hr : ∀ a, good a → ¬ spell a <+: r) (hs : ∀ a, good a → ¬ spell a <+: s)
    {l m : List α} (hl : ∀ a ∈ l, good a) (hm : ∀ a ∈ m, good a)
    (heq : l.flatMap spell ++ r = m.flatMap spell ++ s) : l = m ∧ r = s := by
  induction l generalizing m with
  | nil =>
    cases m with
    | nil => exact ⟨rfl, heq⟩
    | cons b m =>
      rw [List.flatMap_cons, List.append_assoc] at heq
      exact absurd ⟨_, heq.symm⟩ (hr b (hm b List.mem_cons_self))
  | cons a l ih =>
    obtain ⟨ha, hltail⟩ := List.forall_mem_cons.mp hl
    cases m with
    | nil =>
      rw [List.flatMap_cons, List.append_assoc] at heq
      exact absurd ⟨_, heq⟩ (hs a ha)
    | cons b m =>
      obtain ⟨hb, hmtail⟩ := List.forall_mem_cons.mp hm
      rw [List.flatMap_cons, List.flatMap_cons, List.append_assoc, List.append_assoc] at heq
      obtain ⟨rfl, hrest⟩ := h ha hb heq
      obtain ⟨rfl, hend⟩ := ih hltail hmtail hrest
      exact ⟨rfl, hend⟩

/-- **A stretch of characters of one kind ends at the first of another.** -/
theorem eq_of_append_cons_eq {kind : Char → Bool} {a b : List Char} (ha : ∀ c ∈ a, kind c = true)
    (hb : ∀ c ∈ b, kind c = true) {c d : Char} (hc : kind c = false) (hd : kind d = false)
    {r s : List Char} (h : a ++ c :: r = b ++ d :: s) : a = b ∧ c = d ∧ r = s := by
  induction a generalizing b with
  | nil =>
    cases b with
    | nil =>
      obtain ⟨hcd, hrs⟩ := List.cons_eq_cons.mp h
      exact ⟨rfl, hcd, hrs⟩
    | cons e b =>
      have hce : c = e := (List.cons_eq_cons.mp h).1
      rw [hce, hb e List.mem_cons_self] at hc
      cases hc
  | cons e a ih =>
    obtain ⟨he, ha⟩ := List.forall_mem_cons.mp ha
    cases b with
    | nil =>
      have hed : e = d := (List.cons_eq_cons.mp h).1
      rw [← hed, he] at hd
      cases hd
    | cons f b =>
      obtain ⟨rfl, htail⟩ := List.cons_eq_cons.mp h
      obtain ⟨rfl, hcd, hrs⟩ := ih ha (List.forall_mem_cons.mp hb).2 htail
      exact ⟨rfl, hcd, hrs⟩

end SchemaTypings
