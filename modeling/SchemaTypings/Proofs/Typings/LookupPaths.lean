import SchemaTypings.Proofs.Typings.Spelling
import SchemaTypings.Proofs.Typings.Token

/-!
# Two ways to look a token up

A token is looked up as the type of a value, or as the base of a record. The two are written apart
and ask in different orders: whether something stands behind a type marker is asked at once in the
one, and in two steps in the other. They must not drift apart, since the same token may stand in
both places of a document.

They do not. Unless the token is empty, looking up a base is looking up a type and keeping the name
of the type, if it is a declared one (`TypeExpr.baseName_eq_map_ofToken`). So both note the same,
and in a sequence of such calls the one may stand for the other (`TypeExpr.lookups_agree`).
-/

namespace SchemaTypings

open KnownPrefix

namespace TypeExpr

@[simp] theorem name?_eq_none_iff {t : TypeExpr} : t.name? = none ↔ t ∈ predefined := by
  cases t <;> simp [name?, predefined]

/-- **A token of which something is known**: the name of a built-in type, or a type marker with
something behind it. -/
def Known (token : String) : Prop :=
  token ∈ builtinNames ∨ ∃ p ∈ typeMarkers, ∃ name, name ≠ "" ∧ token = p.reference name

theorem not_known_iff {token : String} : ¬ Known token ↔ Unknown token := by
  constructor
  · intro hnot
    rcases token_cases token with ⟨t, ht⟩ | hreference | hunknown
    · refine absurd (.inl ?_) hnot
      by_contra hmem
      rw [builtin?_eq_none_iff.mpr hmem] at ht
      cases ht
    · exact absurd (.inr hreference) hnot
    · exact hunknown
  · rintro hunknown (hbuiltin | ⟨p, hp, name, hname, rfl⟩)
    · exact hunknown.1 hbuiltin
    · exact not_unknown_reference hp hname hunknown

/-- **Looking up a type notes nothing of a token that is known**, and of any other token that it
became `any`. -/
theorem run_ofToken_snd (policy : NamingPolicy) (token : String) (noted : Diagnostics) :
    (Known token → ((ofToken policy token).run noted).2 = noted)
      ∧ (¬ Known token → ((ofToken policy token).run noted).2
        = { faults := noted.faults, fallbacks := noted.fallbacks ++ [token] }) := by
  rw [onlyNotes_ofToken policy token noted, notesOf_ofToken]
  refine ⟨fun hknown => ?_, fun hnot => ?_⟩
  · rw [unknownAmong_singleton_of_not fun hunknown => not_known_iff.mpr hunknown hknown]
    exact noted.append_empty
  · rw [unknownAmong_singleton (not_known_iff.mp hnot)]
    exact Diagnostics.ext (List.append_nil _) rfl

end TypeExpr

/-! ## Sequences of calls -/

/-- **A call that looks a token up**, under a policy. -/
inductive Lookup where
  /-- As the type of a value. -/
  | type (policy : NamingPolicy) (token : String)
  /-- As the base of a record. -/
  | base (policy : NamingPolicy) (token : String)

namespace Lookup

/-- The token that is looked up. -/
def token : Lookup → String
  | type _ token => token
  | base _ token => token

/-- The same token, looked up the other way. -/
def other : Lookup → Lookup
  | type policy token => base policy token
  | base policy token => type policy token

/-- What a call does to the diagnostics. -/
def perform : Lookup → StateM Diagnostics Unit
  | type policy token => Functor.discard (TypeExpr.ofToken policy token)
  | base policy token => Functor.discard (TypeExpr.baseName policy (some token))

/-- **Several calls, one after another.** -/
def performAll (calls : List Lookup) : StateM Diagnostics Unit :=
  forM calls perform

/-- A call does to the diagnostics what the other way does. -/
theorem perform_other (c : Lookup) (hne : c.token ≠ "") : c.other.perform = c.perform := by
  cases c with
  | type policy token =>
    change token ≠ "" at hne
    show Functor.discard (TypeExpr.baseName policy (some token)) = _
    rw [TypeExpr.baseName_eq_map_ofToken policy hne]
    rfl
  | base policy token =>
    change token ≠ "" at hne
    rw [perform, TypeExpr.baseName_eq_map_ofToken policy hne]
    rfl

/-- Calls do the same, whichever of them are made the other way. -/
theorem performAll_eq_of_forall₂ {calls others : List Lookup}
    (h : List.Forall₂ (fun c d => d = c ∨ d = c.other) calls others)
    (hne : ∀ c ∈ calls, c.token ≠ "") : performAll others = performAll calls := by
  induction h with
  | nil => rfl
  | @cons c d calls others hd _ ih =>
    obtain ⟨hc, hcalls⟩ := List.forall_mem_cons.mp hne
    have hperform : d.perform = c.perform := by
      rcases hd with rfl | rfl
      · rfl
      · exact c.perform_other hc
    unfold performAll at ih ⊢
    rw [List.forM_cons, List.forM_cons, hperform, ih hcalls]

end Lookup

/-- **The two ways to look a token up agree.** Whatever was noted before, a token that is not empty
gives a base its name exactly if it names a declared type of that name, and gives it none exactly
if it names a predefined type. Both ways leave the same notes: those that were there if something
is known of the token, and otherwise one more entry for it. So in a sequence of such calls each may
be made the other way, and the same is noted in the end. -/
theorem TypeExpr.lookups_agree :
    (∀ (policy : NamingPolicy) (noted : Diagnostics) (token : String), token ≠ "" →
        let type := (ofToken policy token).run noted
        let base := (baseName policy (some token)).run noted
        (∀ name, base.1 = some name ↔ type.1 = .named name)
          ∧ (base.1 = none ↔ type.1 ∈ predefined)
          ∧ base.2 = type.2
          ∧ (Known token → type.2 = noted)
          ∧ (¬ Known token → type.2
            = { faults := noted.faults, fallbacks := noted.fallbacks ++ [token] }))
      ∧ ∀ calls others : List Lookup, (∀ c ∈ calls, c.token ≠ "") →
        List.Forall₂ (fun c d => d = c ∨ d = c.other) calls others →
        ∀ noted, (Lookup.performAll others).run noted = (Lookup.performAll calls).run noted := by
  refine ⟨fun policy noted token hne => ?_, fun calls others hne h noted => ?_⟩
  · intro type base
    have hbase : base = (type.1.name?, type.2) := by
      show (baseName policy (some token)).run noted = _
      rw [baseName_eq_map_ofToken policy hne]
      rfl
    rw [hbase]
    exact ⟨fun name => name?_eq_some_iff, name?_eq_none_iff, rfl,
      run_ofToken_snd policy token noted⟩
  · rw [Lookup.performAll_eq_of_forall₂ h hne]

/-- A reference and a marker with nothing behind it, looked up both ways. -/
theorem TypeExpr.lookups_agree_marker :
    let calls : List Lookup := [.type .capitalize "tns_", .base .reservedSuffix "ens_item"]
    ((baseName .capitalize (some "ens_item")).run {}).1 = some "Item"
      ∧ ((ofToken .capitalize "ens_item").run {}).1 = .named "Item"
      ∧ (Lookup.performAll (calls.map Lookup.other)).run {} = (Lookup.performAll calls).run {}
      ∧ ((Lookup.performAll calls).run {}).2.fallbacks = ["tns_"] := by
  intro calls
  obtain ⟨hone, hall⟩ := lookups_agree
  obtain ⟨hnames, -⟩ := hone .capitalize {} "ens_item" (by decide)
  have hreplaced : List.Forall₂ (fun c d => d = c ∨ d = c.other) calls (calls.map Lookup.other) :=
    .cons (.inr rfl) (.cons (.inr rfl) .nil)
  refine ⟨by decide, (hnames "Item").mp (by decide), hall calls _ (by decide) hreplaced {}, ?_⟩
  decide

end SchemaTypings
