import Mathlib.Tactic.FinCases
import SchemaTypings.Proofs.Typings.Noting

/-!
# What tokens name

A token is the name of a built-in type, a reference to a declared type – a type marker with a
raw name behind it – or neither, and then nothing is known of it. The two places where tokens
are looked up, the type of a value and the base of a record, agree on which is which: a
reference gives the type name of its raw name and notes nothing
(`TypeExpr.ofToken_reference`, `TypeExpr.baseName_reference`), and exactly the tokens nothing
is known of are noted (`TypeExpr.notesOf_ofToken`, `TypeExpr.notesOf_baseName`). Looking up a
base is looking up a type and keeping its name (`TypeExpr.baseName_eq_map_ofToken`).
-/

namespace SchemaTypings

namespace KnownPrefix

/-- **A token that refers** to a declared type: the marker of a prefix with a raw name behind
it. -/
def reference (p : KnownPrefix) (name : String) : String :=
  String.ofList (p.marker ++ name.toList)

/-- A search for the type marker of a text stops at the marker that the text begins with: no
marker is the beginning of another. -/
theorem findSome?_marker_append {α : Type} (found : KnownPrefix → List Char → α) {p : KnownPrefix}
    (hp : p ∈ typeMarkers) (rest : List Char) :
    (typeMarkers.findSome? fun q => (q.marker.isPrefixOf? (p.marker ++ rest)).map (found q))
      = some (found p rest) := by
  fin_cases hp <;> rfl

/-- What follows a type marker is found, whichever of the markers it is. -/
theorem afterMarker?_reference {p : KnownPrefix} (hp : p ∈ typeMarkers) (name : String) :
    afterMarker? (p.reference name) = some name := by
  rw [afterMarker?, reference, String.toList_ofList,
    findSome?_marker_append (fun _ => String.ofList) hp, String.ofList_toList]

/-- **A token with something behind a marker is a reference**, and nothing else is. -/
theorem afterMarker?_eq_some_iff {token name : String} :
    afterMarker? token = some name ↔ ∃ p ∈ typeMarkers, token = p.reference name := by
  constructor
  · intro h
    obtain ⟨p, hp, hfound⟩ := List.exists_of_findSome?_eq_some h
    obtain ⟨rest, hrest, rfl⟩ := Option.map_eq_some_iff.mp hfound
    refine ⟨p, hp, String.toList_inj.mp ?_⟩
    rw [reference, String.toList_ofList, String.toList_ofList]
    exact eq_append_of_isPrefixOf? hrest
  · rintro ⟨p, hp, rfl⟩
    exact afterMarker?_reference hp name

end KnownPrefix

open KnownPrefix

namespace TypeExpr

/-- The names of the built-in types. -/
def builtinNames : List String :=
  ["boolean", "string", "base64Binary", "dateTime", "date", "time", "int", "long", "double",
    "anyType"]

/-- The table of built-in types is about the built-in names. -/
theorem builtin?_eq_none_iff {token : String} : builtin? token = none ↔ token ∉ builtinNames := by
  have hnames : builtins.map Prod.fst = builtinNames := rfl
  rw [← hnames, builtin?, List.lookup_eq_none_iff, List.mem_map]
  constructor
  · rintro hall ⟨entry, hentry, rfl⟩
    exact bne_iff_ne.mp (hall entry hentry) rfl
  · intro hnot entry hentry
    exact bne_iff_ne.mpr fun heq => hnot ⟨entry, hentry, heq.symm⟩

/-- A reference is no built-in name: none of them begins with a marker. -/
theorem builtin?_reference {p : KnownPrefix} (hp : p ∈ typeMarkers) (name : String) :
    builtin? (p.reference name) = none := by
  have hbegins : ∀ p ∈ typeMarkers, ∀ builtin ∈ builtinNames, ¬ p.marker <+: builtin.toList := by
    decide
  rw [builtin?_eq_none_iff]
  intro hmem
  refine hbegins p hp _ hmem ?_
  rw [reference, String.toList_ofList]
  exact List.prefix_append _ _

/-- **A token of which nothing is known**: it is no built-in name, and it is no reference, since
nothing stands behind a marker that it begins with. -/
def Unknown (token : String) : Prop :=
  token ∉ builtinNames ∧ ∀ p ∈ typeMarkers, p.marker <+: token.toList → token.toList = p.marker

instance : DecidablePred Unknown :=
  fun token => inferInstanceAs (Decidable (token ∉ builtinNames ∧
    ∀ p ∈ typeMarkers, p.marker <+: token.toList → token.toList = p.marker))

/-- Nothing is known of a token that the table does not hold and that has nothing behind a
marker. -/
theorem unknown_iff {token : String} :
    Unknown token ↔ builtin? token = none ∧ (afterMarker? token).filter (· ≠ "") = none := by
  refine and_congr builtin?_eq_none_iff.symm ?_
  rw [Option.filter_eq_none_iff]
  constructor
  · intro hbare name hname hne
    obtain ⟨p, hp, rfl⟩ := afterMarker?_eq_some_iff.mp hname
    have hmarker := hbare p hp
    rw [reference, String.toList_ofList] at hmarker
    have hnil := List.append_right_eq_self.mp (hmarker (List.prefix_append _ _))
    exact of_decide_eq_true hne (String.toList_eq_nil_iff.mp hnil)
  · rintro hempty p hp ⟨rest, hrest⟩
    have htoken : token = p.reference (String.ofList rest) := by
      rw [reference, String.toList_ofList, hrest, String.ofList_toList]
    have hafter := htoken ▸ afterMarker?_reference hp (String.ofList rest)
    have hnil : String.ofList rest = "" :=
      Decidable.not_not.mp fun hne => hempty _ hafter (decide_eq_true hne)
    rw [htoken, reference, hnil, String.toList_ofList]
    exact List.append_nil _

/-- **A token names a built-in type, or it is a reference, or nothing is known of it.** -/
theorem token_cases (token : String) :
    (∃ t, builtin? token = some t)
      ∨ (∃ p ∈ typeMarkers, ∃ name, name ≠ "" ∧ token = p.reference name) ∨ Unknown token := by
  rw [or_iff_not_imp_left, or_iff_not_imp_left]
  intro hbuiltin hreference
  have hnone : builtin? token = none :=
    Option.eq_none_iff_forall_ne_some.mpr fun t ht => hbuiltin ⟨t, ht⟩
  refine unknown_iff.mpr ⟨hnone, Option.filter_eq_none_iff.mpr fun name hname hne => ?_⟩
  obtain ⟨p, hp, htoken⟩ := afterMarker?_eq_some_iff.mp hname
  exact hreference ⟨p, hp, name, of_decide_eq_true hne, htoken⟩

/-- A built-in type is known. -/
theorem not_unknown_of_builtin? {token : String} {t : TypeExpr} (h : builtin? token = some t) :
    ¬ Unknown token := by
  intro hunknown
  rw [(unknown_iff.mp hunknown).1] at h
  cases h

/-- A reference is known. -/
theorem not_unknown_reference {p : KnownPrefix} (hp : p ∈ typeMarkers) {name : String}
    (hname : name ≠ "") : ¬ Unknown (p.reference name) := by
  intro hunknown
  have hnone := (unknown_iff.mp hunknown).2
  rw [afterMarker?_reference hp, Option.filter_some, if_pos (decide_eq_true hname)] at hnone
  cases hnone

/-! ## The type of a value -/

theorem ofToken_of_builtin? (policy : NamingPolicy) {token : String} {t : TypeExpr}
    (h : builtin? token = some t) : ofToken policy token = pure t := by
  unfold ofToken
  rw [h]

/-- **A reference names the type of its raw name**, and nothing is noted. -/
theorem ofToken_reference (policy : NamingPolicy) {p : KnownPrefix} (hp : p ∈ typeMarkers)
    {name : String} (hname : name ≠ "") :
    ofToken policy (p.reference name) = pure (.named (policy.apply name)) := by
  unfold ofToken
  rw [builtin?_reference hp, afterMarker?_reference hp, Option.filter_some,
    if_pos (decide_eq_true hname)]

theorem ofToken_of_unknown (policy : NamingPolicy) {token : String} (h : Unknown token) :
    ofToken policy token = (modify (·.addFallback token) >>= fun _ => pure .any) := by
  obtain ⟨hbuiltin, hmarked⟩ := unknown_iff.mp h
  unfold ofToken
  rw [hbuiltin, hmarked]

/-! ## The base of a record -/

/-- There is nothing to extend without a base, and an empty one is as good as none. -/
theorem baseName_of_filter_eq_none (policy : NamingPolicy) {base : Option String}
    (h : base.filter (· ≠ "") = none) : baseName policy base = pure none := by
  unfold baseName
  rw [h]

theorem baseName_of_builtin? (policy : NamingPolicy) {token : String} {t : TypeExpr}
    (h : builtin? token = some t) (hne : token ≠ "") :
    baseName policy (some token) = pure none := by
  unfold baseName
  rw [Option.filter_some, if_pos (decide_eq_true hne)]
  simp only [h, Option.isSome_some, if_true]

/-- **A reference extends the record of its raw name**, and nothing is noted. -/
theorem baseName_reference (policy : NamingPolicy) {p : KnownPrefix} (hp : p ∈ typeMarkers)
    {name : String} (hname : name ≠ "") :
    baseName policy (some (p.reference name)) = pure (some (policy.apply name)) := by
  have hne : p.reference name ≠ "" := by
    intro hempty
    have hmarked := afterMarker?_reference hp name
    rw [hempty] at hmarked
    cases hmarked
  unfold baseName
  rw [Option.filter_some, if_pos (decide_eq_true hne)]
  simp only [builtin?_reference hp, afterMarker?_reference hp, Option.isSome_none,
    Bool.false_eq_true, if_false, hname]

theorem baseName_of_unknown (policy : NamingPolicy) {token : String} (h : Unknown token)
    (hne : token ≠ "") :
    baseName policy (some token)
      = (modify (·.addFallback token) >>= fun _ => pure none) := by
  obtain ⟨hbuiltin, hmarked⟩ := unknown_iff.mp h
  unfold baseName
  rw [Option.filter_some, if_pos (decide_eq_true hne)]
  simp only [hbuiltin, Option.isSome_none, Bool.false_eq_true, if_false]
  split
  · rename_i name hname
    rw [hname, Option.filter_eq_none_iff] at hmarked
    rw [if_pos (Decidable.not_not.mp fun hnot => hmarked name rfl (decide_eq_true hnot))]
  · rfl

/-! ## A base and a type -/

/-- The name of a type, if it is a declared one. -/
def name? : TypeExpr → Option String
  | .named name => some name
  | _ => none

@[simp] theorem name?_eq_some_iff {t : TypeExpr} {name : String} :
    t.name? = some name ↔ t = .named name := by
  cases t <;> simp [name?]

/-- **A base is looked up as a type is**, and its name is kept. -/
theorem baseName_eq_map_ofToken (policy : NamingPolicy) {token : String} (hne : token ≠ "") :
    baseName policy (some token) = name? <$> ofToken policy token := by
  rcases token_cases token with ⟨t, ht⟩ | ⟨p, hp, raw, hraw, rfl⟩ | hunknown
  · have hnone : t.name? = none := by
      have hall : ∀ entry ∈ builtins, entry.2.name? = none := by decide
      exact hall _ (mem_builtins_of_builtin? ht)
    rw [baseName_of_builtin? policy ht hne, ofToken_of_builtin? policy ht, map_pure, hnone]
  · rw [baseName_reference policy hp hraw, ofToken_reference policy hp hraw]
    rfl
  · rw [baseName_of_unknown policy hunknown hne, ofToken_of_unknown policy hunknown]
    rfl

/-! ## What is noted of a token -/

/-- **The tokens that are noted** among those that are looked up, in the same order. -/
def unknownAmong (tokens : List String) : List String :=
  tokens.filter fun token => Unknown token

@[simp] theorem unknownAmong_nil : unknownAmong [] = [] := rfl

@[simp] theorem unknownAmong_append (a b : List String) :
    unknownAmong (a ++ b) = unknownAmong a ++ unknownAmong b :=
  List.filter_append a b

theorem unknownAmong_singleton {token : String} (h : Unknown token) :
    unknownAmong [token] = [token] :=
  List.filter_cons_of_pos (decide_eq_true h)

theorem unknownAmong_singleton_of_not {token : String} (h : ¬ Unknown token) :
    unknownAmong [token] = [] :=
  List.filter_cons_of_neg (by rwa [decide_eq_true_iff])

/-- **A token is noted exactly if nothing is known of it.** -/
theorem notesOf_ofToken (policy : NamingPolicy) (token : String) :
    notesOf (ofToken policy token) = ⟨[], unknownAmong [token]⟩ := by
  rcases token_cases token with ⟨t, ht⟩ | ⟨p, hp, name, hname, rfl⟩ | hunknown
  · rw [ofToken_of_builtin? policy ht, unknownAmong_singleton_of_not (not_unknown_of_builtin? ht)]
    rfl
  · rw [ofToken_reference policy hp hname,
      unknownAmong_singleton_of_not (not_unknown_reference hp hname)]
    rfl
  · rw [ofToken_of_unknown policy hunknown, unknownAmong_singleton hunknown]
    rfl

/-- **A base is noted exactly if it is there, is not empty, and nothing is known of it.** -/
theorem notesOf_baseName (policy : NamingPolicy) (base : Option String) :
    notesOf (baseName policy base) = ⟨[], unknownAmong (base.filter (· ≠ "")).toList⟩ := by
  cases hbase : base.filter (· ≠ "") with
  | none =>
    rw [baseName_of_filter_eq_none policy hbase]
    rfl
  | some token =>
    obtain ⟨rfl, hne⟩ := Option.filter_eq_some_iff.mp hbase
    replace hne := of_decide_eq_true hne
    rw [Option.toList_some, baseName_eq_map_ofToken policy hne, notesOf_map, notesOf_ofToken]

end TypeExpr

end SchemaTypings
