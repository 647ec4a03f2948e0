import SchemaTypings.Proofs.Settings.Written

/-!
# Putting settings into a document

A document that writes settings makes a table if what is left without the settings makes one
(`Writes.exists_assembled`). The two are read side by side: `Tracks` relates the tables that are
under construction in the document and in what is left of it. Keys that have nothing to do with
settings stand for the same in both, and a setting stands for what was said about it so far.

The groups are what takes care. Where dotted keys of settings begin a group, there may be no such
group in what is left, or one that the header of a table inside it began. Therefore everything that
can be done to the group in what is left must be possible in the other one as well
(`GroupTracks.enter`), and the one thing that dotted keys rule out is a header of the group itself.
-/

namespace SchemaTypings

open Toml

variable {es es' r r' : Entries} {g name part : String} {dotted : Prop} {key : List String}
  {said said' : List String → Option Value} {pairs : List (List String × Value)}

/-! ## What was said so far -/

/-- What was said, and what some more pairs say. -/
def also (said : List String → Option Value) (pairs : List (List String × Value))
    (key : List String) : Option Value :=
  (said key).or (pairs.lookup key)

@[simp] theorem also_nil (said : List String → Option Value) : also said [] = said :=
  funext fun _ => Option.or_none

theorem also_append (said : List String → Option Value) (pairs more : List (List String × Value)) :
    also said (pairs ++ more) = also (also said pairs) more := by
  funext key
  rw [also, also, also, List.lookup_append, Option.or_assoc]

theorem also_cons (said : List String → Option Value) (pair : List String × Value)
    (pairs : List (List String × Value)) :
    also said (pair :: pairs) = also (also said [pair]) pairs :=
  also_append said [pair] pairs

theorem also_of_forall_ne (h : ∀ pair ∈ pairs, pair.1 ≠ key) : also said pairs key = said key := by
  have hnone : pairs.lookup key = none :=
    List.lookup_eq_none_iff.mpr fun pair hpair => bne_iff_ne.mpr (Ne.symm (h pair hpair))
  rw [also, hnone, Option.or_none]

theorem also_singleton_of_ne {other : List String} (h : other ≠ key) (v : Value) :
    also said [(key, v)] other = said other :=
  also_of_forall_ne (List.forall_mem_singleton.mpr (Ne.symm h))

theorem also_singleton_self (h : said key = none) (v : Value) :
    also said [(key, v)] key = some v := by
  rw [also, h, List.lookup_cons_self]
  rfl

/-- **Pairs that say something new** about settings: nothing was said about these before, and no two
of the pairs are about the same one. -/
structure New (said : List String → Option Value) (pairs : List (List String × Value)) : Prop where
  /-- Nothing was said about the settings. -/
  unsaid : ∀ pair ∈ pairs, Setting.knows pair.1 = true → said pair.1 = none
  /-- No setting is said twice. -/
  once : pairs.Pairwise fun x y => Setting.knows y.1 = true → x.1 ≠ y.1

namespace New

variable {pair : List String × Value} {more : List (List String × Value)}

theorem left (h : New said (pairs ++ more)) : New said pairs :=
  ⟨(List.forall_mem_append.mp h.unsaid).1, (List.pairwise_append.mp h.once).1⟩

/-- The pairs behind others are still new when those were said. -/
theorem right (h : New said (pairs ++ more)) : New (also said pairs) more := by
  obtain ⟨-, honce, hapart⟩ := List.pairwise_append.mp h.once
  refine ⟨fun pair hpair hknown => ?_, honce⟩
  rw [also_of_forall_ne fun other hother => hapart other hother pair hpair hknown]
  exact h.unsaid pair (List.mem_append_right _ hpair) hknown

theorem tail (h : New said (pair :: pairs)) : New (also said [pair]) pairs :=
  (show New said ([pair] ++ pairs) from h).right

end New

/-! ## Inside a group -/

/-- **The members of a group**, in a document and in what is left of it without the settings. -/
structure TracksInside (g : String) (said : List String → Option Value) (es es' : Entries) :
    Prop where
  /-- Other keys stand for the same in both. -/
  other : ∀ name, Setting.knows [g, name] = false → es.lookup name = es'.lookup name
  /-- A setting stands for what was said about it. -/
  setting : ∀ name, Setting.knows [g, name] = true → es.lookup name = (said [g, name]).map .value

namespace TracksInside

/-- What is done to a key that is no setting can be done in the document as well. -/
theorem within {act act' : Option Item → Option Item} (h : TracksInside g said es es')
    (hpart : Setting.knows [g, part] = false) (hact : ∀ item result, act' item = some result →
      act item = some result) (hr' : within part act' es' = some r') :
    ∃ r, Toml.within part act es = some r ∧ TracksInside g said r r' := by
  obtain ⟨item, hitem, rfl⟩ := within_eq_some.mp hr'
  refine ⟨Entries.set part item es, within_eq_some.mpr ⟨item, ?_, rfl⟩, fun name hname => ?_,
    fun name hname => ?_⟩
  · rw [h.other part hpart]
    exact hact _ _ hitem
  · by_cases heq : name = part
    · rw [heq, Entries.lookup_set_self, Entries.lookup_set_self]
    · rw [Entries.lookup_set_of_ne heq, Entries.lookup_set_of_ne heq, h.other name hname]
  · have hne : name ≠ part := by
      rintro rfl
      exact absurd hname (Bool.eq_false_iff.mp hpart)
    rw [Entries.lookup_set_of_ne hne, h.setting name hname]

/-- **A setting is given its value** in its group. -/
theorem give (h : TracksInside g said es es') (hknown : Setting.knows [g, name] = true)
    (hnew : said [g, name] = none) (v : Value) :
    ∃ r, Toml.within name (fresh v) es = some r
      ∧ TracksInside g (also said [([g, name], v)]) r es' := by
  have hnone : es.lookup name = none := by rw [h.setting name hknown, hnew, Option.map_none]
  refine ⟨Entries.set name (.value v) es, within_eq_some.mpr ⟨.value v, by rw [hnone]; rfl, rfl⟩,
    fun other hother => ?_, fun other hother => ?_⟩
  · have hne : other ≠ name := by
      rintro rfl
      exact absurd hknown (Bool.eq_false_iff.mp hother)
    rw [Entries.lookup_set_of_ne hne, h.other other hother]
  · by_cases heq : other = name
    · subst heq
      rw [Entries.lookup_set_self, also_singleton_self hnew]
      rfl
    · have hne : [g, other] ≠ [g, name] := fun hkeys => heq (by simpa using hkeys)
      rw [Entries.lookup_set_of_ne heq, also_singleton_of_ne hne, h.setting other hother]

/-- What is said about other keys makes no difference. -/
theorem congr (h : TracksInside g said es es') (hsaid : ∀ name, Setting.knows [g, name] = true →
    said' [g, name] = said [g, name]) : TracksInside g said' es es' :=
  ⟨h.other, fun name hname => by rw [hsaid name hname, h.setting name hname]⟩

/-- **What is done inside a group** to keys that are no settings can be done in the document as
well, also if it is dotted keys that begin the group there. -/
theorem acts {change : Origin → Entries → Option Entries} {origin origin' : Origin}
    (h : TracksInside g said es es') (hpart : Setting.knows [g, part] = false)
    (hchange : ActsInside part change)
    (horigin : origin = origin' ∨ origin = .dotted ∧ origin' = .implied)
    (hr' : change origin' es' = some r') :
    ∃ r, change origin es = some r ∧ TracksInside g said r r' := by
  obtain ⟨act, hact, hwiden⟩ := hchange
  rw [hact] at hr' ⊢
  refine h.within hpart (fun item result hresult => ?_) hr'
  rcases horigin with rfl | ⟨rfl, rfl⟩
  · exact hresult
  · exact hwiden item result hresult

/-- **A pair of a group** can be given if it is a setting, or else if it can be given in what is
left. -/
theorem addPair (hg : g ∈ Setting.groups) (h : TracksInside g said es es')
    (hkey : Setting.knows (g :: key) = true ∨ Foreign (g :: key))
    (hnew : Setting.knows (g :: key) = true → said (g :: key) = none) {v : Value}
    (hr' : (if !Setting.knows (g :: key) then Toml.addPair es' (key, v) else some es') = some r') :
    ∃ r, Toml.addPair es (key, v) = some r ∧ TracksInside g (also said [(g :: key, v)]) r r' := by
  rw [addPair_eq]
  rcases hkey with hknown | hforeign
  · rw [hknown] at hr'
    obtain rfl := Option.some.inj hr'
    obtain ⟨name, rfl⟩ := exists_name_of_knows hg hknown
    exact h.give hknown (hnew hknown) v
  · rw [hforeign.knows_eq_false] at hr'
    obtain ⟨part, more, rfl, hpart⟩ := hforeign.exists_part hg
    have hadd : sow v (part :: more) .dotted es' = some r' := (addPair_eq _ _ _).symm.trans hr'
    obtain ⟨r, hr, htracks⟩ := h.acts hpart (actsInside_sow v part more) (.inl rfl) hadd
    refine ⟨r, hr, htracks.congr fun name hname => also_singleton_of_ne ?_ v⟩
    intro heq
    exact hforeign.not_knows (heq ▸ hname)

/-- **The pairs of a group** can be given if those are that are left without the settings. -/
theorem addPairs (hg : g ∈ Setting.groups) (h : TracksInside g said es es')
    (hkeys : ∀ pair ∈ behind [g] pairs, Setting.knows pair.1 = true ∨ Foreign pair.1)
    (hnew : New said (behind [g] pairs))
    (hr' : Toml.addPairs es' (pairs.filter fun pair => !Setting.knows ([g] ++ pair.1)) = some r') :
    ∃ r, Toml.addPairs es pairs = some r ∧ TracksInside g (also said (behind [g] pairs)) r r' := by
  induction pairs generalizing said es es' with
  | nil => exact ⟨es, rfl, by obtain rfl := Option.some.inj hr'; simpa [behind] using h⟩
  | cons pair pairs ih =>
    obtain ⟨key, v⟩ := pair
    obtain ⟨hkey, hkeys⟩ := List.forall_mem_cons.mp hkeys
    obtain ⟨between', hbetween', hrest⟩ := addPairs_filter_cons.mp hr'
    obtain ⟨between, hbetween, htracks⟩ :=
      h.addPair hg hkey (hnew.unsaid _ List.mem_cons_self) hbetween'
    obtain ⟨r, hr, htracks⟩ := ih htracks hkeys hnew.tail hrest
    refine ⟨r, addPairs_cons_eq_some.mpr ⟨between, hbetween, hr⟩, ?_⟩
    rw [behind, List.map_cons, also_cons]
    exact htracks

end TracksInside

/-! ## A group as a whole -/

/-- **What stands for a group**, in a document and in what is left of it without the settings;
`dotted` tells whether dotted keys of settings begin the group. -/
inductive GroupTracks (g : String) (dotted : Prop) (said : List String → Option Value) :
    Option Item → Option Item → Prop where
  /-- There is no group yet. -/
  | absent (hwhole : said [g] = none) (h : TracksInside g said [] []) :
    GroupTracks g dotted said none none
  /-- The group stands between braces. -/
  | braces {v : Value} (hwhole : said [g] = some v) (h : TracksInside g said [] []) :
    GroupTracks g dotted said (some (.value v)) (some (.value v))
  /-- The group is begun in both. -/
  | table {origin origin' : Origin} {es es' : Entries} (hwhole : said [g] = none)
    (horigin : origin = origin' ∨ dotted ∧ origin = .dotted ∧ origin' = .implied)
    (h : TracksInside g said es es') :
    GroupTracks g dotted said (some (.table origin es)) (some (.table origin' es'))
  /-- Settings alone begin the group. -/
  | alone {es : Entries} (hwhole : said [g] = none) (hdotted : dotted)
    (h : TracksInside g said es []) : GroupTracks g dotted said (some (.table .dotted es)) none

namespace GroupTracks

variable {item item' result' : Option Item}

/-- **What is done inside a group** to keys that are no settings can be done in the document as
well. -/
theorem enter {headers : Bool} {change : Origin → Entries → Option Entries} {result' : Item}
    (h : GroupTracks g dotted said item item') (hpart : Setting.knows [g, part] = false)
    (hchange : ActsInside part change) (hr' : Toml.enter headers change item' = some result') :
    ∃ result, Toml.enter headers change item = some result
      ∧ GroupTracks g dotted said (some result) (some result') := by
  cases h with
  | absent hwhole h =>
    obtain ⟨inner', hinner', rfl⟩ := Option.map_eq_some_iff.mp hr'
    obtain ⟨r, hr, htracks⟩ := h.acts hpart hchange (.inl rfl) hinner'
    exact ⟨_, by rw [Toml.enter, hr]; rfl, .table hwhole (.inl rfl) htracks⟩
  | braces hwhole h => cases hr'
  | @table origin origin' es es' hwhole horigin h =>
    rw [Toml.enter] at hr'
    split at hr'
    · cases hr'
    · rename_i hheader
      obtain ⟨inner', hinner', rfl⟩ := Option.map_eq_some_iff.mp hr'
      obtain ⟨r, hr, htracks⟩ := h.acts hpart hchange (horigin.imp_right And.right) hinner'
      refine ⟨_, ?_, .table hwhole horigin htracks⟩
      have hopen : ¬ (headers = true ∧ origin = .header) := by
        rcases horigin with rfl | ⟨-, rfl, -⟩
        · exact hheader
        · exact fun h => Origin.noConfusion h.2
      rw [Toml.enter, if_neg hopen, hr]
      rfl
  | @alone es hwhole hdotted h =>
    obtain ⟨inner', hinner', rfl⟩ := Option.map_eq_some_iff.mp hr'
    have horigin : Origin.dotted = (if headers then Origin.dotted else .implied)
        ∨ dotted ∧ Origin.dotted = .dotted
          ∧ (if headers then Origin.dotted else .implied) = .implied := by
      cases headers
      · exact .inr ⟨hdotted, rfl, rfl⟩
      · exact .inl rfl
    obtain ⟨r, hr, htracks⟩ := h.acts hpart hchange (horigin.imp_right And.right) hinner'
    refine ⟨_, ?_, .table hwhole horigin htracks⟩
    have hopen : ¬ (headers = true ∧ Origin.dotted = .header) := fun h => Origin.noConfusion h.2
    rw [Toml.enter, if_neg hopen, hr]
    rfl

/-- **A setting is given by a dotted key**, which begins its group if there is none. -/
theorem give (h : GroupTracks g dotted said item item') (hdotted : dotted)
    (hknown : Setting.knows [g, name] = true)
    (hadmits : ∀ i ∈ item, ∃ inner, i = .table .dotted inner)
    (hnew : said [g, name] = none) (v : Value) :
    ∃ result, Toml.enter true (sow v [name]) item = some result
      ∧ GroupTracks g dotted (also said [([g, name], v)]) (some result) item' := by
  have hwhole : also said [([g, name], v)] [g] = said [g] := also_singleton_of_ne (by simp) v
  cases h with
  | absent hnone h =>
    obtain ⟨r, hr, htracks⟩ := h.give hknown hnew v
    refine ⟨.table .dotted r, ?_, .alone (hwhole.trans hnone) hdotted htracks⟩
    show (Toml.within name (fresh v) []).map _ = _
    rw [hr]
    rfl
  | braces _ _ =>
    obtain ⟨inner, heq⟩ := hadmits _ rfl
    cases heq
  | @table origin _ inner _ hnone horigin h =>
    obtain ⟨_, heq⟩ := hadmits _ rfl
    cases heq
    obtain ⟨r, hr, htracks⟩ := h.give hknown hnew v
    refine ⟨.table .dotted r, ?_, .table (hwhole.trans hnone) horigin htracks⟩
    show (Toml.within name (fresh v) inner).map _ = _
    rw [hr]
    rfl
  | @alone inner hnone _ h =>
    obtain ⟨r, hr, htracks⟩ := h.give hknown hnew v
    refine ⟨.table .dotted r, ?_, .alone (hwhole.trans hnone) hdotted htracks⟩
    show (Toml.within name (fresh v) inner).map _ = _
    rw [hr]
    rfl

/-- **The header of a group** with its settings can stand where it can stand without them. -/
theorem openTable (hg : g ∈ Setting.groups) (h : GroupTracks g dotted said item item')
    (hdotted : ¬ dotted)
    (hkeys : ∀ pair ∈ behind [g] pairs, Setting.knows pair.1 = true ∨ Foreign pair.1)
    (hnew : New said (behind [g] pairs))
    {result' : Item}
    (hr' : Toml.openTable (pairs.filter fun pair => !Setting.knows ([g] ++ pair.1)) item'
      = some result') :
    ∃ result, Toml.openTable pairs item = some result
      ∧ GroupTracks g dotted (also said (behind [g] pairs)) (some result) (some result') := by
  have hwhole : also said (behind [g] pairs) [g] = said [g] :=
    also_of_forall_ne fun pair hpair heq => (heq ▸ hkeys pair hpair).elim
      (not_knows_group hg) (not_foreign_group hg)
  have hfill : ∀ {begun begun'}, TracksInside g said begun begun' →
      (addPairs begun' (pairs.filter fun pair => !Setting.knows ([g] ++ pair.1))).map
        (.table .header ·) = some result' →
      said [g] = none → ∃ result, (addPairs begun pairs).map (.table .header ·) = some result
        ∧ GroupTracks g dotted (also said (behind [g] pairs)) (some result) (some result') := by
    intro begun begun' htracks hr' hnone
    obtain ⟨inner', hinner', rfl⟩ := Option.map_eq_some_iff.mp hr'
    obtain ⟨inner, hinner, htracks⟩ := htracks.addPairs hg hkeys hnew hinner'
    exact ⟨_, by rw [hinner]; rfl, .table (hwhole.trans hnone) (.inl rfl) htracks⟩
  cases h with
  | absent hnone h => exact hfill h hr' hnone
  | braces _ _ => cases hr'
  | @table origin origin' _ _ hnone horigin h =>
    obtain rfl : origin = origin' := horigin.resolve_right fun h => hdotted h.1
    cases origin with
    | implied => exact hfill h hr' hnone
    | header => cases hr'
    | dotted => cases hr'
  | alone _ h _ => exact absurd h hdotted

end GroupTracks

/-! ## The whole table -/

/-- **What stands for a key of the whole table**, in a document and in what is left of it without
the settings. -/
structure ItemTracks (dotted : String → Prop) (said : List String → Option Value) (name : String)
    (item item' : Option Item) : Prop where
  /-- A key that has nothing to do with settings stands for the same in both. -/
  other : name ∉ Setting.groups → Setting.knows [name] = false → item = item'
  /-- A setting stands for what was said about it. -/
  setting : Setting.knows [name] = true → item = (said [name]).map .value
  /-- A group has its members. -/
  group : name ∈ Setting.groups → GroupTracks name (dotted name) said item item'

/-- **The tables** of a document and of what is left of it without the settings. -/
def Tracks (dotted : String → Prop) (said : List String → Option Value) (es es' : Entries) : Prop :=
  ∀ name, ItemTracks dotted said name (es.lookup name) (es'.lookup name)

/-- What is said about other keys makes no difference to a group. -/
theorem GroupTracks.congr {item item' : Option Item} (h : GroupTracks g dotted said item item')
    (hwhole : said' [g] = said [g])
    (hsaid : ∀ name, Setting.knows [g, name] = true → said' [g, name] = said [g, name]) :
    GroupTracks g dotted said' item item' := by
  cases h with
  | absent hnone h => exact .absent (hwhole.trans hnone) (h.congr hsaid)
  | braces hsome h => exact .braces (hwhole.trans hsome) (h.congr hsaid)
  | table hnone horigin h => exact .table (hwhole.trans hnone) horigin (h.congr hsaid)
  | alone hnone hdotted h => exact .alone (hwhole.trans hnone) hdotted (h.congr hsaid)

namespace Tracks

variable {dotted : String → Prop}

/-- **One item after the other**: what is done and said about one name leaves the others alone. -/
theorem of_within (h : Tracks dotted said es es')
    (hr : ∀ other, other ≠ name → r.lookup other = es.lookup other)
    (hr' : ∀ other, other ≠ name → r'.lookup other = es'.lookup other)
    (hsaid : ∀ other more, other ≠ name → said' (other :: more) = said (other :: more))
    (hitem : ItemTracks dotted said' name (r.lookup name) (r'.lookup name)) :
    Tracks dotted said' r r' := by
  intro other
  by_cases heq : other = name
  · rw [heq]
    exact hitem
  · rw [hr other heq, hr' other heq]
    refine ⟨(h other).other, fun hknown => ?_, fun hgroup => ?_⟩
    · rw [hsaid other [] heq, (h other).setting hknown]
    · exact ((h other).group hgroup).congr (hsaid other [] heq) fun name _ => hsaid other [name] heq

/-- What is said about keys that are no settings and no groups makes no difference. -/
theorem congr (h : Tracks dotted said es es')
    (hknown : ∀ key, Setting.knows key = true → said' key = said key)
    (hgroup : ∀ g ∈ Setting.groups, said' [g] = said [g]) : Tracks dotted said' es es' :=
  fun name =>
  ⟨(h name).other, fun hname => by rw [hknown _ hname, (h name).setting hname],
    fun hname => ((h name).group hname).congr (hgroup name hname) fun _ => hknown _⟩

/-- Keys that have nothing to do with settings say nothing about them. -/
theorem also_foreign (h : Tracks dotted said es es') (hpairs : ∀ pair ∈ pairs, Foreign pair.1) :
    Tracks dotted (also said pairs) es es' := by
  have hsame : ∀ key, ¬ Foreign key → also said pairs key = said key := fun key hkey =>
    also_of_forall_ne fun pair hpair heq => hkey (heq ▸ hpairs pair hpair)
  exact h.congr (fun key hknown => hsame key fun hforeign => hforeign.not_knows hknown)
    fun g hg => hsame [g] (not_foreign_group hg)

/-- **What is done along a key that has nothing to do with settings** can be done in the document as
well. -/
theorem foreign {change : Entries → Option Entries} (h : Tracks dotted said es es')
    (hkey : Foreign key) (hchange : ActsAlong key change) (hr' : change es' = some r') :
    ∃ r, change es = some r ∧ Tracks dotted said r r' := by
  cases key with
  | nil => exact absurd hkey not_foreign_nil
  | cons name more =>
    obtain ⟨act, hact, -, hinside⟩ := hchange
    simp only [hact] at hr' ⊢
    obtain ⟨item', hitem', rfl⟩ := within_eq_some.mp hr'
    have hname : Setting.knows [name] = false :=
      hkey.knows_of_leads (List.prefix_append [name] more)
    suffices hitem : ∃ item, act (es.lookup name) = some item
        ∧ ItemTracks dotted said name (some item) (some item') by
      obtain ⟨item, hitem, htracks⟩ := hitem
      refine ⟨_, within_eq_some.mpr ⟨item, hitem, rfl⟩, h.of_within
        (fun other hne => Entries.lookup_set_of_ne hne _ _)
        (fun other hne => Entries.lookup_set_of_ne hne _ _) (fun _ _ _ => rfl) ?_⟩
      rw [Entries.lookup_set_self, Entries.lookup_set_self]
      exact htracks
    by_cases hgroup : name ∈ Setting.groups
    · obtain ⟨part, rest, rfl, hpart⟩ := hkey.exists_part hgroup
      obtain ⟨headers, inner, rfl, hinner⟩ := hinside part rest rfl
      obtain ⟨item, hitem, htracks⟩ := ((h name).group hgroup).enter hpart hinner hitem'
      exact ⟨item, hitem, fun hother => absurd hgroup hother,
        fun hknown => absurd hknown (Bool.eq_false_iff.mp hname), fun _ => htracks⟩
    · refine ⟨item', ?_, fun _ _ => rfl,
        fun hknown => absurd hknown (Bool.eq_false_iff.mp hname), fun h => absurd h hgroup⟩
      rw [(h name).other hgroup hname]
      exact hitem'

/-- **A setting outside the groups is given its value.** -/
theorem give (h : Tracks dotted said es es') (hname : name ∉ Setting.groups)
    (hknown : Setting.knows [name] = true) (hnew : said [name] = none) (v : Value) :
    ∃ r, addPair es ([name], v) = some r ∧ Tracks dotted (also said [([name], v)]) r es' := by
  have hnone : es.lookup name = none := by rw [(h name).setting hknown, hnew, Option.map_none]
  refine ⟨Entries.set name (.value v) es, ?_, ?_⟩
  · rw [addPair_eq]
    exact within_eq_some.mpr ⟨.value v, by rw [hnone]; rfl, rfl⟩
  · refine h.of_within (fun other hne => Entries.lookup_set_of_ne hne _ _) (fun _ _ => rfl)
      (fun other more hne => also_singleton_of_ne (by simp [hne]) v) ?_
    refine ⟨fun _ hother => absurd hknown (Bool.eq_false_iff.mp hother), fun _ => ?_,
      fun hgroup => absurd hgroup hname⟩
    rw [Entries.lookup_set_self, also_singleton_self hnew]
    rfl

/-- **A setting in a group is given its value** by a dotted key. -/
theorem give_dotted (h : Tracks dotted said es es') (hg : g ∈ Setting.groups) (hdotted : dotted g)
    (hknown : Setting.knows [g, name] = true) (hnew : said [g, name] = none)
    (hadmits : Admits [g, name] es) (v : Value) :
    ∃ r, addPair es ([g, name], v) = some r ∧ Tracks dotted (also said [([g, name], v)]) r es' := by
  obtain ⟨item, hitem, htracks⟩ := ((h g).group hg).give hdotted hknown
    (fun i hi => (hadmits i hi).imp fun _ => And.left) hnew v
  refine ⟨Entries.set g item es, ?_, ?_⟩
  · rw [addPair_eq]
    exact within_eq_some.mpr ⟨item, hitem, rfl⟩
  · refine h.of_within (fun other hne => Entries.lookup_set_of_ne hne _ _) (fun _ _ => rfl)
      (fun other more hne => also_singleton_of_ne (by simp [hne]) v) ?_
    rw [Entries.lookup_set_self]
    exact ⟨fun hother => absurd hg hother,
      fun hknown => absurd hknown (not_knows_group hg), fun _ => htracks⟩

/-- **A group is given between braces.** -/
theorem give_braces (h : Tracks dotted said es es') (hg : g ∈ Setting.groups) (hdotted : ¬ dotted g)
    {v : Value} (hr' : addPair es' ([g], v) = some r') :
    said [g] = none
      ∧ ∃ r, addPair es ([g], v) = some r ∧ Tracks dotted (also said [([g], v)]) r r' := by
  rw [addPair_eq] at hr' ⊢
  obtain ⟨item', hitem', rfl⟩ := within_eq_some.mp hr'
  have hgroup := (h g).group hg
  cases hnone' : es'.lookup g with
  | some item =>
    rw [hnone'] at hitem'
    cases hitem'
  | none =>
    rw [hnone'] at hitem' hgroup
    obtain rfl := Option.some.inj hitem'
    generalize hnone : es.lookup g = item at hgroup
    cases hgroup with
    | alone _ h _ => exact absurd h hdotted
    | absent hsaid hinside =>
      refine ⟨hsaid, Entries.set g (.value v) es,
        within_eq_some.mpr ⟨.value v, by rw [hnone]; rfl, rfl⟩, ?_⟩
      refine h.of_within (fun other hne => Entries.lookup_set_of_ne hne _ _)
        (fun other hne => Entries.lookup_set_of_ne hne _ _)
        (fun other more hne => also_singleton_of_ne (by simp [hne]) v) ?_
      rw [Entries.lookup_set_self, Entries.lookup_set_self]
      exact ⟨fun _ _ => rfl,
        fun hknown => absurd hknown (not_knows_group hg),
        fun _ => .braces (also_singleton_self hsaid v) (hinside.congr fun name _ =>
          also_singleton_of_ne (by simp) v)⟩

/-- The key of a pair before all headers does not meet that of another setting. -/
theorem apart_of_keys {dotted : String → Prop} {other : List String}
    (hkey : Setting.knows key = true ∨ Foreign key ∨ ∃ g ∈ Setting.groups, ¬ dotted g ∧ key = [g])
    (hother : Setting.knows other = true) (hne : key ≠ other)
    (hdotted : ∀ g ∈ Setting.groups, ∀ name, other = [g, name] → dotted g) : Apart key other := by
  rcases hkey with hkey | hforeign | ⟨g, hg, hbraces, rfl⟩
  · exact Setting.apart_of_knows hkey hother hne
  · obtain ⟨k, rfl⟩ := Setting.knows_iff.mp hother
    exact hforeign k
  · rcases Setting.knows_cases hother with ⟨name, rfl, hname⟩ | ⟨other, hgroup, name, rfl⟩
    · exact apart_cons_cons_iff.mpr fun h => absurd (h ▸ hg) hname
    · exact apart_cons_cons_iff.mpr fun h => absurd (h ▸ hdotted other hgroup name rfl) hbraces

/-- **A pair before all headers** can be given if it is a setting with nothing in its way, or else
if it can be given in what is left. -/
theorem addPair (h : Tracks dotted said es es')
    (hkey : Setting.knows key = true ∨ Foreign key ∨ ∃ g ∈ Setting.groups, ¬ dotted g ∧ key = [g])
    (hdotted : ∀ g ∈ Setting.groups, ∀ name, key = [g, name] → Setting.knows [g, name] = true →
      dotted g)
    (hnew : Setting.knows key = true → said key = none)
    (hadmits : Setting.knows key = true → Admits key es) {v : Value}
    (hr' : (if !Setting.knows key then Toml.addPair es' (key, v) else some es') = some r') :
    ∃ r, Toml.addPair es (key, v) = some r ∧ Tracks dotted (also said [(key, v)]) r r'
      ∧ ∀ g ∈ Setting.groups, key = [g] → said [g] = none := by
  rcases hkey with hknown | hforeign | ⟨g, hg, hbraces, rfl⟩
  · rw [hknown] at hr'
    obtain rfl := Option.some.inj hr'
    have hgroup : ∀ g ∈ Setting.groups, key = [g] → said [g] = none := fun g hg heq =>
      absurd (heq ▸ hknown) (not_knows_group hg)
    rcases Setting.knows_cases hknown with ⟨name, rfl, hname⟩ | ⟨g, hg, name, rfl⟩
    · obtain ⟨r, hr, htracks⟩ := h.give hname hknown (hnew hknown) v
      exact ⟨r, hr, htracks, hgroup⟩
    · obtain ⟨r, hr, htracks⟩ :=
        h.give_dotted hg (hdotted g hg name rfl hknown) hknown (hnew hknown) (hadmits hknown) v
      exact ⟨r, hr, htracks, hgroup⟩
  · rw [hforeign.knows_eq_false] at hr'
    obtain ⟨r, hr, htracks⟩ := h.foreign hforeign
      (actsAlong_addPair v fun hnil => not_foreign_nil (hnil ▸ hforeign)) hr'
    exact ⟨r, hr, htracks.also_foreign (List.forall_mem_singleton.mpr hforeign),
      fun g hg heq => absurd (heq ▸ hforeign) (not_foreign_group hg)⟩
  · rw [knows_group hg] at hr'
    obtain ⟨hnone, r, hr, htracks⟩ := h.give_braces hg hbraces hr'
    refine ⟨r, hr, htracks, fun other _ heq => ?_⟩
    obtain ⟨rfl, -⟩ := List.cons_eq_cons.mp heq
    exact hnone

/-- **The pairs before all headers** can be given if those are that are left without the settings.
No group is given between braces twice. -/
theorem addPairs (h : Tracks dotted said es es')
    (hkeys : ∀ pair ∈ pairs, Setting.knows pair.1 = true ∨ Foreign pair.1
      ∨ ∃ g ∈ Setting.groups, ¬ dotted g ∧ pair.1 = [g])
    (hdotted : ∀ pair ∈ pairs, ∀ g ∈ Setting.groups, ∀ name, pair.1 = [g, name] →
      Setting.knows [g, name] = true → dotted g)
    (hnew : New said pairs)
    (hadmits : ∀ pair ∈ pairs, Setting.knows pair.1 = true → Admits pair.1 es)
    (hr' : Toml.addPairs es' (pairs.filter fun pair => !Setting.knows pair.1) = some r') :
    ∃ r, Toml.addPairs es pairs = some r ∧ Tracks dotted (also said pairs) r r'
      ∧ ∀ g ∈ Setting.groups, ∀ v, ([g], v) ∈ pairs → also said pairs [g] = some v := by
  induction pairs generalizing said es es' with
  | nil => exact ⟨es, rfl, by obtain rfl := Option.some.inj hr'; rwa [also_nil], nofun⟩
  | cons pair pairs ih =>
    obtain ⟨key, v⟩ := pair
    obtain ⟨hkey, hkeys⟩ := List.forall_mem_cons.mp hkeys
    obtain ⟨hbegins, hlater⟩ := List.forall_mem_cons.mp hdotted
    obtain ⟨hhere, hadmits⟩ := List.forall_mem_cons.mp hadmits
    obtain ⟨between', hbetween', hrest⟩ := addPairs_filter_cons.mp hr'
    obtain ⟨between, hbetween, htracks, hnone⟩ :=
      h.addPair hkey hbegins (hnew.unsaid _ List.mem_cons_self) hhere hbetween'
    have hapart : ∀ pair ∈ pairs, Setting.knows pair.1 = true → Apart key pair.1 :=
      fun pair hpair hknown => apart_of_keys hkey hknown
        ((List.pairwise_cons.mp hnew.once).1 pair hpair hknown)
        fun g hg name heq => hlater pair hpair g hg name heq (heq ▸ hknown)
    obtain ⟨r, hr, htracks, hwhole⟩ := ih htracks hkeys hlater hnew.tail
      (fun pair hpair hknown => (hadmits pair hpair hknown).of_addPair hbetween
        (hapart pair hpair hknown)) hrest
    rw [← also_cons] at htracks
    refine ⟨r, addPairs_cons_eq_some.mpr ⟨between, hbetween, hr⟩, htracks, fun g hg w hmem => ?_⟩
    rw [also_cons]
    rcases List.mem_cons.mp hmem with heq | hmem
    · cases heq
      rw [also, also_singleton_self (hnone g hg rfl)]
      rfl
    · exact hwhole g hg w hmem

/-- **The header of a group** can stand where it can stand without the settings below it. -/
theorem openGroup (h : Tracks dotted said es es') (hg : g ∈ Setting.groups) (hdotted : ¬ dotted g)
    (hkeys : ∀ pair ∈ behind [g] pairs, Setting.knows pair.1 = true ∨ Foreign pair.1)
    (hnew : New said (behind [g] pairs))
    (hr' : Toml.addTable es' [g] (pairs.filter fun pair => !Setting.knows ([g] ++ pair.1))
      = some r') :
    ∃ r, Toml.addTable es [g] pairs = some r
      ∧ Tracks dotted (also said (behind [g] pairs)) r r' := by
  rw [addTable_eq] at hr' ⊢
  obtain ⟨item', hitem', rfl⟩ := within_eq_some.mp hr'
  obtain ⟨item, hitem, htracks⟩ := ((h g).group hg).openTable hg hdotted hkeys hnew hitem'
  refine ⟨Entries.set g item es, within_eq_some.mpr ⟨item, hitem, rfl⟩, h.of_within
    (fun other hne => Entries.lookup_set_of_ne hne _ _)
    (fun other hne => Entries.lookup_set_of_ne hne _ _) (fun other more hne => ?_) ?_⟩
  · refine also_of_forall_ne fun pair hpair heq => ?_
    obtain ⟨inner, -, rfl⟩ := List.mem_map.mp hpair
    exact hne (List.cons_eq_cons.mp heq).1.symm
  · rw [Entries.lookup_set_self, Entries.lookup_set_self]
    exact ⟨fun hother => absurd hg hother,
      fun hknown => absurd hknown (not_knows_group hg), fun _ => htracks⟩

/-- **The header of a table** can stand where it can stand without the settings below it. -/
theorem addTable {header : List String} (h : Tracks dotted said es es')
    (hheader : Foreign header ∨ ∃ g ∈ Setting.groups, ¬ dotted g ∧ header = [g])
    (hkeys : ∀ pair ∈ behind header pairs, Setting.knows pair.1 = true ∨ Foreign pair.1)
    (hnew : New said (behind header pairs))
    (hr' : Toml.addTable es' header (pairs.filter fun pair => !Setting.knows (header ++ pair.1))
      = some r') :
    ∃ r, Toml.addTable es header pairs = some r
      ∧ Tracks dotted (also said (behind header pairs)) r r' := by
  rcases hheader with hforeign | ⟨g, hg, hdotted, rfl⟩
  · rw [hforeign.filter_eq] at hr'
    obtain ⟨r, hr, htracks⟩ := h.foreign hforeign
      (actsAlong_addTable _ fun hnil => not_foreign_nil (hnil ▸ hforeign)) hr'
    exact ⟨r, hr, htracks.also_foreign (hforeign.behind _)⟩
  · exact h.openGroup hg hdotted hkeys hnew hr'

/-- **The header of one more table of an array** can stand where it can stand in what is left. -/
theorem addElement {header : List String} (h : Tracks dotted said es es') (hheader : Foreign header)
    (hr' : Toml.addElement es' header (pairs.filter fun pair => !Setting.knows (header ++ pair.1))
      = some r') :
    ∃ r, Toml.addElement es header pairs = some r
      ∧ Tracks dotted (also said (behind header pairs)) r r' := by
  rw [hheader.filter_eq] at hr'
  obtain ⟨r, hr, htracks⟩ := h.foreign hheader
    (actsAlong_addElement _ fun hnil => not_foreign_nil (hnil ▸ hheader)) hr'
  exact ⟨r, hr, htracks.also_foreign (hheader.behind _)⟩

variable {statements : List Statement}

/-- **The statements behind the first header** can stand where those stand that are left without the
settings. -/
theorem assemble {header : List String} (h : Tracks dotted said es es')
    (htables : ∀ header, .table header ∈ statements → Foreign header
      ∨ ∃ g ∈ Setting.groups, ¬ dotted g ∧ header = [g])
    (helements : ∀ header, .element header ∈ statements → Foreign header)
    (hkeys : ∀ pair ∈ below statements, Setting.knows pair.1 = true ∨ Foreign pair.1)
    (hnew : New said (below statements))
    (hr' : Toml.assemble es' (othersBelow header statements) = some r') :
    ∃ r, Toml.assemble es statements = some r
      ∧ Tracks dotted (also said (below statements)) r r' := by
  induction statements generalizing header said es es' with
  | nil => exact ⟨es, rfl, by obtain rfl := Option.some.inj hr'; rwa [below, also_nil]⟩
  | cons statement more ih =>
    have htables' := fun header hmem => htables header (List.mem_cons_of_mem _ hmem)
    have helements' := fun header hmem => helements header (List.mem_cons_of_mem _ hmem)
    -- What is behind a header goes on from there.
    have hfinish : ∀ {header between between'},
        below (statement :: more) = behind header (leadingPairs more) ++ below more →
        Tracks dotted (also said (behind header (leadingPairs more))) between between' →
        Toml.assemble between' (othersBelow header more) = some r' →
        ∃ r, Toml.assemble between more = some r
          ∧ Tracks dotted (also said (below (statement :: more))) r r' := by
      intro header between between' hbelow htracks hrest
      rw [hbelow] at hkeys hnew ⊢
      rw [also_append]
      exact ih htracks htables' helements' (List.forall_mem_append.mp hkeys).2 hnew.right hrest
    cases statement with
    | pair key v =>
      rw [othersBelow] at hr'
      split at hr'
      · exact ih h htables' helements' hkeys hnew hr'
      · exact ih h htables' helements' hkeys hnew hr'
    | table header =>
      obtain ⟨between', hadd', hrest⟩ := Option.bind_eq_some_iff.mp hr'
      rw [leadingPairs_othersBelow] at hadd'
      obtain ⟨between, hadd, htracks⟩ := h.addTable (htables header List.mem_cons_self)
        (List.forall_mem_append.mp hkeys).1 hnew.left hadd'
      obtain ⟨r, hr, htracks⟩ := hfinish rfl htracks hrest
      exact ⟨r, Option.bind_eq_some_iff.mpr ⟨between, hadd, hr⟩, htracks⟩
    | element header =>
      obtain ⟨between', hadd', hrest⟩ := Option.bind_eq_some_iff.mp hr'
      rw [leadingPairs_othersBelow] at hadd'
      obtain ⟨between, hadd, htracks⟩ := h.addElement (helements header List.mem_cons_self) hadd'
      obtain ⟨r, hr, htracks⟩ := hfinish rfl htracks hrest
      exact ⟨r, Option.bind_eq_some_iff.mpr ⟨between, hadd, hr⟩, htracks⟩

end Tracks

/-! ## The document -/

section Writes

variable {statements : List Statement} {a : Assignment} (h : Writes statements a)
include h

/-- The groups that dotted keys of settings begin. -/
def Dotted (statements : List Statement) (g : String) : Prop :=
  ∃ pair ∈ leadingPairs statements, ∃ name, pair.1 = [g, name] ∧ Setting.knows [g, name] = true

/-- **A document that writes settings makes a table**, in which settings stand for what was said
about them. -/
theorem Writes.exists_assembled :
    ∃ es es', assembled statements = some es
      ∧ Tracks (Dotted statements) (fun key => (stated statements).lookup key) es es'
      ∧ ∀ g ∈ Setting.groups, ∀ v, ([g], v) ∈ stated statements →
        (stated statements).lookup [g] = some v := by
  have hnew : New (fun _ => none) (stated statements) := ⟨fun _ _ _ => rfl, h.once⟩
  obtain ⟨es', hothers⟩ := Option.isSome_iff_exists.mp h.others
  obtain ⟨start', hstart', hrest'⟩ := Option.bind_eq_some_iff.mp hothers
  rw [leadingPairs_othersBelow] at hstart'
  have hone : ∀ g ∈ Setting.groups, Dotted statements g →
      .table [g] ∉ statements ∧ ∀ v, ([g], v) ∉ leadingPairs statements := by
    rintro g hg ⟨pair, hpair, name, heq, hknown⟩
    exact h.one_way g hg pair hpair name heq hknown
  have hkeys : ∀ pair ∈ leadingPairs statements, Setting.knows pair.1 = true ∨ Foreign pair.1
      ∨ ∃ g ∈ Setting.groups, ¬ Dotted statements g ∧ pair.1 = [g] := by
    intro pair hpair
    refine (h.keys pair hpair).imp_right (Or.imp_right ?_)
    rintro ⟨g, hg, members, rfl⟩
    exact ⟨g, hg, fun hdotted => (hone g hg hdotted).2 _ hpair, rfl⟩
  have htables : ∀ header, .table header ∈ statements → Foreign header
      ∨ ∃ g ∈ Setting.groups, ¬ Dotted statements g ∧ header = [g] := by
    intro header hmem
    refine (h.tables header hmem).imp_right ?_
    rintro ⟨g, hg, rfl⟩
    exact ⟨g, hg, fun hdotted => (hone g hg hdotted).1 hmem, rfl⟩
  have hbegin : Tracks (Dotted statements) (fun _ => none) [] [] := fun name =>
    ⟨fun _ _ => rfl, fun _ => rfl, fun _ => .absent rfl ⟨fun _ _ => rfl, fun _ _ => rfl⟩⟩
  obtain ⟨start, hstart, htracks, hwhole⟩ := hbegin.addPairs hkeys
    (fun pair hpair g _ name heq hknown => ⟨pair, hpair, name, heq, hknown⟩)
    hnew.left (fun pair _ hknown => admits_nil (ne_nil_of_knows hknown)) hstart'
  obtain ⟨es, hes, htracks⟩ :=
    htracks.assemble htables h.elements h.keys_below hnew.right hrest'
  rw [← also_append] at htracks
  refine ⟨es, es', Option.bind_eq_some_iff.mpr ⟨start, hstart, hes⟩, htracks, fun g hg v hmem => ?_⟩
  rcases List.mem_append.mp hmem with hmem | hmem
  · have hlookup : (leadingPairs statements).lookup [g] = some v := hwhole g hg v hmem
    rw [stated, List.lookup_append, hlookup]
    rfl
  · rcases h.keys_below _ hmem with hknown | hforeign
    · exact absurd hknown (not_knows_group hg)
    · exact absurd hforeign (not_foreign_group hg)

/-- What a table says about the settings of a group. -/
inductive GroupSays (g : String) (a : Assignment) : Option Value → Prop where
  /-- There is no group, and no setting of it is given. -/
  | absent (h : ∀ k : Setting, ∀ name, k.path = [g, name] → a.value? k = none) :
    GroupSays g a none
  /-- The settings that are given are members of the group. -/
  | members {members : List (String × Value)}
    (h : ∀ k : Setting, ∀ name, k.path = [g, name] → members.lookup name = a.value? k) :
    GroupSays g a (some (.table members))

/-- **What stands for a group says its settings** when all is said. -/
theorem Writes.groupSays (hg : g ∈ Setting.groups) {item item' : Option Item}
    (hgroup : GroupTracks g dotted (fun key => (stated statements).lookup key) item item')
    (hwhole : ∀ v, ([g], v) ∈ stated statements → (stated statements).lookup [g] = some v) :
    GroupSays g a (item.map Item.finish) := by
  -- A group that is no value says what is stated of its settings.
  have hstated : (stated statements).lookup [g] = none → ∀ k : Setting, ∀ name,
      k.path = [g, name] → (stated statements).lookup [g, name] = a.value? k := by
    intro hnone k name hpath
    rw [← hpath]
    refine h.lookup_eq k fun other _ heq v hmem => ?_
    obtain ⟨rfl, -⟩ := List.cons_eq_cons.mp (hpath.symm.trans heq)
    rw [hwhole v hmem] at hnone
    cases hnone
  have htable : ∀ {origin : Origin} {inner inner' : Entries},
      (stated statements).lookup [g] = none →
      TracksInside g (fun key => (stated statements).lookup key) inner inner' →
      GroupSays g a ((some (Item.table origin inner)).map Item.finish) := by
    intro origin inner inner' hnone hinside
    refine .members fun k name hpath => ?_
    rw [lookup_finishEntries, hinside.setting name (Setting.knows_iff.mpr ⟨k, hpath⟩),
      hstated hnone k name hpath]
    cases a.value? k <;> rfl
  have hnothing : TracksInside g (fun key => (stated statements).lookup key) [] [] →
      ∀ k : Setting, ∀ name, k.path = [g, name] → (stated statements).lookup [g, name] = none := by
    intro hinside k name hpath
    exact Option.map_eq_none_iff.mp (hinside.setting name (Setting.knows_iff.mpr ⟨k, hpath⟩)).symm
  cases hgroup with
  | absent hnone hinside =>
    exact .absent fun k name hpath =>
      (hstated hnone k name hpath).symm.trans (hnothing hinside k name hpath)
  | @braces v hsome hinside =>
    have hmem : ([g], v) ∈ stated statements := by
      obtain ⟨before, behind, heq, -⟩ := List.lookup_eq_some_iff.mp hsome
      simp [heq]
    obtain ⟨members, rfl⟩ := h.exists_table hg hmem
    refine .members fun k name hpath => h.lookup_member hg hpath hmem (fun w hw => ?_)
      (hnothing hinside k name hpath)
    exact Option.some.inj ((hwhole w hw).symm.trans hsome)
  | table hnone _ hinside => exact htable hnone hinside
  | alone hnone _ hinside => exact htable hnone hinside

/-- **The table of a document that writes settings says them**, each in its place. -/
theorem Writes.exists_says :
    ∃ es, assembled statements = some es
      ∧ (∀ k : Setting, ∀ name, k.path = [name] → (finishEntries es).lookup name = a.value? k)
      ∧ ∀ g ∈ Setting.groups, GroupSays g a ((finishEntries es).lookup g) := by
  obtain ⟨es, es', hes, htracks, hwhole⟩ := h.exists_assembled
  refine ⟨es, hes, fun k name hpath => ?_, fun g hg => ?_⟩
  · have hlookup := h.lookup_eq k fun g other heq => by simp [hpath] at heq
    rw [lookup_finishEntries, (htracks name).setting (Setting.knows_iff.mpr ⟨k, hpath⟩), ← hpath,
      hlookup]
    cases a.value? k <;> rfl
  · rw [lookup_finishEntries]
    exact h.groupSays hg ((htracks g).group hg) (hwhole g hg)

end Writes

end SchemaTypings
