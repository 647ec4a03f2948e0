import SchemaTypings.Proofs.Toml.Grammar

/-!
# Building TOML tables

What a pair or a header does to a table under construction is done to one item of it, that of the
first part of its key: every other item stays. `within` changes one item, `enter` goes into the
table that an item is, and the three operations of the reader are these two along a key
(`addPair_eq`, `addTable_eq`, `addElement_eq`).

A key can be given a value if nothing stands in its way (`Admits`): where its tables are begun,
dotted keys began them, and the key itself is new. Keys that do not meet leave this as it is
(`Admits.of_addPair`), so keys of which no two meet can all be given in any order
(`exists_addPairs`).
-/

namespace SchemaTypings.Toml

variable {es es' begun : Entries} {name other : String} {key more path : List String} {v : Value}

/-! ## Entries -/

@[simp] theorem Entries.lookup_set_self (name : String) (item : Item) (es : Entries) :
    (Entries.set name item es).lookup name = some item := by
  induction es with
  | nil => exact List.lookup_cons_self
  | cons entry es ih =>
    rw [Entries.set]
    split
    · rename_i h
      rw [h]
      exact List.lookup_cons_self
    · rename_i h
      rw [List.lookup_cons, beq_false_of_ne (Ne.symm h)]
      exact ih

theorem Entries.lookup_set_of_ne (h : other ≠ name) (item : Item) (es : Entries) :
    (Entries.set name item es).lookup other = es.lookup other := by
  induction es with
  | nil => rw [Entries.set, List.lookup_cons, beq_false_of_ne h]
  | cons entry es ih =>
    rw [Entries.set]
    split
    · rename_i hk
      rw [List.lookup_cons, List.lookup_cons, hk, beq_false_of_ne h]
    · rw [List.lookup_cons, List.lookup_cons, ih]

/-- A finished table has the items of the table, finished. -/
theorem lookup_finishEntries (name : String) (es : Entries) :
    (finishEntries es).lookup name = (es.lookup name).map Item.finish := by
  induction es with
  | nil => rfl
  | cons entry es ih =>
    rw [finishEntries, List.lookup_cons, List.lookup_cons]
    split
    · rfl
    · exact ih

/-! ## Changing one item -/

/-- **Changing the item of one name.** -/
def within (name : String) (change : Option Item → Option Item) (es : Entries) : Option Entries :=
  (change (es.lookup name)).map fun item => Entries.set name item es

theorem within_eq_some {change : Option Item → Option Item} :
    within name change es = some es'
      ↔ ∃ item, change (es.lookup name) = some item ∧ es' = Entries.set name item es := by
  rw [within, Option.map_eq_some_iff]
  exact exists_congr fun item => and_congr_right fun _ => eq_comm

/-- **Other items stay.** -/
theorem lookup_of_within {change : Option Item → Option Item} (h : within name change es = some es')
    (hne : other ≠ name) : es'.lookup other = es.lookup other := by
  obtain ⟨item, -, rfl⟩ := within_eq_some.mp h
  exact Entries.lookup_set_of_ne hne item es

/-- **Going into the table that an item is**, which is begun where there is none. -/
def enter (dotted : Bool) (change : Origin → Entries → Option Entries) : Option Item → Option Item
  | none =>
    let origin := if dotted then Origin.dotted else .implied
    (change origin []).map (.table origin ·)
  | some (.value _) => none
  | some (.table origin inner) =>
    if dotted ∧ origin = .header then none else (change origin inner).map (.table origin ·)
  | some (.tables elements) => do
    let last ← elements.getLast?
    (change .header last).map fun last => .tables (elements.dropLast ++ [last])

theorem alter_cons (dotted : Bool) (change : Origin → Entries → Option Entries) (name : String)
    (path : List String) (origin : Origin) (es : Entries) :
    alter dotted change (name :: path) origin es
      = within name (enter dotted (alter dotted change path)) es := by
  rw [alter, within]
  cases es.lookup name with
  | none =>
    simp only [enter, Option.map_map]
    cases alter dotted change path (if dotted then Origin.dotted else .implied) [] <;> rfl
  | some item =>
    cases item with
    | value v => rfl
    | table origin inner =>
      simp only [enter]
      split
      · rfl
      · cases alter dotted change path origin inner <;> rfl
    | tables elements =>
      simp only [enter]
      cases elements.getLast? with
      | none => rfl
      | some last =>
        simp only [Option.bind_eq_bind, Option.bind_some, Option.map_map]
        cases alter dotted change path .header last <;> rfl

/-- A value for what has none. -/
def fresh (v : Value) : Option Item → Option Item
  | none => some (.value v)
  | some _ => none

/-- **Giving a key its value** in a table that dotted keys began. -/
def sow (v : Value) : List String → Origin → Entries → Option Entries
  | [], _, _ => none
  | [name], origin, es => if origin = .dotted then within name (fresh v) es else none
  | name :: part :: more, _, es => within name (enter true (sow v (part :: more))) es

/-- **Changing the item of a key**, along headers. -/
def descend (change : Option Item → Option Item) : List String → Entries → Option Entries
  | [], _ => none
  | [name], es => within name change es
  | name :: part :: more, es =>
    within name (enter false fun _ => descend change (part :: more)) es

/-- A table with a header, in place of what there was. -/
def openTable (pairs : List (List String × Value)) : Option Item → Option Item
  | none => (addPairs [] pairs).map (.table .header ·)
  | some (.table .implied begun) => (addPairs begun pairs).map (.table .header ·)
  | some _ => none

/-- One more table of an array of tables. -/
def openElement (pairs : List (List String × Value)) : Option Item → Option Item
  | none => (addPairs [] pairs).map fun last => .tables [last]
  | some (.tables elements) => (addPairs [] pairs).map fun last => .tables (elements ++ [last])
  | some _ => none

theorem splitKey_concat (path : List String) (name : String) :
    splitKey (path ++ [name]) = some (path, name) := by
  rw [splitKey, List.getLast?_concat, List.dropLast_concat]
  rfl

theorem sow_concat_eq (v : Value) (path : List String) (name : String) (origin : Origin)
    (es : Entries) :
    sow v (path ++ [name]) origin es
      = alter true
          (fun origin inner => if origin = .dotted then within name (fresh v) inner else none)
          path origin es := by
  induction path generalizing origin es with
  | nil => rfl
  | cons first path ih =>
    rw [alter_cons, ← funext fun origin => funext (ih origin)]
    cases path <;> rfl

theorem descend_concat_eq (change : Option Item → Option Item) (path : List String) (name : String)
    (origin : Origin) (es : Entries) :
    descend change (path ++ [name]) es
      = alter false (fun _ => within name change) path origin es := by
  induction path generalizing origin es with
  | nil => rfl
  | cons first path ih =>
    rw [alter_cons, ← funext fun origin => funext (ih origin)]
    cases path <;> rfl

/-- **What a pair does.** -/
theorem addPair_eq (es : Entries) (key : List String) (v : Value) :
    addPair es (key, v) = sow v key .dotted es := by
  rcases List.eq_nil_or_concat key with rfl | ⟨path, name, rfl⟩
  · rfl
  · rw [List.concat_eq_append, sow_concat_eq, addPair, splitKey_concat]
    have hfresh : ∀ inner : Entries, within name (fresh v) inner
        = if (inner.lookup name).isSome then none
          else some (Entries.set name (.value v) inner) := by
      intro inner
      rw [within]
      cases inner.lookup name <;> rfl
    cases path with
    | nil =>
      show (if Origin.header = .dotted ↔ ([] : List String) = [] then none
        else if (es.lookup name).isSome then none else some (Entries.set name (.value v) es)) = _
      rw [if_neg (by decide), ← hfresh]
      rfl
    | cons first path =>
      show alter true _ (first :: path) .header es = alter true _ (first :: path) .dotted es
      rw [alter_cons, alter_cons]
      congr 4
      funext origin inner
      rw [hfresh]
      by_cases horigin : origin = .dotted
      · rw [if_pos horigin, if_neg fun h => List.cons_ne_nil _ _ (h.mp horigin)]
      · rw [if_neg horigin, if_pos (iff_of_false horigin (List.cons_ne_nil _ _))]

/-- **What the header of a table does**, with the pairs below it. -/
theorem addTable_eq (es : Entries) (key : List String) (pairs : List (List String × Value)) :
    addTable es key pairs = descend (openTable pairs) key es := by
  rcases List.eq_nil_or_concat key with rfl | ⟨path, name, rfl⟩
  · rfl
  · rw [List.concat_eq_append, descend_concat_eq _ _ _ .header, addTable, splitKey_concat]
    show alter false _ path .header es = _
    congr 1
    funext origin inner
    rw [within]
    rcases inner.lookup name with _ | ⟨w⟩ | ⟨_ | _ | _, begun⟩ | elements
    · cases h : addPairs [] pairs <;> simp [openTable, h]
    · rfl
    · rfl
    · cases h : addPairs begun pairs <;> simp [openTable, h]
    · rfl
    · rfl

/-- **What the header of one more table of an array does**, with the pairs below it. -/
theorem addElement_eq (es : Entries) (key : List String) (pairs : List (List String × Value)) :
    addElement es key pairs = descend (openElement pairs) key es := by
  rcases List.eq_nil_or_concat key with rfl | ⟨path, name, rfl⟩
  · rfl
  · rw [List.concat_eq_append, descend_concat_eq _ _ _ .header, addElement, splitKey_concat]
    show alter false _ path .header es = _
    congr 1
    funext origin inner
    rw [within]
    rcases inner.lookup name with _ | ⟨w⟩ | ⟨_ | _ | _, begun⟩ | elements
    · cases h : addPairs [] pairs <;> simp [openElement, h]
    · rfl
    · rfl
    · rfl
    · rfl
    · cases h : addPairs [] pairs <;> simp [openElement, h]

/-! ## Keys that do not meet -/

theorem Apart.symm (h : Apart key path) : Apart path key :=
  And.symm h

theorem Apart.ne_nil (h : Apart key path) : key ≠ [] := by
  rintro rfl
  exact h.1 List.nil_prefix

/-- The first parts of keys that do not meet are the same only if more follows in both. -/
theorem apart_cons_cons_iff :
    Apart (name :: key) (other :: path) ↔ (name = other → Apart key path) := by
  rw [Apart, Apart, List.cons_prefix_cons, List.cons_prefix_cons, eq_comm (a := other), ← not_or,
    ← not_or, ← and_or_left, not_and]

/-- What is below a key that does not meet another does not meet it either. -/
theorem Apart.append_left (h : Apart key path) (more : List String) : Apart (key ++ more) path :=
  ⟨fun hleads => h.1 ((List.prefix_append key more).trans hleads), fun hleads =>
    (List.prefix_or_prefix_of_prefix hleads (List.prefix_append key more)).elim h.2 h.1⟩

/-! ## Keys that can be given -/

/-- **Nothing stands in the way of a key**: dotted keys began the tables on its way that there are,
and it is new itself. -/
def Admits : List String → Entries → Prop
  | [], _ => False
  | [name], es => es.lookup name = none
  | name :: part :: more, es =>
    ∀ item ∈ es.lookup name, ∃ inner, item = .table .dotted inner ∧ Admits (part :: more) inner

/-- At the beginning there is nothing in the way. -/
theorem admits_nil (h : key ≠ []) : Admits key [] := by
  match key with
  | [name] => exact rfl
  | name :: part :: more => exact nofun

theorem Admits.exists_sow (h : Admits key es) (v : Value) :
    ∃ es', sow v key .dotted es = some es' := by
  induction key generalizing es with
  | nil => exact h.elim
  | cons name more ih =>
    cases more with
    | nil =>
      have hnew : es.lookup name = none := h
      exact ⟨_, by rw [sow, if_pos rfl, within, hnew]; rfl⟩
    | cons part more =>
      cases hitem : es.lookup name with
      | none =>
        obtain ⟨inner, hinner⟩ := ih (admits_nil (List.cons_ne_nil part more))
        exact ⟨_, by rw [sow, within, hitem, enter, if_pos rfl, hinner]; rfl⟩
      | some item =>
        obtain ⟨begun, rfl, hbegun⟩ := h item hitem
        obtain ⟨inner, hinner⟩ := ih hbegun
        exact ⟨_, by rw [sow, within, hitem, enter, if_neg (by decide), hinner]; rfl⟩

/-- **Nothing stands in the way of giving a key its value.** -/
theorem Admits.exists_addPair (h : Admits key es) (v : Value) :
    ∃ es', addPair es (key, v) = some es' := by
  rw [addPair_eq]
  exact h.exists_sow v

/-- What is entered by dotted keys stays a table that dotted keys began. -/
theorem enter_true_dotted {change : Origin → Entries → Option Entries} {item : Item}
    (h : enter true change (some (.table .dotted begun)) = some item) :
    ∃ inner, item = .table .dotted inner ∧ change .dotted begun = some inner := by
  rw [enter, if_neg (by decide)] at h
  obtain ⟨inner, hinner, rfl⟩ := Option.map_eq_some_iff.mp h
  exact ⟨inner, rfl, hinner⟩

theorem enter_true_none {change : Origin → Entries → Option Entries} {item : Item}
    (h : enter true change none = some item) :
    ∃ inner, item = .table .dotted inner ∧ change .dotted [] = some inner := by
  obtain ⟨inner, hinner, rfl⟩ := Option.map_eq_some_iff.mp h
  exact ⟨inner, rfl, hinner⟩

theorem lookup_of_sow {origin : Origin} (h : sow v (name :: more) origin es = some es')
    (hne : other ≠ name) : es'.lookup other = es.lookup other := by
  cases more with
  | nil =>
    rw [sow] at h
    split at h
    · exact lookup_of_within h hne
    · cases h
  | cons part more => exact lookup_of_within h hne

/-- Only the item of its first part can stand in the way of a key. -/
theorem Admits.congr (h : Admits (name :: more) es) (heq : es'.lookup name = es.lookup name) :
    Admits (name :: more) es' := by
  cases more with
  | nil => exact heq.trans h
  | cons part more => exact fun item hitem => h item (heq ▸ hitem)

theorem Admits.of_sow {origin : Origin} (h : Admits path es) (hsow : sow v key origin es = some es')
    (hapart : Apart key path) : Admits path es' := by
  induction key generalizing path origin es es' with
  | nil => cases hsow
  | cons name key ih =>
    obtain ⟨first, path, rfl⟩ := List.exists_cons_of_ne_nil hapart.symm.ne_nil
    by_cases hsame : first = name
    · subst hsame
      have hbelow := apart_cons_cons_iff.mp hapart rfl
      obtain ⟨part, key, rfl⟩ := List.exists_cons_of_ne_nil hbelow.ne_nil
      obtain ⟨part', path, rfl⟩ := List.exists_cons_of_ne_nil hbelow.symm.ne_nil
      obtain ⟨item, hitem, rfl⟩ := within_eq_some.mp hsow
      rintro _ hmem
      rw [Entries.lookup_set_self] at hmem
      obtain rfl := Option.some.inj hmem
      cases hbegun : es.lookup first with
      | none =>
        rw [hbegun] at hitem
        obtain ⟨inner, rfl, hinner⟩ := enter_true_none hitem
        exact ⟨inner, rfl, ih (admits_nil (List.cons_ne_nil _ _)) hinner hbelow⟩
      | some begun =>
        obtain ⟨begun, rfl, hadmits⟩ := h _ hbegun
        rw [hbegun] at hitem
        obtain ⟨inner, rfl, hinner⟩ := enter_true_dotted hitem
        exact ⟨inner, rfl, ih hadmits hinner hbelow⟩
    · exact h.congr (lookup_of_sow hsow hsame)

/-- **A pair puts nothing in the way** of a key that does not meet its own. -/
theorem Admits.of_addPair (h : Admits path es) (hadd : addPair es (key, v) = some es')
    (hapart : Apart key path) : Admits path es' := by
  rw [addPair_eq] at hadd
  exact h.of_sow hadd hapart

theorem addPairs_cons_eq_some {pair : List String × Value} {pairs : List (List String × Value)} :
    addPairs es (pair :: pairs) = some es'
      ↔ ∃ between, addPair es pair = some between ∧ addPairs between pairs = some es' := by
  rw [addPairs, List.foldlM_cons]
  exact Option.bind_eq_some_iff

/-- Where some pairs are left out, each is added or leaves the table as it is. -/
theorem addPairs_filter_cons {keep : List String × Value → Bool} {pair : List String × Value}
    {pairs : List (List String × Value)} :
    addPairs es ((pair :: pairs).filter keep) = some es'
      ↔ ∃ between, (if keep pair then addPair es pair else some es) = some between
        ∧ addPairs between (pairs.filter keep) = some es' := by
  rw [List.filter_cons]
  split
  · exact addPairs_cons_eq_some
  · simp only [Option.some.injEq, exists_eq_left']

/-- **Keys of which no two meet can all be given**, if nothing else stands in their way. -/
theorem exists_addPairs {pairs : List (List String × Value)}
    (hadmits : ∀ pair ∈ pairs, Admits pair.1 es) (hapart : (pairs.map Prod.fst).Pairwise Apart) :
    ∃ es', addPairs es pairs = some es' := by
  induction pairs generalizing es with
  | nil => exact ⟨es, rfl⟩
  | cons pair pairs ih =>
    obtain ⟨hpair, hrest⟩ := List.forall_mem_cons.mp hadmits
    obtain ⟨hfirst, hapart⟩ := List.pairwise_cons.mp hapart
    obtain ⟨between, hbetween⟩ := hpair.exists_addPair pair.2
    obtain ⟨es', hes'⟩ := ih (fun other hother =>
      (hrest other hother).of_addPair hbetween (hfirst _ (List.mem_map_of_mem hother))) hapart
    exact ⟨es', addPairs_cons_eq_some.mpr ⟨between, hbetween, hes'⟩⟩

/-! ## What is done to one item -/

/-- **A change of one item of a table.** What is done to a table that headers of tables inside it
began is also done to one that dotted keys began. -/
def ActsInside (part : String) (change : Origin → Entries → Option Entries) : Prop :=
  ∃ act : Origin → Option Item → Option Item,
    (∀ origin es, change origin es = within part (act origin) es)
      ∧ ∀ item result, act .implied item = some result → act .dotted item = some result

/-- **A change along a key**: of the item of its first part, which is no value, and if there are
more parts of one item in the table that it is. -/
def ActsAlong : List String → (Entries → Option Entries) → Prop
  | [], _ => False
  | name :: more, change =>
    ∃ act : Option Item → Option Item, (∀ es, change es = within name act es)
      ∧ (∀ v, act (some (.value v)) = none)
      ∧ ∀ part rest, more = part :: rest →
        ∃ dotted inner, act = enter dotted inner ∧ ActsInside part inner

theorem actsInside_sow (v : Value) (part : String) (more : List String) :
    ActsInside part (sow v (part :: more)) := by
  cases more with
  | nil =>
    refine ⟨fun origin item => if origin = .dotted then fresh v item else none, fun origin es => ?_,
      fun item result h => ?_⟩
    · cases origin <;> rfl
    · have hnone : none = some result := h
      cases hnone
  | cons next more =>
    exact ⟨fun _ => enter true (sow v (next :: more)), fun _ _ => rfl, fun _ _ => id⟩

theorem actsInside_descend (change : Option Item → Option Item) (part : String)
    (more : List String) : ActsInside part fun _ => descend change (part :: more) := by
  cases more with
  | nil => exact ⟨fun _ => change, fun _ _ => rfl, fun _ _ => id⟩
  | cons next more =>
    exact ⟨fun _ => enter false fun _ => descend change (next :: more), fun _ _ => rfl,
      fun _ _ => id⟩

/-- **A pair acts along its key.** -/
theorem actsAlong_addPair (v : Value) (hkey : key ≠ []) :
    ActsAlong key fun es => addPair es (key, v) := by
  simp only [addPair_eq]
  match key with
  | [name] =>
    exact ⟨fresh v, fun _ => rfl, fun _ => rfl, nofun⟩
  | name :: part :: more =>
    refine ⟨enter true (sow v (part :: more)), fun _ => rfl, fun _ => rfl, ?_⟩
    rintro _ _ ⟨⟩
    exact ⟨_, _, rfl, actsInside_sow v part more⟩

theorem actsAlong_descend {change : Option Item → Option Item} (hkey : key ≠ [])
    (hchange : ∀ v, change (some (.value v)) = none) : ActsAlong key (descend change key) := by
  match key with
  | [name] => exact ⟨change, fun _ => rfl, hchange, nofun⟩
  | name :: part :: more =>
    refine ⟨enter false fun _ => descend change (part :: more), fun _ => rfl, fun _ => rfl, ?_⟩
    rintro _ _ ⟨⟩
    exact ⟨_, _, rfl, actsInside_descend change part more⟩

/-- **The header of a table acts along its key.** -/
theorem actsAlong_addTable (pairs : List (List String × Value)) (hkey : key ≠ []) :
    ActsAlong key fun es => addTable es key pairs := by
  simp only [addTable_eq]
  exact actsAlong_descend hkey fun _ => rfl

/-- **The header of one more table of an array acts along its key.** -/
theorem actsAlong_addElement (pairs : List (List String × Value)) (hkey : key ≠ []) :
    ActsAlong key fun es => addElement es key pairs := by
  simp only [addElement_eq]
  exact actsAlong_descend hkey fun _ => rfl

end SchemaTypings.Toml
