import SchemaTypings.Toml.Value

/-!
# Tables under construction

A table of a document is written in pieces: by a header of its own, by the header of a table
inside it, by dotted keys. Which pieces may meet depends on how a table came about, so this
is kept until the document is complete.

* A key is given once.
* A table has at most one header. The header may come after those of tables inside it.
* Dotted keys may add to a table that dotted keys began, in the same place, and to no other.
* An array of tables is only ever added to by headers of its own; below it, a path goes on
  in its last table.
-/

namespace SchemaTypings.Toml

/-- **How a table came about.** -/
inductive Origin where
  /-- By a header of its own. -/
  | header
  /-- By the header of a table inside it. -/
  | implied
  /-- By a dotted key. -/
  | dotted
deriving DecidableEq, Repr

/-- **What a key stands for** while the document is read. -/
inductive Item where
  /-- A value. -/
  | value (value : Value)
  /-- A table that more may be added to. -/
  | table (origin : Origin) (entries : List (String × Item))
  /-- An array of tables, each with a header. -/
  | tables (elements : List (List (String × Item)))
deriving Repr

/-- The entries of a table under construction. -/
abbrev Entries := List (String × Item)

namespace Entries

/-- Entries with one key set: its item changes in place, and a new one comes last. -/
def set (key : String) (item : Item) : Entries → Entries
  | [] => [(key, item)]
  | (k, i) :: es => if k = key then (k, item) :: es else (k, i) :: set key item es

end Entries

/-- **Changing a table along a path.** The tables on the way are begun where there are none,
by dotted keys if `dotted` holds and by a header otherwise. A value cannot be entered, and
dotted keys cannot enter a table that has a header. -/
def alter (dotted : Bool) (change : Origin → Entries → Option Entries) :
    List String → Origin → Entries → Option Entries
  | [], origin, es => change origin es
  | key :: path, _, es =>
    match es.lookup key with
    | none => do
      let origin := if dotted then Origin.dotted else .implied
      let inner ← alter dotted change path origin []
      return Entries.set key (.table origin inner) es
    | some (.value _) => none
    | some (.table origin inner) =>
      if dotted ∧ origin = .header then none
      else do
        let inner ← alter dotted change path origin inner
        return Entries.set key (.table origin inner) es
    | some (.tables elements) => do
      let last ← elements.getLast?
      let last ← alter dotted change path .header last
      return Entries.set key (.tables (elements.dropLast ++ [last])) es

/-- A key and the path to the table it belongs to; a key has at least one part. -/
def splitKey (key : List String) : Option (List String × String) :=
  key.getLast?.map (key.dropLast, ·)

/-- **Giving a key a value**, in a table with a header or between braces. The last part of the
key must be new, and a dotted key must end in a table that dotted keys began. -/
def addPair (es : Entries) (pair : List String × Value) : Option Entries := do
  let (path, name) ← splitKey pair.1
  alter true (fun origin inner =>
    if origin = .dotted ↔ path = [] then none
    else if (inner.lookup name).isSome then none
    else some (Entries.set name (.value pair.2) inner)) path .header es

/-- Gives several keys their values. -/
def addPairs (es : Entries) (pairs : List (List String × Value)) : Option Entries :=
  pairs.foldlM addPair es

/-- **A table with a header**, and the pairs below the header. -/
def addTable (es : Entries) (key : List String) (pairs : List (List String × Value)) :
    Option Entries := do
  let (path, name) ← splitKey key
  alter false (fun _ inner => do
    let start ←
      match inner.lookup name with
      | none => some []
      | some (.table .implied begun) => some begun
      | some _ => none
    return Entries.set name (.table .header (← addPairs start pairs)) inner) path .header es

/-- **One more table of an array of tables**, and the pairs below its header. -/
def addElement (es : Entries) (key : List String) (pairs : List (List String × Value)) :
    Option Entries := do
  let (path, name) ← splitKey key
  alter false (fun _ inner => do
    let before ←
      match inner.lookup name with
      | none => some []
      | some (.tables elements) => some elements
      | some _ => none
    return Entries.set name (.tables (before ++ [← addPairs [] pairs])) inner) path .header es

/-! ## Finished tables -/

mutual

/-- The value of an item, once the document is complete. -/
def Item.finish : Item → Value
  | .value v => v
  | .table _ entries => .table (finishEntries entries)
  | .tables elements => .array (finishTables elements)

/-- The members of a table, once the document is complete. -/
def finishEntries : List (String × Item) → List (String × Value)
  | [] => []
  | (key, item) :: es => (key, item.finish) :: finishEntries es

/-- The tables of an array, once the document is complete. -/
def finishTables : List (List (String × Item)) → List Value
  | [] => []
  | entries :: ts => .table (finishEntries entries) :: finishTables ts

end

end SchemaTypings.Toml
