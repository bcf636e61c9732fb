import SourceMask.Toml.Value

/-!
# TOML: tables

A document builds up a tree of tables.  A table is opened by a header of its own, by a header of
one of its parts, or by a joined key.  How it was opened decides what may be added to it later: a
header may take over a table that only headers of its parts have opened, and joined keys may add
to a table that has no header of its own.
-/

namespace SourceMask

namespace Toml

/-- How a table came to be. -/
inductive Origin where
  /-- By a header of its own. -/
  | header
  /-- By a header of one of its parts. -/
  | innerHeader
  /-- By a joined key. -/
  | joinedKey
  deriving DecidableEq, Repr

/-- What a name in a document stands for. -/
inductive Item where
  | value (data : Data)
  | table (origin : Origin) (entries : List (Text × Item))
  /-- Tables of one name, each opened by a header in double brackets. -/
  | tables (all : List (List (Text × Item)))
  deriving Inhabited

/-- The names of a table and what they stand for, in the order of their first appearance. -/
abbrev Entries := List (Text × Item)

namespace Entries

/-- Let a name stand for something else, or add it. -/
def set (entries : Entries) (name : Text) (item : Item) : Entries :=
  if (entries.lookup name).isSome then
    entries.map fun (other, old) => (other, if other = name then item else old)
  else
    entries ++ [(name, item)]

/-- Change the entries at the end of a path.  Missing tables on the way are opened as by the
header of a part; of several tables of one name the last is meant. -/
def within? (change : Entries → Option Entries) : List Text → Entries → Option Entries
  | [], entries => change entries
  | name :: path, entries =>
    match entries.lookup name with
    | none => (within? change path []).map fun inner => entries.set name (.table .innerHeader inner)
    | some (.table origin inner) =>
      (within? change path inner).map fun inner => entries.set name (.table origin inner)
    | some (.tables all) =>
      match all.getLast? with
      | some last => (within? change path last).map fun last =>
        entries.set name (.tables (all.dropLast ++ [last]))
      | none => none
    | some (.value _) => none

/-! ## Headers -/

/-- Open the table of a header: a new one, or one that only headers of its parts have opened. -/
def openTable? (name : Text) (entries : Entries) : Option Entries :=
  match entries.lookup name with
  | none => some (entries.set name (.table .header []))
  | some (.table .innerHeader inner) => some (entries.set name (.table .header inner))
  | some _ => none

/-- Open one more table of a header in double brackets. -/
def openNext? (name : Text) (entries : Entries) : Option Entries :=
  match entries.lookup name with
  | none => some (entries.set name (.tables [[]]))
  | some (.tables all) => some (entries.set name (.tables (all ++ [[]])))
  | some _ => none

/-! ## Keys -/

/-- Put a value into the table that joined keys lead to.  The origin is that of the table at hand,
if joined keys have led there; the value must then come to a table that was opened by one. -/
def put? (value : Data) (reached : Option Origin) : List Text → Entries → Option Entries
  | [], _ => none
  | [name], entries =>
    if reached.any (· ≠ .joinedKey) || (entries.lookup name).isSome then none
    else some (entries.set name (.value value))
  | name :: path, entries =>
    match entries.lookup name with
    | none =>
      (put? value (some .joinedKey) path []).map fun inner =>
        entries.set name (.table .joinedKey inner)
    | some (.table origin inner) =>
      if origin = .header then none
      else (put? value (some origin) path inner).map fun inner =>
        entries.set name (.table origin inner)
    | some (.tables all) =>
      match all.getLast? with
      | some last => (put? value (some .header) path last).map fun last =>
        entries.set name (.tables (all.dropLast ++ [last]))
      | none => none
    | some (.value _) => none

end Entries

/-! ## Data -/

mutual

/-- The data that an item stands for. -/
def Item.toData : Item → Data
  | value data => data
  | table _ entries => .record (entriesToData entries)
  | tables all => .list (tablesToData all)

/-- The data of the entries of a table. -/
def Item.entriesToData : List (Text × Item) → List (Text × Data)
  | [] => []
  | (name, item) :: rest => (name, item.toData) :: entriesToData rest

/-- The data of several tables. -/
def Item.tablesToData : List (List (Text × Item)) → List Data
  | [] => []
  | entries :: rest => .record (entriesToData entries) :: tablesToData rest

end

end Toml

end SourceMask
