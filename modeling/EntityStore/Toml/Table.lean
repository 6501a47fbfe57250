import EntityStore.Document.Basic

/-!
# Tables of TOML

A settings text describes one tree of tables, but says it piecemeal: headers open tables at a path,
keys with dots open tables inside the open one, and a header in double brackets adds a table to a
list. What may be opened again depends on how it was opened first, so every table remembers that.

* A table may be opened by a header once. One that only lay on the path of other headers may still
  be.
* A table opened by dotted keys may be added to by dotted keys only, and by those no other table.
* Values are never added to.
-/

set_option autoImplicit false

namespace EntityStore.Toml

/-- How a table came to be. -/
inductive Origin where
  /-- By a header of its own. -/
  | header
  /-- By lying on the path of a header. -/
  | path
  /-- By dotted keys. -/
  | dotted
  deriving DecidableEq

/-- A place in the tree. -/
inductive Node where
  | value (d : Document)
  | table (origin : Origin) (entries : List (String × Node))
  /-- A list of tables, the last first. -/
  | tables (done : List (List (String × Node)))

/-- The entries of a table. -/
abbrev Entries := List (String × Node)

namespace Entries

/-- Changes the place under a key, which may be empty; fails where the change does. -/
def change? (key : String) (f : Option Node → Option Node) (es : Entries) : Option Entries :=
  (f (es.lookup key)).map fun node => Document.put key node es

/-- Opens the table at a path by a header. -/
def openTable? : List String → Entries → Option Entries
  | [], _ => none
  | [key], es => es.change? key fun
    | none => some (.table .header [])
    | some (.table .path inner) => some (.table .header inner)
    | _ => none
  | key :: path, es => es.change? key fun
    | none => (openTable? path []).map (.table .path)
    | some (.table origin inner) => (openTable? path inner).map (.table origin)
    | some (.tables (last :: others)) =>
      (openTable? path last).map fun last => .tables (last :: others)
    | _ => none

/-- Adds a table to the list at a path. -/
def openListed? : List String → Entries → Option Entries
  | [], _ => none
  | [key], es => es.change? key fun
    | none => some (.tables [[]])
    | some (.tables done) => some (.tables ([] :: done))
    | _ => none
  | key :: path, es => es.change? key fun
    | none => (openListed? path []).map (.table .path)
    | some (.table origin inner) => (openListed? path inner).map (.table origin)
    | some (.tables (last :: others)) =>
      (openListed? path last).map fun last => .tables (last :: others)
    | _ => none

/-- Changes the table that headers opened at a path. -/
def within? (f : Entries → Option Entries) : List String → Entries → Option Entries
  | [], es => f es
  | key :: path, es => es.change? key fun
    | some (.table origin inner) => (within? f path inner).map (.table origin)
    | some (.tables (last :: others)) =>
      (within? f path last).map fun last => .tables (last :: others)
    | _ => none

/-- Sets a key that is not set yet. `addable` says whether this table may be added to: the open
table may by a key without dots, and a table of dotted keys by one with dots. -/
def set? (d : Document) : List String → (addable : Bool) → Entries → Option Entries
  | [], _, _ => none
  | [key], addable, es =>
    if addable then es.change? key fun
      | none => some (.value d)
      | some _ => none
    else none
  | key :: path, _, es => es.change? key fun
    | none => (set? d path true []).map (.table .dotted)
    | some (.table .dotted inner) => (set? d path true inner).map (.table .dotted)
    | some (.table .path inner) => (set? d path false inner).map (.table .path)
    | some (.tables (last :: others)) =>
      (set? d path false last).map fun last => .tables (last :: others)
    | _ => none

end Entries

mutual

/-- The document of a place. -/
def Node.toDocument : Node → Document
  | .value d => d
  | .table _ es => .object (entriesToDocument es)
  | .tables done => .list (tablesToDocument done [])

def entriesToDocument : List (String × Node) → List (String × Document)
  | [] => []
  | (k, n) :: rest => (k, n.toDocument) :: entriesToDocument rest

/-- The documents of a list of tables, the last of which comes first, before `after`. -/
def tablesToDocument : List (List (String × Node)) → List Document → List Document
  | [], after => after
  | es :: rest, after => tablesToDocument rest (.object (entriesToDocument es) :: after)

end

end EntityStore.Toml
