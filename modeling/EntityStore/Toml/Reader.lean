import EntityStore.Toml.Scalar
import EntityStore.Toml.Table

/-!
# Reading TOML

A settings text is a sequence of lines, each of which is empty, a key with its value, or a header.
The lines are read first and then carried out one after the other on the tree of tables; a text
with any part that is no line, or any line that cannot be carried out, is no settings text at all.

Lists and inline tables may be nested seventy-nine deep.
-/

set_option autoImplicit false

namespace EntityStore.Toml

open Scan

/-! ## Values -/

/-- A list: values with commas between them and perhaps after the last, and as much filling as one
likes. -/
def listOf (value : Scan Document) : Scan Document := fun cs => do
  let (_, cs) ← exactly ['['] cs
  let (_, cs) ← filling cs
  let (items, cs) ← maybe (seq (separated (between filling filling (exactly [','])) value)
    (maybe (before filling (exactly [','])))) cs
  let (_, cs) ← filling cs
  let (_, cs) ← exactly [']'] cs
  return (.list ((items.map Prod.fst).getD []), cs)

/-- A key, an equals sign, and a value. -/
def pair (value : Scan Document) : Scan (List String × Document) :=
  seq (after key (between spaces spaces (exactly ['=']))) value

/-- The table that pairs make. -/
def tableOf? (pairs : List (List String × Document)) : Option Document :=
  (pairs.foldlM (fun es p => Entries.set? p.2 p.1 true es) []).map fun es =>
    .object (entriesToDocument es)

/-- A table on one line: pairs with commas between them and none after the last. -/
def inlineTable (value : Scan Document) : Scan Document := fun cs => do
  let (_, cs) ← exactly ['\x7b'] cs
  let (_, cs) ← spaces cs
  let (pairs, cs) ← maybe (separated (between spaces spaces (exactly [','])) (pair value)) cs
  let (_, cs) ← spaces cs
  let (_, cs) ← exactly ['\x7d'] cs
  let d ← tableOf? (pairs.getD [])
  return (d, cs)

/-- Any value, with room for so many containers inside each other. -/
def value : (room : Nat) → Scan Document
  | 0 => (map Document.text string).or scalar
  | room + 1 =>
    (map Document.text string).or
      (scalar.or ((listOf (value room)).or (inlineTable (value room))))

/-- How deep containers may be nested. -/
def maxDepth : Nat := 79

/-! ## Lines -/

/-- What a line asks for. -/
inductive Line where
  | blank
  | pair (path : List String) (d : Document)
  | table (path : List String)
  | listed (path : List String)

def header : Scan Line :=
  map .table (between (before (exactly ['[']) spaces) (before spaces (exactly [']'])) key)

/-- The header of a table in a list. -/
def listedHeader : Scan Line :=
  map .listed
    (between (before (exactly ['[', '[']) spaces) (before spaces (exactly [']', ']'])) key)

/-- What may stand on a line before a comment. -/
def content : Scan Line :=
  listedHeader.or (header.or
    (map (fun (path, d) => .pair path d) (after (pair (value maxDepth)) spaces)))

def ending : Scan Unit
  | [] => some ((), [])
  | cs => lineEnd cs

def line : Scan Line := fun cs => do
  let (_, cs) ← spaces cs
  let (content, cs) ← maybe content cs
  let (_, cs) ← spaces cs
  let (_, cs) ← maybe comment cs
  let (_, cs) ← ending cs
  return (content.getD .blank, cs)

/-- The lines of a text. A mark of the byte order at the front does not count. -/
def lines? (cs : List Char) : Option (List Line) := do
  let cs := match cs with
    | c :: rest => if c.toNat = 0xFEFF then rest else cs
    | [] => []
  let (lines, rest) ← many line cs
  if rest.isEmpty then some lines else none

/-! ## The tree -/

/-- The tree so far, and the path of the open table. -/
structure Tree where
  root : Entries
  path : List String

/-- Carries out one line. -/
def Tree.carryOut? (t : Tree) : Line → Option Tree
  | .blank => some t
  | .pair path d => (t.root.within? (Entries.set? d path true) t.path).map fun root => ⟨root, t.path⟩
  | .table path => (t.root.openTable? path).map fun root => ⟨root, path⟩
  | .listed path => (t.root.openListed? path).map fun root => ⟨root, path⟩

/-- The document of a settings text. -/
def ofText? (s : String) : Option Document := do
  let lines ← lines? s.toList
  let tree ← lines.foldlM Tree.carryOut? ⟨[], []⟩
  return .object (entriesToDocument tree.root)

end EntityStore.Toml
