import EntityStore.Row
import EntityStore.Schema.Entity

/-!
# Showing rows

Rows as a table for people: a line of column names and a line for each row, the columns in the
order in which the entity declares them, each as wide as its widest cell. What a row has beyond
the declared columns is not shown, and blanks at the end of a line are cut off.
-/

set_option autoImplicit false

namespace EntityStore.Command

/-- A cell: text as it is, anything else as a document, nothing where the row has none. -/
def cell (d : Option Document) : String :=
  match d with
  | none => ""
  | some (.text s) => s
  | some d => d.compact

/-- A text filled up with blanks to a number of characters. -/
def padTo (width : Nat) (s : String) : String :=
  s ++ String.ofList (List.replicate (width - s.length) ' ')

/-- The width of a column: that of its widest cell, or of its name in bytes. -/
def columnWidth (name : String) (cells : List String) : Nat :=
  cells.foldl (fun w c => max w c.length) name.utf8ByteSize

/-- A line of cells, two blanks between them. -/
def tableLine (widths : List Nat) (cells : List String) : String :=
  String.ofList (Text.trimRight
    ("  ".intercalate ((widths.zip cells).map fun c => padTo c.1 c.2)).toList)

/-- The lines of a table of rows, the names first. -/
def tableLines (columns : List String) (rows : List Row) : List String :=
  let cells := rows.map fun row => columns.map fun c => cell (row.lookup c)
  let widths := columns.map fun c =>
    columnWidth c (rows.map fun row => cell (row.lookup c))
  (columns :: cells).map (tableLine widths)

end EntityStore.Command
