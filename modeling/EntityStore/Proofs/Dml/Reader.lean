import EntityStore.Proofs.Ddl.Reader
import EntityStore.Proofs.Filter.Formula
import EntityStore.Proofs.Sql.Stored

/-!
# A reader of statements about rows

How a database understands a text that inserts or updates rows. The text is cut into tokens, the
tokens into statements at the semicolons, and each statement is taken for what its tokens say: which
table, which columns in which order, what goes into each, and which rows are meant. A condition is
read as a filter is.

Names, literals and conditions come out as what they denote, so two texts that differ in nothing but
how a value is written are read as the same statement. An insertion must ask for the identifier of
the new row.
-/

set_option autoImplicit false

namespace EntityStore

open Sql

/-- A statement that writes rows. Columns and cells are two lists, as they are in the text, and
nothing here makes them equally long or the columns distinct. -/
inductive RowStatement where
  /-- One row of defaults. -/
  | insertDefaults (table : TableRef)
  /-- One row. -/
  | insert (table : TableRef) (columns : List String) (cells : List Cell)
  /-- One row, unless another table, or the same, has a row of a condition. -/
  | insertUnless (table : TableRef) (columns : List String) (cells : List Cell) (other : TableRef)
    (condition : Formula Atom)
  /-- Sets columns of the rows of a condition. -/
  | update (table : TableRef) (assignments : List (String × Cell)) (condition : Formula Atom)

namespace Dml

open Ddl (table? items? upTo?)

/-! ## Parts of statements -/

/-- The tokens in front of the first one of a kind, and those behind it. -/
def before? (stop : Token) : List Token → Option (List Token × List Token)
  | [] => none
  | t :: ts =>
    if t = stop then some ([], ts) else (before? stop ts).map fun found => (t :: found.1, found.2)

def name? : List Token → Option String
  | [.identifier name] => some name
  | _ => none

def assignment? : List Token → Option (String × Cell)
  | .identifier name :: .operator "=" :: ts => (cell? ts).map (name, ·)
  | _ => none

/-- A condition on its own. -/
def condition? (ts : List Token) : Option (Formula Atom) := Formula.beforeOperand [] .start ts

/-- A table and a condition that no row of it may meet. -/
def absence? : List Token → Option (TableRef × Formula Atom)
  | .word "not" :: .word "exists" :: .mark '(' :: .word "select" :: .numeral ['1'] [] :: .word "from"
    :: ts =>
    match table? ts with
    | some (table, .word "where" :: ts) => ((upTo? ')' ts).bind condition?).map (table, ·)
    | _ => none
  | _ => none

/-! ## Statements -/

/-- What is inserted into a table. -/
def insert? (table : TableRef) : List Token → Option RowStatement
  | [.word "default", .word "values"] => some (.insertDefaults table)
  | .mark '(' :: ts => do
    let (names, ts) ← before? (.mark ')') ts
    let columns ← items? name? names
    match ts with
    | .word "values" :: .mark '(' :: ts => do
      let cells ← (upTo? ')' ts).bind (items? cell?)
      return .insert table columns cells
    | .word "select" :: ts => do
      let (ts, absence) ← before? (.word "where") ts
      let cells ← items? cell? ts
      let (other, condition) ← absence? absence
      return .insertUnless table columns cells other condition
    | _ => none
  | _ => none

/-- What is updated in a table. -/
def update? (table : TableRef) : List Token → Option RowStatement
  | .word "set" :: ts => do
    let (ts, condition) ← before? (.word "where") ts
    let assignments ← items? assignment? ts
    let condition ← condition? condition
    return .update table assignments condition
  | _ => none

/-- One statement. -/
def statement? : List Token → Option RowStatement
  | .word "insert" :: .word "into" :: ts => do
    let (table, ts) ← table? ts
    let (ts, returned) ← before? (.word "returning") ts
    if returned = [.word "id"] then insert? table ts else none
  | .word "update" :: ts => do
    let (table, ts) ← table? ts
    update? table ts
  | _ => none

def read (sql : String) : Option (List RowStatement) :=
  (tokens sql.toList).bind fun ts => (ts.splitOn (.mark ';')).mapM statement?

end Dml

end EntityStore
