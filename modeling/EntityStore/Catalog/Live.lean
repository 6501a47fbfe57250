import EntityStore.Row
import EntityStore.Schema.Attribute
import EntityStore.Text.Case
import EntityStore.Text.Split

/-!
# What the catalog says

The columns and indexes of a table as the catalog reports them, read from the rows of its answer. A
row that does not name its column or index says nothing and is passed over. Everything else about a
row may be missing, and has a meaning when it is: a column of unknown nullability may be null, an
index without columns covers none.
-/

set_option autoImplicit false

namespace EntityStore

/-- A column of a table as it is. -/
structure LiveColumn where
  field : String
  /-- The type by the word a declaration would use. -/
  type : String
  nullable : Bool
  default : Option String
  length : Option Nat
  precision : Option Nat
  scale : Option Nat
  deriving DecidableEq

/-- An index of a table as it is. -/
structure LiveIndex where
  name : String
  unique : Bool
  /-- Whether a table constraint stands behind it, which is then what must be dropped. -/
  constraint : Bool
  columns : List String
  deriving DecidableEq

namespace Row

/-- A cell as text; null is no text, and anything but text is shown as a document. -/
def text? (row : Row) (key : String) : Option String :=
  match row.lookup key with
  | none | some .null => none
  | some (.text s) => some s
  | some d => some d.compact

/-- A cell as a count of 32 bits, a number or a text that writes one. -/
def count? (row : Row) (key : String) : Option Nat :=
  match row.lookup key with
  | some (.number (.whole n)) =>
    if 0 ≤ n ∧ n.toNat ≤ Numeral.maxNat32 then some n.toNat else none
  | some (.text s) => Numeral.natUpTo? Numeral.maxNat32 (Text.trim s)
  | _ => none

/-- A cell as a truth value; what is neither a truth value nor the word for true is false. -/
def flag (row : Row) (key : String) : Bool :=
  match row.lookup key with
  | some (.bool b) => b
  | some (.text s) => s == "t" || s == "true" || s == "TRUE"
  | _ => false

end Row

namespace LiveColumn

/-- The type as a declaration would write it, with the size where the type has one. -/
def canonicalType (c : LiveColumn) : String :=
  if c.type = "varchar" ∨ c.type = "char" then
    match c.length with
    | some n => c.type ++ "(" ++ Numeral.ofNat n ++ ")"
    | none => c.type
  else if c.type = "numeric" then
    match c.precision, c.scale with
    | some p, some s =>
      if 0 < s then "numeric(" ++ Numeral.ofNat p ++ "," ++ Numeral.ofNat s ++ ")"
      else "numeric(" ++ Numeral.ofNat p ++ ")"
    | some p, none => "numeric(" ++ Numeral.ofNat p ++ ")"
    | none, _ => c.type
  else c.type

def ofRow? (row : Row) : Option LiveColumn := do
  let field ← row.text? "Field"
  let type ← row.text? "Type"
  return {
    field
    type := declaredTypeName type
    nullable := match row.text? "Null" with
      | some answer => Text.sameLetters answer "YES"
      | none => true
    default := row.text? "Default"
    length := row.count? "Length"
    precision := row.count? "Precision"
    scale := row.count? "Scale" }

def ofRows (rows : List Row) : List LiveColumn := rows.filterMap ofRow?

end LiveColumn

namespace LiveIndex

def ofRow? (row : Row) : Option LiveIndex := do
  let name ← row.text? "Name"
  return {
    name
    unique := row.flag "Unique"
    constraint := row.flag "Constraint"
    -- The columns are one text with commas.
    columns := match row.text? "Columns" with
      | some columns => (Text.pieces ',' columns).map Text.trim
      | none => [] }

def ofRows (rows : List Row) : List LiveIndex := rows.filterMap ofRow?

end LiveIndex

end EntityStore
