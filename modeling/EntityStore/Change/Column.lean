import EntityStore.Catalog.Live
import EntityStore.Schema.Entity

/-!
# Changes to columns

What has to change about a table's columns for them to match their declaration. Missing columns are
added first, columns of another type or nullability are altered next, and columns that are not
declared are dropped last. The identifier is in none of these lists: its column is made with the
table and never touched again.

All changes of a table travel as one statement, so that they take effect together or not at all.
-/

set_option autoImplicit false

namespace EntityStore

/-- One change of a table's columns. -/
inductive ColumnChange where
  | add (name definition : String)
  | alterType (name type : String)
  | setNotNull (name : String)
  | dropNotNull (name : String)
  | drop (name : String)
  deriving DecidableEq

namespace ColumnChange

/-- The change as a part of a statement. -/
def text : ColumnChange → String
  | .add name definition => "ADD COLUMN " ++ Sql.quoteIdentifier name ++ " " ++ definition
  | .alterType name type => "ALTER COLUMN " ++ Sql.quoteIdentifier name ++ " TYPE " ++ type
  | .setNotNull name => "ALTER COLUMN " ++ Sql.quoteIdentifier name ++ " SET NOT NULL"
  | .dropNotNull name => "ALTER COLUMN " ++ Sql.quoteIdentifier name ++ " DROP NOT NULL"
  | .drop name => "DROP COLUMN " ++ Sql.quoteIdentifier name

def live? (live : List LiveColumn) (name : String) : Option LiveColumn :=
  live.find? (·.field == name)

/-- The change that adds a declared column, if the table lacks it. -/
def addition? (live : List LiveColumn) (a : Attribute) : Option ColumnChange :=
  match live? live a.name with
  | some _ => none
  | none => some (.add a.name a.columnDefinition)

/-- The changes that make one column match its attribute, the type before the nullability. -/
def alterations (c : LiveColumn) (a : Attribute) : List ColumnChange :=
  (if Text.sameLetters c.canonicalType a.reportedType then []
    else [.alterType a.name a.columnType])
  ++ match c.nullable, a.nullable with
    | true, false => [.setNotNull a.name]
    | false, true => [.dropNotNull a.name]
    | _, _ => []

/-- The changes that make a column match its attribute, if the table has the column. -/
def alterationsIn (live : List LiveColumn) (a : Attribute) : List ColumnChange :=
  match live? live a.name with
  | some c => alterations c a
  | none => []

/-- The change that drops a column, if it is not declared. -/
def removal? (e : Entity) (c : LiveColumn) : Option ColumnChange :=
  if c.field = identifier || (e.attribute? c.field).isSome then none else some (.drop c.field)

/-- Everything that has to change. -/
def between (e : Entity) (live : List LiveColumn) : List ColumnChange :=
  e.columns.filterMap (addition? live) ++ e.columns.flatMap (alterationsIn live)
    ++ live.filterMap (removal? e)

end ColumnChange

namespace Entity

/-- The statement that creates the table: the identifier first, then every other column. -/
def createTable (e : Entity) : String :=
  let first := Sql.quoteIdentifier identifier ++ " SERIAL PRIMARY KEY"
  let others := e.columns.map fun a => Sql.quoteIdentifier a.name ++ " " ++ a.columnDefinition
  "CREATE TABLE " ++ e.quotedTable ++ " (\n  " ++ ",\n  ".intercalate (first :: others) ++ "\n)"

/-- The statement that makes all changes, if there are any. -/
def alterTable? (e : Entity) (changes : List ColumnChange) : Option String :=
  if changes.isEmpty then none
  else some ("ALTER TABLE " ++ e.quotedTable ++ " "
    ++ ", ".intercalate (changes.map ColumnChange.text))

end Entity

end EntityStore
