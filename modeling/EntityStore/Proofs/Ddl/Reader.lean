import EntityStore.Proofs.Database.Basic
import EntityStore.Proofs.Sql.Qualified

/-!
# A reader of statements about tables

How a database understands the statements that reconciliation sends. The two queries it knows by
their fixed text, in which only the constants change. Every other statement is cut into tokens and
taken for what the tokens say, so a name is what stands between its quotes, and nothing in it can be
mistaken for a part of the statement.

The definition of a column is passed on as text. Words have no case once they have been read, and
are passed on as they are usually written: types in small letters, constraints in capitals.
-/

set_option autoImplicit false

namespace EntityStore.Ddl

open Sql

/-! ## Parts of statements -/

def table? (ts : List Token) : Option (TableRef × List Token) :=
  (parts? ts).map fun found => (qualified found.1, found.2)

/-- Names with commas between them, up to a closing bracket at the end. -/
def names? : List Token → Option (List String)
  | [.identifier name, .mark ')'] => some [name]
  | .identifier name :: .mark ',' :: ts => (names? ts).map (name :: ·)
  | _ => none

def columns? : List Token → Option (List String)
  | [.mark '(', .mark ')'] => some []
  | .mark '(' :: ts => names? ts
  | _ => none

/-- A word as it is usually written. -/
def spelled (word : String) : String :=
  if ["serial", "primary", "key", "not", "null"].contains word then
    String.ofList (word.toList.map Char.toUpper)
  else word

/-- What follows the first word of a definition: more words, and a size in brackets. -/
def modifiers? : List Token → Option String
  | [] => some ""
  | .word word :: ts => (modifiers? ts).map (" " ++ spelled word ++ ·)
  | .mark '(' :: .numeral digits [] :: .mark ')' :: ts =>
    (modifiers? ts).map ("(" ++ String.ofList digits ++ ")" ++ ·)
  | _ => none

def definition? : List Token → Option String
  | .word word :: ts => (modifiers? ts).map (spelled word ++ ·)
  | _ => none

def column? : List Token → Option (String × String)
  | .identifier name :: ts => (definition? ts).map (name, ·)
  | _ => none

def columnChange? : List Token → Option ColumnChange
  | .word "add" :: .word "column" :: .identifier name :: ts => (definition? ts).map (.add name)
  | [.word "alter", .word "column", .identifier name, .word "set", .word "not", .word "null"] =>
    some (.setNotNull name)
  | [.word "alter", .word "column", .identifier name, .word "drop", .word "not", .word "null"] =>
    some (.dropNotNull name)
  | .word "alter" :: .word "column" :: .identifier name :: .word "type" :: ts =>
    (definition? ts).map (.alterType name)
  | [.word "drop", .word "column", .identifier name] => some (.drop name)
  | _ => none

/-- What stands between commas. -/
def items? {α : Type} (item? : List Token → Option α) (ts : List Token) : Option (List α) :=
  (ts.splitOn (.mark ',')).mapM item?

/-- The tokens before a mark that ends a text. -/
def upTo? (c : Char) (ts : List Token) : Option (List Token) :=
  if ts.getLast? = some (.mark c) then some ts.dropLast else none

/-! ## Statements -/

/-- What a table is created with. -/
def createTable? (table : TableRef) : List Token → Option SchemaChange
  | .mark '(' :: ts => do
    let ts ← upTo? ')' ts
    let columns ← items? column? ts
    return .createTable table columns
  | _ => none

def alterTable? (table : TableRef) : List Token → Option SchemaChange
  | .word "add" :: .word "constraint" :: .identifier name :: .word "unique" :: ts =>
    (columns? ts).map (.addConstraint table name)
  | [.word "drop", .word "constraint", .identifier name] => some (.dropConstraint table name)
  | ts => (items? columnChange? ts).map (.alterTable table)

/-- An index from its name on. -/
def createIndex? (unique : Bool) : List Token → Option SchemaChange
  | .identifier name :: .word "on" :: ts =>
    match table? ts with
    | some (table, .word "using" :: .word method :: ts) =>
      (columns? ts).map (.createIndex table unique name (some method))
    | some (table, ts) => (columns? ts).map (.createIndex table unique name none)
    | none => none
  | _ => none

/-- A change without the semicolon at its end. The name of an index to be dropped is qualified as
the name of a table is. -/
def change? : List Token → Option SchemaChange
  | .word "create" :: .word "table" :: ts => (table? ts).bind fun found => createTable? found.1 found.2
  | .word "alter" :: .word "table" :: ts => (table? ts).bind fun found => alterTable? found.1 found.2
  | .word "create" :: .word "unique" :: .word "index" :: ts => createIndex? true ts
  | .word "create" :: .word "index" :: ts => createIndex? false ts
  | .word "drop" :: .word "index" :: ts =>
    match table? ts with
    | some ((schema, name), []) => some (.dropIndex schema name)
    | _ => none
  | _ => none

/-! ## Queries -/

/-- The query for columns up to the name of the table. -/
def columnsQueryStart : String :=
  "SELECT column_name::text AS \"Field\", udt_name::text AS \"Type\", "
    ++ "is_nullable::text AS \"Null\", column_default::text AS \"Default\", "
    ++ "character_maximum_length::int AS \"Length\", numeric_precision::int AS \"Precision\", "
    ++ "numeric_scale::int AS \"Scale\" "
    ++ "FROM information_schema.columns "
    ++ "WHERE table_name = "

/-- The query for indexes up to the name of the table. -/
def indexesQueryStart : String :=
  "SELECT c.relname::text AS \"Name\", b.indisunique AS \"Unique\", "
    ++ "EXISTS(SELECT 1 FROM pg_constraint k WHERE k.conindid = b.indexrelid) AS \"Constraint\", "
    ++ "ARRAY_TO_STRING(ARRAY_AGG(d.attname ORDER BY b.columnpos_order), ',') AS \"Columns\" "
    ++ "FROM (SELECT indrelid, indexrelid, indisunique, "
    ++ "indkey[columnpos_order] AS columnpos, columnpos_order "
    ++ "FROM (SELECT indrelid, indexrelid, indisunique, indkey, "
    ++ "GENERATE_SUBSCRIPTS(indkey, 1) AS columnpos_order "
    ++ "FROM pg_index WHERE indrelid = "

/-- The query for indexes behind the name of the table. -/
def indexesQueryEnd : String :=
  "::regclass AND indisprimary = false) a) b "
    ++ "INNER JOIN pg_class c ON b.indexrelid = c.oid "
    ++ "INNER JOIN pg_attribute d ON b.indrelid = d.attrelid AND b.columnpos = d.attnum "
    ++ "GROUP BY \"Name\", \"Unique\", \"Constraint\" "
    ++ "ORDER BY \"Name\""

/-- The text of a constant at the front of a text. -/
def constant? : Scan String := fun cs =>
  match lexeme cs with
  | some (some (.constant text), rest) => some (text, rest)
  | _ => none

/-- The schema that a query names, or the current one. -/
def schema? : Scan (Option String) :=
  Scan.or (Scan.map (fun _ => none) (Scan.exactly "current_schema()".toList))
    (Scan.map some constant?)

/-- The table whose columns are asked for. -/
def columnsQuery? (cs : List Char) : Option TableRef := do
  let (_, cs) ← Scan.exactly columnsQueryStart.toList cs
  let (table, cs) ← constant? cs
  let (_, cs) ← Scan.exactly " AND table_schema = ".toList cs
  let (schema, cs) ← schema? cs
  let (_, cs) ← Scan.exactly " ORDER BY ordinal_position".toList cs
  if cs.isEmpty then some (schema, table) else none

/-- The table whose indexes are asked for: it is named by a constant that holds its quoted name. -/
def indexesQuery? (cs : List Char) : Option TableRef := do
  let (_, cs) ← Scan.exactly indexesQueryStart.toList cs
  let (name, _) ← constant? cs
  let ts ← tokens name.toList
  match table? ts with
  | some (table, []) => some table
  | _ => none

/-- What a statement changes, if its last token is a semicolon. -/
def statement? (cs : List Char) : Option SchemaChange :=
  (tokens cs).bind fun ts => (upTo? ';' ts).bind change?

/-- What a statement asks for. -/
def read (sql : String) : Option Request :=
  ((columnsQuery? sql.toList).map .columns).or
    (((indexesQuery? sql.toList).map .indexes).or ((statement? sql.toList).map .change))

end EntityStore.Ddl
