import EntityStore.Catalog.Query
import EntityStore.Change.Plan
import EntityStore.Dialogue

/-!
# A database that keeps tables

What stands at the other end of a dialogue about the schema: tables with columns, indexes over
them, and an executor that answers the two queries and makes the changes. A table is altered as a
whole or not at all; dropping a column takes every index with it that covers the column; the names
of indexes are unique in each schema, so creating one whose name is taken fails.

Four things belong to the database and are left open. `read` is how it understands a statement,
`report` how it describes a column that was defined with a type, `schema` where tables without a
schema of their own live, and `refuse` its right to refuse any change for a reason of its own, such
as an index over a column that is not there.
-/

set_option autoImplicit false

namespace EntityStore

/-! ## What there is -/

/-- A table by its schema and its own name. -/
structure TableName where
  schema : String
  name : String
  deriving DecidableEq

/-- A table as a statement names it, with or without a schema. -/
abbrev TableRef := Option String × String

/-- How the catalog describes the type of a column. -/
structure ReportedType where
  name : String
  length : Option Nat
  precision : Option Nat
  scale : Option Nat
  deriving DecidableEq

structure Column where
  name : String
  type : ReportedType
  nullable : Bool
  default : Option String
  deriving DecidableEq

/-- An index over a table. -/
structure TableIndex where
  table : TableName
  name : String
  unique : Bool
  /-- Whether a table constraint stands behind it. -/
  constraint : Bool
  method : Option String
  columns : List String
  deriving DecidableEq

/-- All tables and all indexes. -/
structure Tables where
  columns : TableName → Option (List Column)
  indexes : List TableIndex

namespace Tables

def indexesOf (s : Tables) (t : TableName) : List TableIndex := s.indexes.filter (·.table == t)

def indexIn? (s : Tables) (schema name : String) : Option TableIndex :=
  s.indexes.find? fun i => i.table.schema == schema && i.name == name

/-- The same with other columns for one table. -/
def setColumns (s : Tables) (t : TableName) (cs : List Column) : Tables :=
  { s with columns := fun u => if u = t then some cs else s.columns u }

end Tables

/-! ## What is asked and what is changed -/

/-- A change of the schema as the database understands it. -/
inductive SchemaChange where
  /-- Each column by its name and the text of its definition. -/
  | createTable (table : TableRef) (columns : List (String × String))
  | alterTable (table : TableRef) (changes : List ColumnChange)
  | createIndex (table : TableRef) (unique : Bool) (name : String) (method : Option String)
    (columns : List String)
  | addConstraint (table : TableRef) (name : String) (columns : List String)
  | dropIndex (schema : Option String) (name : String)
  | dropConstraint (table : TableRef) (name : String)
  deriving DecidableEq

/-- A statement as the database understands it. -/
inductive Request where
  | columns (table : TableRef)
  | indexes (table : TableRef)
  | change (c : SchemaChange)
  deriving DecidableEq

/-- What belongs to the database and is not fixed here. -/
structure Database where
  read : String → Option Request
  report : String → ReportedType
  schema : String
  refuse : Tables → SchemaChange → Option Error

namespace Database

variable (db : Database)

/-- The table that a statement means. -/
def resolve (table : TableRef) : TableName := ⟨table.1.getD db.schema, table.2⟩

/-! ## Columns -/

/-- The type of a column definition, and whether the column may be null. -/
def splitDefinition (definition : String) : String × Bool :=
  let suffix := " NOT NULL".toList
  if suffix.isSuffixOf definition.toList then
    (String.ofList (definition.toList.take (definition.toList.length - suffix.length)), false)
  else (definition, true)

/-- The column that a definition makes. A counting column is a whole number that is never null. -/
def columnOf (name definition : String) : Column :=
  if "SERIAL".toList.isPrefixOf definition.toList then
    ⟨name, db.report "integer", false, some "nextval('seq'::regclass)"⟩
  else
    let (type, nullable) := splitDefinition definition
    ⟨name, db.report type, nullable, none⟩

def column? (cs : List Column) (name : String) : Option Column := cs.find? (·.name == name)

/-- Columns with one of them changed, which must be there. -/
def modifyColumn (cs : List Column) (name : String) (f : Column → Column) :
    Except Error (List Column) :=
  match column? cs name with
  | some _ => .ok (cs.map fun c => if c.name = name then f c else c)
  | none => .error (.database ("column " ++ name ++ " does not exist"))

/-- Makes one change of the columns of a table. -/
def alterColumns (cs : List Column) : ColumnChange → Except Error (List Column)
  | .add name definition =>
    match column? cs name with
    | some _ => .error (.database ("column " ++ name ++ " already exists"))
    | none => .ok (cs ++ [db.columnOf name definition])
  | .alterType name type => modifyColumn cs name fun c => { c with type := db.report type }
  | .setNotNull name => modifyColumn cs name fun c => { c with nullable := false }
  | .dropNotNull name => modifyColumn cs name fun c => { c with nullable := true }
  | .drop name =>
    match column? cs name with
    | some _ => .ok (cs.filter (·.name != name))
    | none => .error (.database ("column " ++ name ++ " does not exist"))

/-- Whether some changes drop the column of a name. -/
def drops (changes : List ColumnChange) (name : String) : Bool := changes.contains (.drop name)

/-! ## Changes -/

/-- Makes a new index, if there is such a table and the name is free in its schema. -/
def addIndex (s : Tables) (i : TableIndex) : Except Error Tables :=
  match s.columns i.table with
  | none => .error (.database ("relation " ++ i.table.name ++ " does not exist"))
  | some _ =>
    match s.indexIn? i.table.schema i.name with
    | some _ => .error (.database ("relation " ++ i.name ++ " already exists"))
    | none => .ok { s with indexes := s.indexes ++ [i] }

/-- Makes a change that is not refused. -/
def perform (s : Tables) : SchemaChange → Except Error Tables
  | .createTable table columns =>
    let t := db.resolve table
    match s.columns t with
    | some _ => .error (.database ("relation " ++ t.name ++ " already exists"))
    | none => .ok (s.setColumns t (columns.map fun c => db.columnOf c.1 c.2))
  | .alterTable table changes =>
    let t := db.resolve table
    match s.columns t with
    | none => .error (.database ("relation " ++ t.name ++ " does not exist"))
    | some cs => do
      let cs ← changes.foldlM db.alterColumns cs
      return {
        columns := (s.setColumns t cs).columns
        indexes := s.indexes.filter fun i => !(i.table == t && i.columns.any (drops changes)) }
  | .createIndex table unique name method columns =>
    addIndex s ⟨db.resolve table, name, unique, false, method, columns⟩
  | .addConstraint table name columns =>
    addIndex s ⟨db.resolve table, name, true, true, none, columns⟩
  | .dropIndex schema name =>
    let schema := schema.getD db.schema
    match s.indexIn? schema name with
    | none => .error (.database ("index " ++ name ++ " does not exist"))
    | some i =>
      if i.constraint then .error (.database ("constraint " ++ name ++ " requires the index"))
      else .ok { s with
        indexes := s.indexes.filter fun i => !(i.table.schema == schema && i.name == name) }
  | .dropConstraint table name =>
    let t := db.resolve table
    let stands (i : TableIndex) : Bool := i.table == t && i.name == name && i.constraint
    if s.indexes.any stands then .ok { s with indexes := s.indexes.filter (!stands ·) }
    else .error (.database ("constraint " ++ name ++ " does not exist"))

/-- Makes a change, unless the database refuses it. -/
def change (s : Tables) (c : SchemaChange) : Except Error Tables :=
  match db.refuse s c with
  | some err => .error err
  | none => db.perform s c

/-! ## Answers -/

/-- A count in a row of the catalog. -/
def countCell : Option Nat → Document
  | some n => .number (.whole n)
  | none => .null

/-- How a column is reported. -/
def columnRow (c : Column) : Row :=
  [("Field", .text c.name), ("Type", .text c.type.name),
    ("Null", .text (if c.nullable then "YES" else "NO")),
    ("Default", match c.default with
      | some text => .text text
      | none => .null),
    ("Length", countCell c.type.length), ("Precision", countCell c.type.precision),
    ("Scale", countCell c.type.scale)]

/-- How an index is reported: its columns are one text, separated by commas. -/
def indexRow (i : TableIndex) : Row :=
  [("Name", .text i.name), ("Unique", .bool i.unique), ("Constraint", .bool i.constraint),
    ("Columns", .text (",".intercalate i.columns))]

/-- Answers a request. A table that does not exist has no columns, but asking for its indexes is an
error. -/
def answer (s : Tables) : Request → Answer × Tables
  | .columns table => (.ok (((s.columns (db.resolve table)).getD []).map columnRow), s)
  | .indexes table =>
    let t := db.resolve table
    match s.columns t with
    | some _ => (.ok ((s.indexesOf t).map indexRow), s)
    | none => (.error (.database ("relation " ++ t.name ++ " does not exist")), s)
  | .change c =>
    match db.change s c with
    | .ok s => (.ok [], s)
    | .error err => (.error err, s)

/-- The database as what answers statements. What it cannot read it answers with an error. -/
def executor : Executor Tables := fun s sql =>
  match db.read sql with
  | some request => db.answer s request
  | none => (.error (.database ("syntax error in " ++ sql)), s)

end Database

/-! ## How an entity's statements are understood -/

/-- The table of an entity. -/
def Database.tableOf (db : Database) (e : Entity) : TableName := db.resolve e.tableParts

/-- What an index change of an entity asks for. -/
def IndexChange.request (e : Entity) : IndexChange → SchemaChange
  | .create _ i =>
    if i.isConstraint then .addConstraint e.tableParts i.name i.columns
    else .createIndex e.tableParts i.isUnique i.name i.method i.columns
  | .drop _ name constraint =>
    if constraint then .dropConstraint e.tableParts name else .dropIndex e.tableParts.1 name

/-- The columns that the table of an entity is created with, the identifier first. -/
def Entity.definitions (e : Entity) : List (String × String) :=
  (identifier, "SERIAL PRIMARY KEY") :: e.columns.map fun a => (a.name, a.columnDefinition)

/-- A reader of statements takes every statement that an entity can need for what it says. -/
structure Understands (read : String → Option Request) (e : Entity) : Prop where
  columns : read (Catalog.columnsQuery e) = some (.columns e.tableParts)
  indexes : read (Catalog.indexesQuery e) = some (.indexes e.tableParts)
  createTable : read (e.createTable ++ ";")
    = some (.change (.createTable e.tableParts e.definitions))
  alterTable : ∀ live sql, e.alterTable? (ColumnChange.between e live) = some sql →
    read (sql ++ ";") = some (.change (.alterTable e.tableParts (ColumnChange.between e live)))
  index : ∀ live, ∀ c ∈ IndexChange.between e live,
    read (c.text ++ ";") = some (.change (c.request e))

end EntityStore
