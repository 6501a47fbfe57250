import EntityStore.Catalog.Live
import EntityStore.Schema.Entity

/-!
# Changes to indexes

What has to change about a table's indexes for them to match their declaration. Missing indexes are
created first; an index that differs is dropped and created again; indexes that are not declared
are dropped last. Each change is a statement of its own.

An index differs if it covers other columns, in another order or number, or if it is unique where
the declaration is not. Blanks around a column name make no difference, because the catalog's
answer is read without them.
-/

set_option autoImplicit false

namespace EntityStore

/-- One change of a table's indexes. The table is named by its quoted name. -/
inductive IndexChange where
  | create (table : String) (index : Index)
  | drop (table name : String) (constraint : Bool)
  deriving DecidableEq

namespace IndexChange

def text : IndexChange → String
  | .create table index =>
    if index.isConstraint then
      "ALTER TABLE " ++ table ++ " ADD CONSTRAINT " ++ Sql.quoteIdentifier index.name
        ++ " UNIQUE (" ++ Sql.quoteColumns index.columns ++ ")"
    else
      let method := match index.method with
        | some method => " USING " ++ method
        | none => ""
      "CREATE " ++ (if index.isUnique then "UNIQUE " else "") ++ "INDEX "
        ++ Sql.quoteIdentifier index.name ++ " ON " ++ table ++ method
        ++ " (" ++ Sql.quoteColumns index.columns ++ ")"
  | .drop table name constraint =>
    if constraint then "ALTER TABLE " ++ table ++ " DROP CONSTRAINT " ++ Sql.quoteIdentifier name
    else "DROP INDEX " ++ Sql.schemaPart table ++ Sql.quoteIdentifier name

/-- Whether an index is not as declared. -/
def differs (declared : Index) (live : LiveIndex) : Bool :=
  declared.columns.map Text.trim != live.columns.map Text.trim
    || declared.isUnique != live.unique

def live? (live : List LiveIndex) (name : String) : Option LiveIndex :=
  live.find? (·.name == name)

/-- The change that creates a declared index, if the table lacks it. -/
def addition? (table : String) (live : List LiveIndex) (i : Index) : Option IndexChange :=
  match live? live i.name with
  | some _ => none
  | none => some (.create table i)

/-- The changes that make an index match its declaration, if the table has it and it differs. -/
def replacement (table : String) (live : List LiveIndex) (i : Index) : List IndexChange :=
  match live? live i.name with
  | some l => if differs i l then [.drop table l.name l.constraint, .create table i] else []
  | none => []

/-- The change that drops an index, if it is not declared. -/
def removal? (e : Entity) (l : LiveIndex) : Option IndexChange :=
  if (e.index? l.name).isSome then none else some (.drop e.quotedTable l.name l.constraint)

/-- Everything that has to change. -/
def between (e : Entity) (live : List LiveIndex) : List IndexChange :=
  e.indexes.filterMap (addition? e.quotedTable live)
    ++ e.indexes.flatMap (replacement e.quotedTable live)
    ++ live.filterMap (removal? e)

end IndexChange

end EntityStore
