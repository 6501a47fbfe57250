import EntityStore.Change.Column
import EntityStore.Change.Index

/-!
# Plans

What would have to be done to a table, as data. A table without any column does not exist and is
created with all its indexes; any other table is altered.
-/

set_option autoImplicit false

namespace EntityStore

/-- What would be done to the table of one entity. -/
inductive Plan where
  | create (table : String) (indexes : List IndexChange)
  | alter (table : Option String) (columns : List ColumnChange) (indexes : List IndexChange)

namespace Plan

/-- The plan for a table as the catalog describes it. -/
def of (e : Entity) (columns : List LiveColumn) (indexes : List LiveIndex) : Plan :=
  if columns.isEmpty then .create e.createTable (IndexChange.between e [])
  else
    let changes := ColumnChange.between e columns
    .alter (e.alterTable? changes) changes (IndexChange.between e indexes)

def isEmpty : Plan → Bool
  | .create .. => false
  | .alter _ columns indexes => columns.isEmpty && indexes.isEmpty

/-- The statements, in the order in which they would be sent. -/
def statements : Plan → List String
  | .create table indexes => table :: indexes.map IndexChange.text
  | .alter table _ indexes => table.toList ++ indexes.map IndexChange.text

end Plan

end EntityStore
