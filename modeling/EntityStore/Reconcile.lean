import EntityStore.Catalog.Query
import EntityStore.Change.Plan
import EntityStore.Dialogue
import EntityStore.Schema.Registry

/-!
# Reconciliation

Making the tables match the declarations. Every entity is seen to, in the order of names and
whatever happens to the others. A table that does not exist is created; any other is altered in
one statement, and its indexes are read only after that, because dropping a column takes the
indexes that use it with it. A statement that fails is reported and the next one is sent all the
same. In the end the last error stands for all of them: within one entity an error with an index
comes after one with the table.

Two questions go through the same tables without changing any: whether everything is current, and
what would be done.
-/

set_option autoImplicit false

namespace EntityStore.Reconcile

/-- Sends a statement that changes the schema and reports its failure. The result is what went
wrong, if anything did. -/
def attempt (sql : String) : Dialogue (Option Error) := do
  match ← Dialogue.ask (sql ++ ";") with
  | .ok _ => return none
  | .error e =>
    Dialogue.tell e
    return some e

/-- Makes all column changes at once. -/
def applyColumns (e : Entity) (changes : List ColumnChange) : Dialogue (Option Error) :=
  match e.alterTable? changes with
  | some sql => attempt sql
  -- Without a change nothing is sent.
  | none => return none

/-- Makes the index changes one after the other. -/
def applyIndexes : List IndexChange → Dialogue (Option Error)
  | [] => return none
  | change :: changes => do
    let first ← attempt change.text
    let rest ← applyIndexes changes
    -- The last failure is the result.
    return rest <|> first

def entity (e : Entity) : Dialogue (Option Error) := do
  match ← Dialogue.ask (Catalog.columnsQuery e) with
  | .error err =>
    Dialogue.tell err
    return some err
  | .ok rows =>
    let columns := LiveColumn.ofRows rows
    if columns.isEmpty then
      let created ← attempt e.createTable
      let indexed ← applyIndexes (IndexChange.between e [])
      return indexed <|> created
    else
      let altered ← applyColumns e (ColumnChange.between e columns)
      -- Only now, because dropping a column takes the indexes that use it with it.
      match ← Dialogue.ask (Catalog.indexesQuery e) with
      | .error err =>
        Dialogue.tell err
        return some err
      | .ok rows =>
        let indexed ← applyIndexes (IndexChange.between e (LiveIndex.ofRows rows))
        return indexed <|> altered

/-- Makes the tables of a list of entities match. The result is the failure of the last entity that
had one. -/
def entities : List Entity → Dialogue (Option Error)
  | [] => return none
  | e :: es => do
    let first ← entity e
    let rest ← entities es
    return rest <|> first

def all (r : Registry) : Dialogue (Option Error) := entities r.entities

/-! ## Asking without changing -/

/-- Whether one table matches its entity. -/
def entityIsCurrent (e : Entity) : Dialogue (Except Error Bool) := do
  match ← Dialogue.ask (Catalog.columnsQuery e) with
  | .error err => return .error err
  | .ok rows =>
    let columns := LiveColumn.ofRows rows
    if columns.isEmpty || !(ColumnChange.between e columns).isEmpty then return .ok false
    else
      -- The indexes are read only if the columns match.
      match ← Dialogue.ask (Catalog.indexesQuery e) with
      | .error err => return .error err
      | .ok rows => return .ok (IndexChange.between e (LiveIndex.ofRows rows)).isEmpty

/-- Two answers as one: the later error, or else whether both hold. -/
def both : Except Error Bool → Except Error Bool → Except Error Bool
  | _, .error e => .error e
  | .error e, .ok _ => .error e
  | .ok a, .ok b => .ok (a && b)

/-- Whether the tables of a list of entities match. -/
def entitiesAreCurrent : List Entity → Dialogue (Except Error Bool)
  | [] => return .ok true
  | e :: es => do
    let first ← entityIsCurrent e
    -- The others are looked at even if this table cannot be read.
    let rest ← entitiesAreCurrent es
    return both first rest

def isCurrent (r : Registry) : Dialogue (Except Error Bool) := entitiesAreCurrent r.entities

/-- What would be done to one table. -/
def entityPlan (e : Entity) : Dialogue (Except Error Plan) := do
  match ← Dialogue.ask (Catalog.columnsQuery e) with
  | .error err => return .error err
  | .ok rows =>
    let columns := LiveColumn.ofRows rows
    if columns.isEmpty then return .ok (.of e [] [])
    else
      match ← Dialogue.ask (Catalog.indexesQuery e) with
      | .error err => return .error err
      | .ok rows => return .ok (.of e columns (LiveIndex.ofRows rows))

/-- What would be done to the tables of a list of entities. -/
def entityPlans : List Entity → Dialogue (Except Error (List (String × Plan)))
  | [] => return .ok []
  | e :: es => do
    match ← entityPlan e with
    -- The first table that cannot be read ends the question.
    | .error err => return .error err
    | .ok plan =>
      match ← entityPlans es with
      | .error err => return .error err
      | .ok plans => return .ok ((e.name, plan) :: plans)

/-- What would be done to every registered table, in the order of names. -/
def plan (r : Registry) : Dialogue (Except Error (List (String × Plan))) := entityPlans r.entities

end EntityStore.Reconcile
