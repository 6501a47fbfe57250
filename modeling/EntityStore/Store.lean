import EntityStore.Dialogue
import EntityStore.Schema.Registry
import EntityStore.Statement

/-!
# Operations on rows

What a host does with the rows of its entities. An operation builds its statement first and sends
it only if that succeeds, so an error that can be found without the database is found before
anything is sent, and an operation never sends more than one statement.
-/

set_option autoImplicit false

namespace EntityStore.Store

/-- Sends a statement, if there is one, and reads the rows of its answer. -/
def sending {α : Type} (sql : Except Error String) (read : List Row → Except Error α) :
    Dialogue (Except Error α) :=
  match sql with
  | .error e => .done (.error e)
  | .ok sql => .send sql fun
    | .error e => .done (.error e)
    | .ok rows => .done (read rows)

def statementFor (r : Registry) (entity : String) (build : Entity → Except Error String) :
    Except Error String := do
  let e ← r.entity entity
  build e

def readCount : List Row → Except Error Nat
  | [] => .error .countWithoutRow
  | row :: _ =>
    match (row.lookup Sql.countColumn).bind Row.whole? with
    | some n => if 0 ≤ n then .ok n.toNat else .error .countNotWhole
    | none => .error .countNotWhole

def count (r : Registry) (entity : String) (p : Option Predicate) : Dialogue (Except Error Nat) :=
  sending (statementFor r entity fun e => Sql.count e p) readCount

/-- Inserts a row. -/
def create (r : Registry) (entity : String) (record : Record) : Dialogue (Except Error Int) :=
  sending (statementFor r entity fun e => Sql.insert e record) fun rows =>
    match Row.returnedId? rows with
    -- The result is the identifier the table gave it.
    | some id => .ok id
    | none => .error (.insertWithoutId entity)

/-- Updates the row with the record's identifier or inserts it. The result is the record with its
identifier; a record that has none is created. -/
def upsert (r : Registry) (entity : String) (record : Record) : Dialogue (Except Error Record) :=
  match record.id? with
  | none => do
    match ← create r entity record with
    | .error e => return .error e
    | .ok id => return .ok (record.set identifier (.int id))
  | some _ =>
    sending (statementFor r entity fun e => Sql.upsert e record) fun rows =>
      match Row.returnedId? rows with
      | some id => .ok (record.set identifier (.int id))
      | none => .ok record

def findAll (r : Registry) (entity : String) (f : Filter) : Dialogue (Except Error (List Row)) :=
  sending (statementFor r entity fun e => Sql.select e f) .ok

/-- The row of an identifier, if there is one. -/
def find (r : Registry) (entity : String) (id : Value) : Dialogue (Except Error (Option Row)) :=
  sending (statementFor r entity fun e => Sql.find e id) fun rows => .ok rows.head?

def rowExists (r : Registry) (entity : String) (id : Value) : Dialogue (Except Error Bool) :=
  sending (statementFor r entity fun e => Sql.rowExists e id) fun rows => .ok !rows.isEmpty

def destroy (r : Registry) (entity : String) (id : Value) : Dialogue (Except Error Unit) :=
  sending (statementFor r entity fun e => Sql.deleteRow e id) fun _ => .ok ()

def destroyAll (r : Registry) (entity : String) (p : Option Predicate) :
    Dialogue (Except Error Unit) :=
  sending (statementFor r entity fun e => Sql.delete e p) fun _ => .ok ()

/-- Sets fields of the row of an identifier. -/
def update (r : Registry) (entity : String) (id : Value) (record : Record) :
    Dialogue (Except Error Unit) :=
  match (do let e ← r.entity entity; Sql.update? e id record : Except Error (Option String)) with
  | .error e => .done (.error e)
  -- A record without a field to set succeeds without a statement.
  | .ok none => .done (.ok ())
  | .ok (some sql) => sending (.ok sql) fun _ => .ok ()

/-- Writes every field of a record that has an identifier. -/
def save (r : Registry) (entity : String) (record : Record) : Dialogue (Except Error Unit) :=
  match record.id? with
  | none => .done (.error (.saveWithoutId entity))
  | some id => update r entity id record

end EntityStore.Store
