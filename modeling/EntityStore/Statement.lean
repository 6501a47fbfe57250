import EntityStore.Filter.Compiled
import EntityStore.Record

/-!
# Statements on rows

The statements that select, count, insert, update and delete the rows of an entity. Every name in
them is quoted and every value is a literal of its attribute's type, so nothing a record or an
identifier holds can become part of a statement's structure. Fields that the entity does not
declare are left out, and the identifier is never among the fields a statement sets: the table
counts it up itself, or the statement names the row by it.

A statement that names a row refuses an identifier that encodes as absent, because a comparison
with it would silently match nothing.
-/

set_option autoImplicit false

namespace EntityStore

namespace Sql

def countColumn : String := "cnt"

/-- A column and the literal that goes into it. -/
structure Field where
  column : String
  literal : String

/-- The literal of an identifier. -/
def identifierLiteral (e : Entity) (id : Value) : Except Error String :=
  match e.attribute? identifier with
  | none => .error (.unknownEntity e.name)
  | some a => do
    let text ← stored a id
    -- One that is absent identifies nothing.
    if text = null || text = default then .error (.nullIdentifier e.name) else return text

/-- The condition that names a row. -/
def identifierTail (e : Entity) (id : Value) : Except Error String := do
  let text ← identifierLiteral e id
  return " WHERE " ++ quoteIdentifier identifier ++ " = " ++ text

/-- The fields of a list that the entity declares, the identifier apart, in their order. -/
def fieldsOf (e : Entity) : List (String × Value) → Except Error (List Field)
  | [] => .ok []
  | (name, v) :: rest =>
    match e.attribute? name with
    | none => fieldsOf e rest
    | some a =>
      if a.isIdentifier then fieldsOf e rest
      else do
        let text ← stored a v
        let fields ← fieldsOf e rest
        return ⟨a.name, text⟩ :: fields

def columnList (fields : List Field) : String := quoteColumns (fields.map (·.column))

def literalList (fields : List Field) : String := ",".intercalate (fields.map (·.literal))

def assignments (fields : List Field) : String :=
  ",".intercalate (fields.map fun f => quoteIdentifier f.column ++ " = " ++ f.literal)

/-- Selects the rows of a filter, every declared column in order. -/
def select (e : Entity) (f : Filter) : Except Error String := do
  let tail ← filterTail e f
  return "SELECT " ++ quoteColumns e.columnNames ++ " FROM " ++ e.quotedTable ++ tail

/-- The tail of a statement that takes a predicate, or every row. -/
def predicateTail (e : Entity) : Option Predicate → Except Error String
  | some p => (clauses e p).map whereTail
  | none => .ok ""

def count (e : Entity) (p : Option Predicate) : Except Error String := do
  let tail ← predicateTail e p
  return "SELECT count(" ++ quoteIdentifier identifier ++ ") as " ++ countColumn
    ++ " FROM " ++ e.quotedTable ++ tail

def delete (e : Entity) (p : Option Predicate) : Except Error String := do
  let tail ← predicateTail e p
  return "DELETE FROM " ++ e.quotedTable ++ tail

/-- Inserts a row and asks for its identifier. -/
def insert (e : Entity) (r : Record) : Except Error String := do
  let fields ← fieldsOf e r.fields
  let body := if fields.isEmpty then " DEFAULT VALUES"
    else " (" ++ columnList fields ++ ") VALUES (" ++ literalList fields ++ ")"
  return "INSERT INTO " ++ e.quotedTable ++ body ++ " RETURNING id"

/-- Updates the row with the record's identifier, or inserts it if there is none. -/
def upsert (e : Entity) (r : Record) : Except Error String := do
  let id ← match r.id? with
    | some id => pure id
    | none => .error (.upsertWithoutId e.name)
  let tail ← identifierTail e id
  let fields ← fieldsOf e r.fields
  let key ← identifierLiteral e id
  let update := if fields.isEmpty then ""
    else "UPDATE " ++ e.quotedTable ++ " SET " ++ assignments fields ++ tail ++ "; "
  let inserted := ⟨identifier, key⟩ :: fields
  -- The two statements are one text, so that they travel together. Only the second one returns
  -- a row.
  return update ++ "INSERT INTO " ++ e.quotedTable ++ " (" ++ columnList inserted ++ ") SELECT "
    ++ literalList inserted ++ " WHERE NOT EXISTS (SELECT 1 FROM " ++ e.quotedTable ++ tail
    ++ ") RETURNING id"

/-- Updates one row. -/
def update? (e : Entity) (id : Value) (r : Record) : Except Error (Option String) := do
  let fields ← fieldsOf e r.fields
  -- Without a field to set it does not matter what the identifier is.
  if fields.isEmpty then return none
  else do
    let tail ← identifierTail e id
    return some ("UPDATE " ++ e.quotedTable ++ " SET " ++ assignments fields ++ tail)

def deleteRow (e : Entity) (id : Value) : Except Error String := do
  let tail ← identifierTail e id
  return "DELETE FROM " ++ e.quotedTable ++ tail

def find (e : Entity) (id : Value) : Except Error String := do
  let tail ← identifierTail e id
  return "SELECT " ++ quoteColumns e.columnNames ++ " FROM " ++ e.quotedTable ++ tail ++ " LIMIT 1"

def rowExists (e : Entity) (id : Value) : Except Error String := do
  let tail ← identifierTail e id
  return "SELECT 1 AS " ++ quoteIdentifier "exists" ++ " FROM " ++ e.quotedTable ++ tail
    ++ " LIMIT 1"

end Sql

end EntityStore
