import EntityStore.Filter.Operator

/-!
# Predicates

What a row has to satisfy to be selected, counted or deleted. A predicate is trusted text, a
template of trusted text with values to fill in, or a list of clauses that must all hold. A clause
compares one attribute, or holds a choice between predicates, or is trusted text.

Hosts send predicates as documents. Text is trusted text; a list is a template and its values; an
object has one clause for each entry, in the order of the entries. The entries `or` and `arbitrary`
have meanings of their own, `or` only if it holds a list. An entry that holds an object with a
single key asks for the operator of that name; any other object is just a value to be equal to.
-/

set_option autoImplicit false

namespace EntityStore

/-- What a clause asks of an attribute. -/
inductive Condition where
  | equals (v : Value)
  | operator (op : Operator)
  | pattern (p : Pattern)

mutual

/-- What a row has to satisfy. -/
inductive Predicate where
  /-- Trusted text. -/
  | raw (sql : String)
  /-- Trusted text with a value for each question mark. -/
  | template (sql : String) (params : List Value)
  /-- Clauses that must all hold. -/
  | all (clauses : List Clause)

inductive Clause where
  /-- A condition on an attribute. -/
  | attribute (name : String) (condition : Condition)
  /-- At least one of the predicates must hold. -/
  | any (branches : List Predicate)
  /-- Trusted text. -/
  | arbitrary (sql : String)

end

namespace Predicate

def empty : Predicate := .all []

/-- A predicate with one more clause. -/
def add : Predicate → Clause → Predicate
  | .all clauses, c => .all (clauses ++ [c])
  -- Trusted text and templates take no clause: adding one starts anew and drops them.
  | _, c => .all [c]

/-- The condition an object's entry states. -/
def conditionOf : Document → Except Error Condition
  | .object [("regexp", .text source)] => .ok (.pattern (.ofText source))
  | .object [("regexp", other)] => .error (.patternNotText other.compact)
  | .object [(key, operand)] => (Operator.ofKey key operand).map .operator
  | d => .ok (.equals (.ofDocument d))

/-- The text of a trusted entry: text as it is, anything else as a document. -/
def trusted : Document → String
  | .text sql => sql
  | d => d.compact

/-- Reads the clause of an entry that is no choice between predicates. -/
def plainClause (key : String) (d : Document) : Except Error Clause :=
  if key = "arbitrary" then .ok (.arbitrary (trusted d)) else (conditionOf d).map (.attribute key)

mutual

def ofDocument : Document → Except Error Predicate
  | .text sql => .ok (.raw sql)
  | .list (.text sql :: params) => .ok (.template sql (params.map Value.ofDocument))
  | .list _ => .error .templateWithoutText
  | .object entries => (clausesOf entries).map .all
  | d => .error (.predicateUnreadable d.compact)

/-- Reads the clauses of an object's entries. -/
def clausesOf : List (String × Document) → Except Error (List Clause)
  | [] => .ok []
  | (key, value) :: rest => do
    -- The first entry that cannot be read decides the error.
    let clause ← clauseOf key value
    let clauses ← clausesOf rest
    return clause :: clauses

def clauseOf (key : String) : Document → Except Error Clause
  | .list branches =>
    if key = "or" then (branchesOf branches).map .any else plainClause key (.list branches)
  | d => plainClause key d

def branchesOf : List Document → Except Error (List Predicate)
  | [] => .ok []
  | d :: rest => do
    let branch ← ofDocument d
    let branches ← branchesOf rest
    return branch :: branches

end

end Predicate

end EntityStore
