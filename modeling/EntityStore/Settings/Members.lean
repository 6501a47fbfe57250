import EntityStore.Document.Basic

/-!
# Members of a declaration

Declarations are documents of a fixed shape. The members of one are found by name in an object, or
by position in a list, and unknown names are passed over. A member may be required, may be left
out, or may have a value of its own when it is left out; in a list only the last sort can be
missing. A member that goes by two names must not be given under both.

What cannot be read is told apart from what is left out, but not described: whoever reads a
declaration only learns that it is none.
-/

set_option autoImplicit false

namespace EntityStore

/-- The members of a declaration. -/
inductive Members where
  | named (entries : List (String × Document))
  | listed (items : List Document)

namespace Members

/-- The members of a document that has any; a list must not have more than `most`. -/
def of? (most : Nat) : Document → Option Members
  | .object entries => some (.named entries)
  | .list items => if items.length ≤ most then some (.listed items) else none
  | _ => none

/-- What is found for a member. -/
inductive Found where
  | missing
  | one (d : Document)
  | several

/-- Looks for a member by its names, or at its position. -/
def find (m : Members) (position : Nat) (names : List String) : Found :=
  match m with
  | .named entries =>
    match entries.filter fun e => names.contains e.1 with
    | [] => .missing
    | [(_, d)] => .one d
    | _ => .several
  | .listed items =>
    match items[position]? with
    | some d => .one d
    | none => .missing

/-- A member that must be there. -/
def required {α : Type} (m : Members) (position : Nat) (name : String)
    (read : Document → Option α) : Option α :=
  match m.find position [name] with
  | .one d => read d
  | _ => none

/-- A member with a value of its own when it is left out. -/
def defaulted {α : Type} (m : Members) (position : Nat) (names : List String) (value : α)
    (read : Document → Option α) : Option α :=
  match m.find position names with
  | .one d => read d
  | .missing => some value
  | .several => none

/-- Null as the lack of a value. -/
def nullable {α : Type} (read : Document → Option α) : Document → Option (Option α)
  | .null => some none
  | d => (read d).map some

/-- A member that may be left out of an object, or be null. -/
def optional {α : Type} (m : Members) (position : Nat) (name : String)
    (read : Document → Option α) : Option (Option α) :=
  match m, m.find position [name] with
  | _, .one d => nullable read d
  | .named _, .missing => some none
  | _, _ => none

/-! ## Reading the values of members -/

def bool? : Document → Option Bool
  | .bool b => some b
  | _ => none

/-- A count up to a bound. -/
def count? (greatest : Nat) (d : Document) : Option Nat :=
  (d.wholeWithin? 0 greatest).map Int.toNat

/-- A list, each of its items read alike. -/
def list? {α : Type} (read : Document → Option α) : Document → Option (List α)
  | .list items => items.mapM read
  | _ => none

end Members

end EntityStore
