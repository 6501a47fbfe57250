import EntityStore.Text.Case

/-!
# Indexes

An index has a name, the columns it covers in order, and perhaps an access method. A unique index
with the ordinary access method is realised as a table constraint; every other index is created on
its own.
-/

set_option autoImplicit false

namespace EntityStore

/-- Whether an index admits equal rows. -/
inductive IndexKind where
  | plain
  | unique
  deriving DecidableEq

/-- The kind a declaration names, in any letter case. -/
def IndexKind.ofName? (name : String) : Option IndexKind :=
  -- Naming none means a plain index.
  if name.isEmpty || Text.sameLetters name "plain" then some .plain
  else if Text.sameLetters name "unique" then some .unique
  else none

structure Index where
  name : String
  kind : IndexKind
  method : Option String
  columns : List String
  deriving DecidableEq

namespace Index

def isUnique (i : Index) : Bool := i.kind == .unique

/-- Whether the index is realised as a table constraint. -/
def isConstraint (i : Index) : Bool :=
  i.isUnique && match i.method with
    | none => true
    | some method => Text.sameLetters method "btree"

end Index

end EntityStore
