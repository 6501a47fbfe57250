import EntityStore.Schema.Attribute
import EntityStore.Schema.Index
import EntityStore.Sql.Quoting

/-!
# Entities

An entity is a declared table: a name by which the host knows it, the table that holds it, its
attributes in order and its indexes. `Entity.declare` is the only way a declaration becomes one,
and it settles what declarations leave open. The identifier comes first and is always the same;
of attributes with one name the last description stands in the place of the first; of explicit
indexes with one name the first stands; and an attribute that is flagged as unique or indexed gets
an index of a derived name, unless there is one of that name already.
-/

set_option autoImplicit false

namespace EntityStore

/-- A declared table. -/
structure Entity where
  name : String
  table : String
  attributes : List Attribute
  indexes : List Index
  deriving DecidableEq

namespace Entity

def attribute? (e : Entity) (name : String) : Option Attribute :=
  e.attributes.find? (·.name == name)

def index? (e : Entity) (name : String) : Option Index := e.indexes.find? (·.name == name)

/-- Every attribute but the identifier. -/
def columns (e : Entity) : List Attribute := e.attributes.filter (!·.isIdentifier)

def columnNames (e : Entity) : List String := e.attributes.map (·.name)

/-- The table's name, quoted part by part. -/
def quotedTable (e : Entity) : String := Sql.quoteQualified e.table

/-- The schema of the table, if its name is qualified, and the table's own name: what stands before
and after the last dot. -/
def tableParts (e : Entity) : Option String × String :=
  match Text.aroundLast '.' e.table.toList with
  | some (schema, table) => (some (String.ofList schema), String.ofList table)
  | none => (none, e.table)

/-! ## Declaring -/

/-- An attribute list with one more: in the place of the one of its name, or at the end. -/
def setAttribute (a : Attribute) : List Attribute → List Attribute
  | [] => [a]
  | b :: rest => if b.name = a.name then a :: rest else b :: setAttribute a rest

/-- The attributes of an entity: the identifier, then what was declared. -/
def attributesOf (declared : List Attribute) : List Attribute :=
  -- Declarations of the identifier have no effect.
  declared.foldl (fun as a => if a.isIdentifier then as else setAttribute a as)
    [.ofIdentifier]

/-- An index list with one more, unless its name is taken. -/
def addIndex (is : List Index) (i : Index) : List Index :=
  if is.any (·.name == i.name) then is else is ++ [i]

/-- The index that an attribute's flags ask for. -/
def derivedIndex? (entity : String) (a : Attribute) : Option Index :=
  -- Uniqueness asks for a unique one, whatever the other flag says.
  if a.unique then
    some ⟨entity ++ "_" ++ a.name ++ "_key", .unique, none, [a.name]⟩
  else if a.indexed then
    some ⟨entity ++ "_" ++ a.name ++ "_idx", .plain, none, [a.name]⟩
  else none

/-- The indexes of an entity: the explicit ones, then those the attributes ask for. -/
def indexesOf (entity : String) (attributes : List Attribute) (explicit : List Index) :
    List Index :=
  let derived := (attributes.filter (!·.isIdentifier)).filterMap (derivedIndex? entity)
  (explicit ++ derived).foldl addIndex []

/-- The entity of a declaration. Without a table of its own it is kept in the one of its name. -/
def declare (name : String) (table : Option String) (attributes : List Attribute)
    (indexes : List Index) : Entity :=
  let attributes := attributesOf attributes
  { name
    table := table.getD name
    attributes
    indexes := indexesOf name attributes indexes }

end Entity

end EntityStore
