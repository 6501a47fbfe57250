import EntityStore.Schema.Registry
import EntityStore.Settings.Members
import EntityStore.Text.Blank

/-!
# Declarations

Entities as a settings file declares them, before they are registered. A declaration is close to
the entity it declares but not yet one: the kind of an index is still a word, which may be none of
the known ones, and its columns may be a single text with commas.

Registering a list of declarations goes through them in order and stops at the first one that
declares an unknown kind of index; the entities before it stay registered.
-/

set_option autoImplicit false

namespace EntityStore

structure AttributeDeclaration where
  name : String
  type : String
  kind : Option NumberKind
  size : Option Nat
  nullable : Bool
  autoIncrement : Bool
  unique : Bool
  indexed : Bool

/-- A declared index, its kind still a word. -/
structure IndexDeclaration where
  name : String
  kind : String
  method : Option String
  columns : List String

structure EntityDeclaration where
  name : String
  table : Option String
  attributes : List AttributeDeclaration
  indexes : List IndexDeclaration

namespace NumberKind

/-- The kind a word names. -/
def ofName? : String → Option NumberKind
  | "integer" => some .integer
  | "float" | "double" => some .float
  | "numeric" => some .numeric
  | _ => none

/-- Reads a kind: its word, alone or as the only key of an object that holds nothing. -/
def ofDocument? : Document → Option NumberKind
  | .text name => ofName? name
  | .object [(name, .null)] => ofName? name
  | _ => none

end NumberKind

namespace AttributeDeclaration

def ofDocument? (d : Document) : Option AttributeDeclaration := do
  let m ← Members.of? 8 d
  let name ← m.required 0 "name" Document.text?
  let type ← m.required 1 "type" Document.text?
  let kind ← m.defaulted 2 ["data_type", "dataType"] none
    (Members.nullable NumberKind.ofDocument?)
  let size ← m.optional 3 "size" (Members.count? Numeral.maxNat32)
  let nullable ← m.defaulted 4 ["nullable"] true Members.bool?
  let autoIncrement ← m.defaulted 5 ["auto_increment"] false Members.bool?
  let unique ← m.defaulted 6 ["unique"] false Members.bool?
  let indexed ← m.defaulted 7 ["index"] false Members.bool?
  return { name, type, kind, size, nullable, autoIncrement, unique, indexed }

def toAttribute (d : AttributeDeclaration) : Attribute :=
  { name := d.name
    type := .ofName d.type d.kind
    size := d.size
    nullable := d.nullable
    autoIncrement := d.autoIncrement
    unique := d.unique
    indexed := d.indexed }

end AttributeDeclaration

namespace IndexDeclaration

/-- Reads the columns of an index: a list of names, which are taken as they are, or one text with
commas, around which blanks mean nothing. -/
def columns? : Document → Option (List String)
  | .text s => some ((Text.pieces ',' s).map Text.trim)
  | d => Members.list? Document.text? d

def ofDocument? (d : Document) : Option IndexDeclaration := do
  let m ← Members.of? 4 d
  let name ← m.required 0 "name" Document.text?
  let kind ← m.defaulted 1 ["kind"] "" Document.text?
  let method ← m.optional 2 "type" Document.text?
  let columns ← m.required 3 "columns" columns?
  return { name, kind, method, columns }

/-- The index that is declared, if its kind is a known one. -/
def toIndex (d : IndexDeclaration) : Except Error Index :=
  match IndexKind.ofName? d.kind with
  | some kind => .ok ⟨d.name, kind, d.method, d.columns⟩
  | none => .error (.unknownIndexKind d.name d.kind)

end IndexDeclaration

namespace EntityDeclaration

def ofDocument? (d : Document) : Option EntityDeclaration := do
  let m ← Members.of? 4 d
  let name ← m.required 0 "name" Document.text?
  let table ← m.optional 1 "table" Document.text?
  let attributes ← m.defaulted 2 ["attributes"] []
    (Members.list? AttributeDeclaration.ofDocument?)
  let indexes ← m.defaulted 3 ["indexes"] [] (Members.list? IndexDeclaration.ofDocument?)
  return { name, table, attributes, indexes }

/-- The entity that is declared, if all its indexes are of known kinds. -/
def toEntity (d : EntityDeclaration) : Except Error Entity := do
  let indexes ← d.indexes.mapM IndexDeclaration.toIndex
  return Entity.declare d.name d.table (d.attributes.map AttributeDeclaration.toAttribute) indexes

end EntityDeclaration

namespace Registry

/-- The registry with declared entities, in their order, up to the first that cannot be one, and
the error that ended it. -/
def registerAll (r : Registry) : List EntityDeclaration → Registry × Option Error
  | [] => (r, none)
  | d :: ds =>
    match d.toEntity with
    | .ok e => registerAll (r.register e) ds
    | .error err => (r, some err)

end Registry

end EntityStore
