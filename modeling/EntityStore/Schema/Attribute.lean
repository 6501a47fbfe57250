import EntityStore.Text.Case
import EntityStore.Text.Numeral

/-!
# Attributes

An attribute is a named, typed field of an entity. Its type is abstract: it fixes how values are
encoded and which column type the table gets, with an optional size for the column.

Declarations name types by words. A word that names no type means text of bounded length, so a
declaration written for a richer system still yields a table.
-/

set_option autoImplicit false

namespace EntityStore

inductive NumberKind where
  | integer
  | float
  | numeric
  deriving DecidableEq

inductive AttributeType where
  | string
  | text
  | number (kind : NumberKind)
  | date
  | boolean
  | json
  | array
  deriving DecidableEq

namespace AttributeType

/-- The type a word names, in any letter case. -/
def ofName (name : String) (kind : Option NumberKind) : AttributeType :=
  match Text.lower name with
  | "string" | "varchar" => .string
  | "text" => .text
  -- This word leaves its kind to the declaration.
  | "number" => .number (kind.getD .integer)
  | "integer" | "int" => .number .integer
  | "float" | "double" => .number .float
  | "numeric" | "decimal" => .number .numeric
  | "date" | "timestamp" => .date
  | "boolean" | "bool" => .boolean
  | "json" | "object" => .json
  | "array" => .array
  | _ => .string

/-- Whether values of the type are stored as the text of a document. -/
def isStructured : AttributeType → Bool
  | .json | .array => true
  | _ => false

end AttributeType

/-- The attribute that identifies a row. Every entity has it and no declaration can change it. -/
def identifier : String := "id"

/-- A field of an entity. -/
structure Attribute where
  name : String
  type : AttributeType
  size : Option Nat
  nullable : Bool
  autoIncrement : Bool
  unique : Bool
  indexed : Bool
  deriving DecidableEq

namespace Attribute

/-- An attribute with nothing said about it but its type: it may be null and has no index. -/
def plain (name : String) (type : AttributeType) : Attribute :=
  ⟨name, type, none, true, false, false, false⟩

def isIdentifier (a : Attribute) : Bool := a.name == identifier

/-- The identifier of every entity: a whole number that the table counts up itself. -/
def ofIdentifier : Attribute :=
  { plain identifier (.number .integer) with nullable := false, autoIncrement := true }

/-! ## Column types -/

/-- The size in parentheses, if there is one. -/
def sizeSuffix (a : Attribute) : String :=
  match a.size with
  | some n => "(" ++ Numeral.ofNat n ++ ")"
  | none => ""

/-- The column type a table is created with. -/
def columnType (a : Attribute) : String :=
  match a.type with
  | .string | .json | .array => "varchar" ++ a.sizeSuffix
  | .text => "text" ++ a.sizeSuffix
  | .number .float => "float" ++ a.sizeSuffix
  | .number .numeric => "numeric" ++ a.sizeSuffix
  | .number .integer => "integer" ++ a.sizeSuffix
  -- Dates and truth values have no size.
  | .date => "timestamp with time zone"
  | .boolean => "boolean"

def columnDefinition (a : Attribute) : String :=
  if a.nullable then a.columnType else a.columnType ++ " NOT NULL"

/-- The type under which the catalog reports the column. A floating-point column of a given
precision is one of two fixed types: up to twenty-four bits the short one, above that the long
one. -/
def reportedType (a : Attribute) : String :=
  match a.type, a.size with
  | .number .float, some n => if n ≤ 24 then "real" else "float"
  | _, _ => a.columnType

end Attribute

/-- The word a declaration would use for a type that the catalog reports under an internal name. A
name without such a word stands for itself. -/
def declaredTypeName : String → String
  | "int4" => "integer"
  | "int8" => "bigint"
  | "int2" => "smallint"
  | "bool" => "boolean"
  | "float8" => "float"
  | "float4" => "real"
  | "timestamptz" => "timestamp with time zone"
  | "timestamp" => "timestamp without time zone"
  | "bpchar" => "char"
  | other => other

end EntityStore
