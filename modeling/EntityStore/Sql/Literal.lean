import EntityStore.Sql.Quoting
import EntityStore.Value

/-!
# Literals

A value as a literal of the query language, without regard to any attribute. Numbers stand bare;
those that are not finite have no numeral and are written as the quoted words that the database
reads as numbers.
-/

set_option autoImplicit false

namespace EntityStore.Sql

/-- The literal of the absent value. A comparison with it is never true, so whoever compares looks
out for this text and asks for absence instead. -/
def null : String := "NULL"

/-- The word that stands for the column's own default. -/
def default : String := "DEFAULT"

def floatLiteral : Double → String
  | .nan => "'NaN'"
  | .infinity negative => if negative then "'-Infinity'" else "'Infinity'"
  | x => Layout.query.text x

def instantLiteral (t : Instant) : String := "TIMESTAMP WITH TIME ZONE '" ++ t.text ++ "'"

def literal : Value → String
  | .null => null
  | .bool b => if b then "true" else "false"
  | .int n => Numeral.ofInt n
  | .float x => floatLiteral x
  | .date t => instantLiteral t
  | .text s => quoteText s
  | .document d => quoteText d.compact

end EntityStore.Sql
