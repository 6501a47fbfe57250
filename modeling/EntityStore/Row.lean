import EntityStore.Document.Printer
import EntityStore.Error
import EntityStore.Schema.Attribute
import EntityStore.Text.Blank

/-!
# Result rows

A row of an answer is a document for each column. Over a text protocol a whole number may come
back as text, so whoever expects one reads both.
-/

set_option autoImplicit false

namespace EntityStore

/-- One row of an answer: a document for each column name. -/
abbrev Row := List (String × Document)

/-- What a statement comes back with. -/
abbrev Answer := Except Error (List Row)

namespace Row

/-- A whole number of 64 bits, as a number or as text. -/
def whole? : Document → Option Int
  | .number (.whole n) => if FitsInt64 n then some n else none
  | .text s => Numeral.int64? (Text.trim s)
  | _ => none

/-- The identifier that came back: that of the first row that has one. -/
def returnedId? (rows : List Row) : Option Int :=
  rows.findSome? fun row => (row.lookup identifier).bind whole?

end Row

end EntityStore
