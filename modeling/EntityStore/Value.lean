import EntityStore.Calendar.Instant
import EntityStore.Document.Printer
import EntityStore.Document.Reader

/-!
# Values

What a host supplies for an attribute, compares one with, or puts into a template: nothing, a truth
value, a number, text, an instant, or a structured document. Documents cross the boundary in both
directions. On the way in their scalars become values of their own and only lists and objects stay
documents; on the way out every value has a document that stands for it.
-/

set_option autoImplicit false

namespace EntityStore

inductive Value where
  | null
  | bool (b : Bool)
  | int (n : Int)
  | float (x : Double)
  | text (s : String)
  | date (t : Instant)
  | document (d : Document)

namespace Value

/-- The absence of a value. A document that is null is not the absence of one. -/
def isNull : Value → Bool
  | .null => true
  | _ => false

/-- A double from a number of a document. -/
def doubleOf : DocumentNumber → Double
  | .whole n => Format.double.round (decide (n < 0)) n.natAbs 1
  | .double x => x

/-- The value a document stands for. A whole number beyond the signed range is the nearest
double. -/
def ofDocument : Document → Value
  | .null => .null
  | .bool b => .bool b
  | .number (.whole n) => if FitsInt64 n then .int n else .float (doubleOf (.whole n))
  | .number (.double x) => .float x
  | .text s => .text s
  | d => .document d

/-- The document that stands for a value. Numbers that are not finite have none but null; an
instant is its text. -/
def toDocument : Value → Document
  | .null => .null
  | .bool b => .bool b
  | .int n => .number (.whole n)
  | .float x => if x.isFinite then .number (.double x) else .null
  | .text s => .text s
  | .date t => .text t.text
  | .document d => d

/-- The document's text: the stored form of a structured attribute. -/
def documentText (v : Value) : String := v.toDocument.compact

/-- The value as a message shows it: text and instants bare, documents in compact form. -/
def shown : Value → String
  | .null => "null"
  | .bool b => if b then "true" else "false"
  | .int n => Numeral.ofInt n
  | .float x => Layout.query.text x
  | .text s => s
  | .date t => t.text
  | .document d => d.compact

theorem isNull_iff {v : Value} : v.isNull = true ↔ v = .null := by
  cases v <;> simp [isNull]

end Value

end EntityStore
