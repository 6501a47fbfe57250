import EntityStore.Filter.Predicate
import EntityStore.Text.Blank

/-!
# Filters

A filter says which rows, in what order, and how many. Its parts are independent: any may be
missing. A filter may also be given as finished text, which then replaces all the others.

Hosts send filters as objects. Only the predicate can be malformed; an order or a count that is
none is treated as missing.
-/

set_option autoImplicit false

namespace EntityStore

/-- Which rows, in what order, and how many. -/
structure Filter where
  predicate : Option Predicate
  order : Option String
  limit : Option Nat
  offset : Option Nat
  /-- Text that stands for the whole filter. -/
  prebuilt : Option String

namespace Filter

/-- The filter that selects every row. -/
def all : Filter := ⟨none, none, none, none, none⟩

def matching (p : Predicate) : Filter := { all with predicate := some p }

/-- A count: a whole number that is not negative, or a text that writes one. -/
def count? : Document → Option Nat
  | .number (.whole n) => if 0 ≤ n then some n.toNat else none
  | .text s => Numeral.natUpTo? Numeral.maxNat64 (Text.trim s)
  | _ => none

/-- An order: a text, or the texts of a list one after the other. -/
def order? : Document → Option String
  | .text s => some s
  | .list terms => some (" ".intercalate (terms.filterMap Document.text?))
  | _ => none

def ofDocument (d : Document) : Except Error Filter :=
  match d with
  | .object _ => do
    let predicate ← match d.entry? "where" with
      | none | some .null => pure none
      | some d => (Predicate.ofDocument d).map some
    return {
      predicate
      order := (d.entry? "order").bind order?
      limit := (d.entry? "limit").bind count?
      offset := (d.entry? "offset").bind count?
      prebuilt := none }
  | _ => .error .filterNotObject

end Filter

end EntityStore
