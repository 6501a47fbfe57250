import EntityStore.Error
import EntityStore.Text.Split
import EntityStore.Value

/-!
# Operators and patterns

How a filter compares an attribute with something other than a single equal value. An operator of
a name that is not one of the known ones is passed through as it is written, and so is the source
of a pattern: both are trusted.
-/

set_option autoImplicit false

namespace EntityStore

/-- A comparison with one or more operands. -/
inductive Operator where
  | greater (v : Value)
  | greaterOrEqual (v : Value)
  | less (v : Value)
  | lessOrEqual (v : Value)
  | between (low high : Value)
  | oneOf (vs : List Value)
  | noneOf (vs : List Value)
  | notEqual (v : Value)
  | like (v : Value)
  | notLike (v : Value)
  | verbatim (token : String) (v : Value)

namespace Operator

/-- The values of a set operand: the items of a list, or a single value. -/
def setOf : Document → List Value
  | .list items => items.map Value.ofDocument
  | d => [Value.ofDocument d]

/-- The operator under a key of a filter. -/
def ofKey (key : String) (operand : Document) : Except Error Operator :=
  match key with
  | "gt" => .ok (.greater (.ofDocument operand))
  | "gte" => .ok (.greaterOrEqual (.ofDocument operand))
  | "lt" => .ok (.less (.ofDocument operand))
  | "lte" => .ok (.lessOrEqual (.ofDocument operand))
  | "neq" => .ok (.notEqual (.ofDocument operand))
  | "like" => .ok (.like (.ofDocument operand))
  | "nlike" => .ok (.notLike (.ofDocument operand))
  | "between" =>
    match operand with
    | .list [low, high] => .ok (.between (.ofDocument low) (.ofDocument high))
    -- Only a range can be malformed.
    | d => .error (.rangeNotPair d.compact)
  | "inq" => .ok (.oneOf (setOf operand))
  | "nin" => .ok (.noneOf (setOf operand))
  | token => .ok (.verbatim token (.ofDocument operand))

end Operator

/-- A regular expression to match a column with. -/
structure Pattern where
  source : String
  ignoreCase : Bool
  deriving DecidableEq

namespace Pattern

/-- A pattern in the form `/source/flags`, of which only the flag `i` has a meaning. A text without
two slashes around it is a source as a whole. -/
def ofText (text : String) : Pattern :=
  match text.toList with
  | '/' :: rest =>
    match Text.aroundLast '/' rest with
    | some (source, flags) => ⟨String.ofList source, flags.contains 'i'⟩
    | none => ⟨text, false⟩
  | _ => ⟨text, false⟩

end Pattern

end EntityStore
