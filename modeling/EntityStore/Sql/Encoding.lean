import EntityStore.Calendar.Reader
import EntityStore.Error
import EntityStore.Schema.Attribute
import EntityStore.Sql.Literal
import EntityStore.Text.Blank

/-!
# Encoding values for an attribute

What literal a value becomes depends on the type of the attribute it is for. Structured attributes
store the text of a document. Numbers may arrive as text and are then written as bare numerals if
they are numerals. Dates may arrive as text or as milliseconds, and only a date can fail: every
other type has a literal for every value.

Some values count as absent for some types: a blank text is no number and no date, and neither is
`false`. An absent value has one literal in comparisons, `NULL`, and another in rows, which for an
attribute that the table counts up itself is `DEFAULT`.
-/

set_option autoImplicit false

namespace EntityStore.Sql

/-! ## Numbers -/

/-- A text for a numeric attribute. -/
def numberText (absent s : String) : String :=
  let trimmed := Text.trim s
  if trimmed.isEmpty then absent
  else match Numeral.int64? trimmed with
    -- Whole numbers of 64 bits are read exactly, any other numeral as the nearest double.
    | some n => Numeral.ofInt n
    | none => match Double.ofText? trimmed with
      | some x => if x.isFinite then Layout.query.text x else quoteText s
      -- What is no finite number stays text.
      | none => quoteText s

/-- A value for a numeric attribute. -/
def number (absent : String) : Value → String
  | .int n => Numeral.ofInt n
  | .float x => floatLiteral x
  | .bool false => absent
  | .text s => numberText absent s
  | v => literal v

/-! ## Dates -/

/-- The instant a number of milliseconds from the beginning of 1970. -/
def instantOfMillis (ms : Int) : Except Error Instant :=
  match Instant.ofMillis? ms with
  | some t => .ok t
  | none => .error (.instantOutOfRange ms)

/-- The instant a value means, or nothing if the value counts as absent. -/
def toInstant : Value → Except Error (Option Instant)
  | .date t => .ok (some t)
  | .null | .bool false => .ok none
  -- A zero of any kind is absent, although it would be a number of milliseconds.
  | .int ms => if ms = 0 then .ok none else (instantOfMillis ms).map some
  | .float x =>
    if !x.isFinite then .error (.valueNotDate (Value.shown (.float x)))
    else if x.isZero then .ok none
    else (instantOfMillis x.truncate64).map some
  | .text s =>
    let trimmed := Text.trim s
    if trimmed.isEmpty then .ok none
    else match Instant.ofText? trimmed with
      | some t => .ok (some t)
      | none => .error (.textNotDate s)
  | v => .error (.valueNotDate v.shown)

/-! ## Any attribute -/

/-- The literal of a value for an attribute, `absent` standing for the values that count as absent
for its type. -/
def encode (absent : String) (a : Attribute) (v : Value) : Except Error String :=
  if v.isNull then .ok absent
  else if a.type.isStructured then .ok (quoteText v.documentText)
  else match a.type with
    | .number _ => .ok (number absent v)
    | .date => do
      match ← toInstant v with
      | some t => .ok (instantLiteral t)
      | none => .ok absent
    | _ => .ok (literal v)

/-- The literal that a row stores. -/
def stored (a : Attribute) (v : Value) : Except Error String :=
  encode (if a.autoIncrement then default else null) a v

/-- The literal that a comparison uses. Absence is never the column's default here. -/
def compared (a : Attribute) (v : Value) : Except Error String := encode null a v

end EntityStore.Sql
