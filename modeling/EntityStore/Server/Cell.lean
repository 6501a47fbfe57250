import EntityStore.Calendar.Reader
import EntityStore.Row
import EntityStore.Value

/-!
# Cells of a result

A server answers in text: each cell is a text or nothing, and the type of its column says what the
text means. Reading a cell never fails. One that its type cannot read is null, and a column of a
type without a meaning of its own keeps the text.
-/

set_option autoImplicit false

namespace EntityStore

/-- A column of a result: its name and the name of its type. -/
structure ResultColumn where
  name : String
  type : String

/-- A result as the server sends it: the columns and, for each row, the cells in their order. -/
structure ResultSet where
  columns : List ResultColumn
  rows : List (List (Option String))

def ResultSet.empty : ResultSet := ⟨[], []⟩

namespace Cell

/-- A whole number of so many bits. -/
def whole (bits : Nat) (s : String) : Document :=
  let bound : Int := Nat.pow 2 (bits - 1)
  match Numeral.intWithin? (-bound) (bound - 1) s.toList with
  | some n => .number (.whole n)
  | none => .null

/-- A number of a binary format, if it is finite. -/
def float (f : Format) (s : String) : Document :=
  match Double.ofFreeText? f s with
  | some x => if x.isFinite then .number (.double x.widened) else .null
  | none => .null

/-! ## Unique identifiers -/

/-- Thirty-two hexadecimal digits, in lower case. -/
def hex32? (cs : List Char) : Option (List Char) :=
  if cs.length = 32 ∧ cs.all Numeral.isHexDigit then
    some (cs.map Char.toLower)
  else none

/-- The groups of a unique identifier with hyphens between them. -/
def hyphenated (cs : List Char) : List Char :=
  cs.take 8 ++ '-' :: (cs.drop 8).take 4 ++ '-' :: (cs.drop 12).take 4
    ++ '-' :: (cs.drop 16).take 4 ++ '-' :: cs.drop 20

/-- The digits of a unique identifier in groups. -/
def grouped? (cs : List Char) : Option (List Char) := do
  let digits ← hex32? (cs.filter (· != '-'))
  if hyphenated digits = cs.map Char.toLower then some digits else none

/-- A unique identifier: its digits alone, or in groups, which may stand in braces or after the
mark of a resource name. It is written in groups and lower case. -/
def uuid? (s : String) : Option String :=
  let cs := s.toList
  let digits :=
    if cs.length = 32 then hex32? cs
    else if cs.length = 36 then grouped? cs
    else if cs.length = 38 ∧ cs.head? = some '\x7b' ∧ cs.getLast? = some '\x7d' then
      grouped? (cs.drop 1).dropLast
    else if cs.length = 45 ∧ cs.take 9 = "urn:uuid:".toList then grouped? (cs.drop 9)
    else none
  digits.map fun ds => String.ofList (hyphenated ds)

/-! ## Instants -/

/-- An offset at the end of an instant: `Z`, or a sign, hours, and perhaps minutes. It must be
there, but the server has taken it into account, so it is not looked at. -/
def offsetTail (cs : List Char) : Bool :=
  match Text.trimLeft cs with
  | ['Z'] | ['z'] => true
  | c :: cs =>
    if c = '+' ∨ c = '-' ∨ c.toNat = 0x2212 then
      match Instant.fixed? 2 cs with
      | some (_, []) => true
      | some (_, rest) =>
        match Instant.fixed? 2 (rest.dropWhile fun c => c == ':' || Text.isBlank c) with
        | some (minutes, []) => minutes ≤ 59
        | _ => false
      | none => false
    else false
  | [] => false

/-- An instant as the server writes it. A text with a plus sign in it must end with an offset; any
other must not. -/
def instant? (s : String) : Option Instant := do
  let (date, cs) ← Instant.date? s.toList
  let (clock, cs) ← Instant.clock? (Text.trimLeft cs)
  let complete := if s.toList.contains '+' then offsetTail cs else cs.isEmpty
  if complete then Instant.assemble? date clock 0 else none

/-! ## Any cell -/

/-- The document of a text in a column of a type. -/
def ofText (type s : String) : Document :=
  match type with
  | "BOOL" => if s = "t" then .bool true else if s = "f" then .bool false else .null
  | "INT2" => whole 16 s
  | "INT4" => whole 32 s
  | "INT8" => whole 64 s
  | "FLOAT4" => float .single s
  | "FLOAT8" => float .double s
  | "UUID" => match uuid? s with
    | some text => .text text
    | none => .null
  | "TIMESTAMPTZ" => match instant? s with
    | some t => .text t.text
    | none => .null
  | "JSON" | "JSONB" => (Document.ofText? s).getD (.text s)
  | _ => .text s

/-- The document of a cell. -/
def toDocument (type : String) : Option String → Document
  | some s => ofText type s
  | none => .null

end Cell

namespace ResultSet

/-- A row as documents by column name. Of columns with one name the last one counts. -/
def row (columns : List ResultColumn) (cells : List (Option String)) : Row :=
  (columns.zip cells).foldl
    (fun row c => Document.put c.1.name (Cell.toDocument c.1.type c.2) row) []

def toRows (r : ResultSet) : List Row := r.rows.map (row r.columns)

end ResultSet

end EntityStore
