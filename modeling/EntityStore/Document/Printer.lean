import EntityStore.Document.Basic
import EntityStore.Number.Layout

/-!
# Writing documents

Two forms of the same document: the compact one, which is what a table stores and what an error
message quotes, and an indented one for people. Text is escaped only where the notation requires
it; every other character stands for itself.
-/

set_option autoImplicit false

namespace EntityStore.Document

/-- One lower-case hexadecimal digit. -/
def hexDigit (n : Nat) : Char := Char.ofNat (if n < 10 then 0x30 + n else 0x57 + n)

/-- A character as it stands between quotation marks. -/
def escapedChar (c : Char) : List Char :=
  if c = '"' then ['\\', '"']
  else if c = '\\' then ['\\', '\\']
  else if c.toNat = 0x08 then ['\\', 'b']
  else if c.toNat = 0x0C then ['\\', 'f']
  else if c = '\n' then ['\\', 'n']
  else if c = '\r' then ['\\', 'r']
  else if c = '\t' then ['\\', 't']
  else if c.toNat < 0x20 then
    ['\\', 'u', '0', '0', hexDigit (c.toNat / 16), hexDigit (c.toNat % 16)]
  else [c]

def quoted (s : String) : String :=
  String.ofList ('"' :: (s.toList.flatMap escapedChar ++ ['"']))

/-- A number: whole numbers without a point, doubles always with a point or an exponent. What is
not finite has no numeral and is written as null. -/
def numberText : DocumentNumber → String
  | .whole n => Numeral.ofInt n
  | .double x => if x.isFinite then Layout.document.text x else "null"

mutual

/-- The compact form: no space anywhere outside text. -/
def compact : Document → String
  | .null => "null"
  | .bool b => if b then "true" else "false"
  | .number n => numberText n
  | .text s => quoted s
  | .list [] => "[]"
  | .list (d :: ds) => "[" ++ compact d ++ compactItems ds
  | .object [] => "\x7b\x7d"
  | .object ((k, d) :: es) => "\x7b" ++ quoted k ++ ":" ++ compact d ++ compactEntries es

/-- The items after the first, each with the comma before it, and the closing bracket. -/
def compactItems : List Document → String
  | [] => "]"
  | d :: ds => "," ++ compact d ++ compactItems ds

/-- The entries after the first, each with the comma before it, and the closing brace. -/
def compactEntries : List (String × Document) → String
  | [] => "\x7d"
  | (k, d) :: es => "," ++ quoted k ++ ":" ++ compact d ++ compactEntries es

end

/-- A line break followed by two spaces for each level. -/
def newLine (level : Nat) : String := "\n" ++ String.ofList (List.replicate (2 * level) ' ')

mutual

/-- The indented form at a level of nesting: one item or entry a line. -/
def indented (level : Nat) : Document → String
  | .null => "null"
  | .bool b => if b then "true" else "false"
  | .number n => numberText n
  | .text s => quoted s
  | .list [] => "[]"
  | .list (d :: ds) =>
    "[" ++ newLine (level + 1) ++ indented (level + 1) d ++ indentedItems level ds
  | .object [] => "\x7b\x7d"
  | .object ((k, d) :: es) =>
    "\x7b" ++ newLine (level + 1) ++ quoted k ++ ": " ++ indented (level + 1) d
      ++ indentedEntries level es

/-- The items after the first, and the closing bracket on its own line. -/
def indentedItems (level : Nat) : List Document → String
  | [] => newLine level ++ "]"
  | d :: ds => "," ++ newLine (level + 1) ++ indented (level + 1) d ++ indentedItems level ds

/-- The entries after the first, and the closing brace on its own line. -/
def indentedEntries (level : Nat) : List (String × Document) → String
  | [] => newLine level ++ "\x7d"
  | (k, d) :: es =>
    "," ++ newLine (level + 1) ++ quoted k ++ ": " ++ indented (level + 1) d
      ++ indentedEntries level es

end

end EntityStore.Document
