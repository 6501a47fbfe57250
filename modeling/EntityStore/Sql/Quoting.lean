import EntityStore.Text.Split

/-!
# Identifiers and string constants

The two quoted forms of the query language. An identifier stands between double quotes, and a
double quote inside it is written twice. A string constant is written in the escape form `E'…'`:
every quote, every backslash and every control character with an escape of its own is preceded by
a backslash, so the constant ends at its last character and nowhere before, and holds no line
break.

A table name may be qualified. Its parts are separated by dots and quoted one by one; a column
name is one identifier even if there is a dot in it.
-/

set_option autoImplicit false

namespace EntityStore.Sql

def identifierChar (c : Char) : List Char := if c = '"' then ['"', '"'] else [c]

def identifierChars (cs : List Char) : List Char := '"' :: (cs.flatMap identifierChar ++ ['"'])

def quoteIdentifier (name : String) : String := String.ofList (identifierChars name.toList)

/-- A qualified name: its parts between the dots, quoted one by one. -/
def quoteQualified (name : String) : String :=
  ".".intercalate ((Text.pieces '.' name).map quoteIdentifier)

def quoteColumns (names : List String) : String := ",".intercalate (names.map quoteIdentifier)

def constantChar (c : Char) : List Char :=
  if c.toNat = 0x00 then ['\\', 'x', '0', '0']
  else if c = '\n' then ['\\', 'n']
  else if c = '\r' then ['\\', 'r']
  else if c.toNat = 0x08 then ['\\', 'b']
  else if c = '\t' then ['\\', 't']
  else if c.toNat = 0x1A then ['\\', 'x', '1', 'A']
  else if c = '\\' then ['\\', '\\']
  else if c = '\'' then ['\\', '\'']
  else if c = '"' then ['\\', '"']
  else [c]

def constantChars (cs : List Char) : List Char := 'E' :: '\'' :: (cs.flatMap constantChar ++ ['\''])

def quoteText (s : String) : String := String.ofList (constantChars s.toList)

/-- The part of a quoted table name that names its schema, up to and with the dot: what ends with
the last dot between two quotes. Indexes live in the schema of their table. -/
def schemaChars : List Char → List Char
  | [] => []
  | c :: cs =>
    match schemaChars cs with
    | [] => if ['"', '.', '"'].isPrefixOf (c :: cs) then ['"', '.'] else []
    | found => c :: found

/-- The schema of a quoted table name with its dot, empty if the name is not qualified. -/
def schemaPart (table : String) : String := String.ofList (schemaChars table.toList)

end EntityStore.Sql
