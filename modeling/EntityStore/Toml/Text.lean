import EntityStore.Text.Numeral
import EntityStore.Text.Scan

/-!
# Words, keys and strings of TOML

The smallest parts of a settings text: blanks and line ends, comments, the four sorts of strings,
and keys. Control characters are allowed nowhere but as tabs and line ends. A line may end with a
carriage return before the line feed; inside strings of several lines both become a line feed.
-/

set_option autoImplicit false

namespace EntityStore.Toml

open Scan

/-- A space or a tab. -/
def isSpace (c : Char) : Bool := c == ' ' || c == '\t'

/-- A character beyond ASCII, all of which may stand in strings and comments. -/
def isForeign (c : Char) : Bool := 0x80 ≤ c.toNat

def spaces : Scan (List Char) := while_ isSpace

def lineEnd : Scan Unit := (exactly ['\n']).or (exactly ['\r', '\n'])

def isCommentChar (c : Char) : Bool :=
  c == '\t' || (0x20 ≤ c.toNat && c.toNat ≤ 0x7E) || isForeign c

/-- A comment, up to the end of its line. -/
def comment : Scan Unit := before (exactly ['#']) (map (fun _ => ()) (while_ isCommentChar))

/-- Blanks, line ends and comments, or none. -/
def filling : Scan Unit :=
  map (fun _ => ()) (many ((map (fun _ => ()) (while1 isSpace)).or (lineEnd.or comment)))

/-! ## Strings -/

/-- A character that stands for itself in a string with escapes. -/
def isBasicChar (c : Char) : Bool :=
  c == '\t' || c == ' ' || c == '!' || (0x23 ≤ c.toNat && c.toNat ≤ 0x5B)
    || (0x5D ≤ c.toNat && c.toNat ≤ 0x7E) || isForeign c

/-- A character of a string without escapes. -/
def isLiteralChar (c : Char) : Bool :=
  c == '\t' || (0x20 ≤ c.toNat && c.toNat ≤ 0x26) || (0x28 ≤ c.toNat && c.toNat ≤ 0x7E)
    || isForeign c

/-- The character of a code in hexadecimal digits, if there is one. -/
def coded? (digits : List Char) : Option Char := do
  let values ← digits.mapM Numeral.hexValue?
  let n := values.foldl (fun n v => 16 * n + v) 0
  if n < 0xD800 ∨ (0xDFFF < n ∧ n ≤ 0x10FFFF) then some (Char.ofNat n) else none

/-- A code of a given number of digits. -/
def code (width : Nat) : Scan Char := fun cs =>
  if cs.length < width then none
  else (coded? (cs.take width)).map fun c => (c, cs.drop width)

/-- What stands after a backslash. -/
def escaped : Scan Char
  | 'b' :: cs => some (Char.ofNat 0x08, cs)
  | 't' :: cs => some ('\t', cs)
  | 'n' :: cs => some ('\n', cs)
  | 'f' :: cs => some (Char.ofNat 0x0C, cs)
  | 'r' :: cs => some ('\r', cs)
  | '"' :: cs => some ('"', cs)
  | '\\' :: cs => some ('\\', cs)
  | 'u' :: cs => code 4 cs
  | 'U' :: cs => code 8 cs
  | _ => none

/-- A string of one line with escapes. -/
def basicString : Scan (List Char) :=
  between (exactly ['"']) (exactly ['"'])
    (many ((one isBasicChar).or (before (exactly ['\\']) escaped)))

/-- A string of one line without escapes. -/
def literalString : Scan (List Char) :=
  between (exactly ['\'']) (exactly ['\'']) (while_ isLiteralChar)

/-- One or two quotes that do not end a string of several lines: fewer than three in a row. -/
def looseQuotes (quote : Char) : Scan (List Char) := fun cs =>
  let run := cs.takeWhile (· == quote)
  if 0 < run.length ∧ run.length < 3 then some (run, cs.drop run.length) else none

/-- The quotes that end a string of several lines: three, and before them up to two that still
belong to it. -/
def closingQuotes (quote : Char) : Scan (List Char) := fun cs =>
  let n := min 5 (cs.takeWhile (· == quote)).length
  if 3 ≤ n then some (List.replicate (n - 3) quote, cs.drop n) else none

/-- A backslash at the end of a line, which joins it to the next text there is. -/
def lineJoin : Scan (List Char) := fun cs => do
  let (_, cs) ← exactly ['\\'] cs
  let (_, cs) ← spaces cs
  let (_, cs) ← lineEnd cs
  let (_, cs) ← many ((map (fun _ => ()) (while1 isSpace)).or lineEnd) cs
  return ([], cs)

/-- A string of several lines: its quotes, a line end that does not count, its parts, the closing
quotes. -/
def longString (quote : Char) (part : Scan (List Char)) : Scan (List Char) := fun cs => do
  let (_, cs) ← exactly [quote, quote, quote] cs
  let (_, cs) ← maybe lineEnd cs
  let (parts, cs) ← many part cs
  let (last, cs) ← closingQuotes quote cs
  return (parts.flatten ++ last, cs)

def lineFeed : Scan (List Char) := map (fun _ => ['\n']) lineEnd

def longBasicString : Scan (List Char) :=
  longString '"' ((while1 isBasicChar).or (lineJoin.or
    ((map (fun c => [c]) (before (exactly ['\\']) escaped)).or (lineFeed.or (looseQuotes '"')))))

def longLiteralString : Scan (List Char) :=
  longString '\'' ((while1 isLiteralChar).or (lineFeed.or (looseQuotes '\'')))

/-- Any string. Three quotes are looked for first, because two of them are also an empty string. -/
def string : Scan String :=
  map String.ofList (longBasicString.or (longLiteralString.or (fun cs =>
    if ['"', '"', '"'].isPrefixOf cs || ['\'', '\'', '\''].isPrefixOf cs then none
    else (basicString.or literalString) cs)))

/-! ## Keys -/

def isBareChar (c : Char) : Bool := c.isAlphanum || c == '_' || c == '-'

def keyPart : Scan String :=
  map String.ofList ((while1 isBareChar).or (basicString.or literalString))

/-- A key: parts with dots between them, fewer than eighty. -/
def key : Scan (List String) :=
  filterMap (fun parts => if parts.length < 80 then some parts else none)
    (separated (between spaces spaces (exactly ['.'])) keyPart)

end EntityStore.Toml
