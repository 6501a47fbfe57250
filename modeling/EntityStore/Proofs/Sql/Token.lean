import EntityStore.Sql.Quoting
import EntityStore.Text.Blank
import EntityStore.Text.Case
import EntityStore.Text.Numeral
import EntityStore.Text.Scan

/-!
# The tokens of query text

How the database cuts a text into tokens. Statements are written as text and read as tokens, so
whatever is said about the structure of a statement is said about these, and a value that is
quoted wrongly shows up as a token too many.

The rules are those of the database. Words are letters, digits and underscores and have no case.
A name in double quotes and a constant in single quotes write their own quote twice; a constant
after an `E` also has escapes with a backslash. A constant goes on after a line break if nothing
but blank space and comments stands before the next quote. An operator is a run of operator
characters, which ends before a comment, and does not end in a sign unless it holds a character
that no arithmetic operator has.

Some notations are refused rather than cut, and no statement that is read here uses them: constants
in dollar quotes or after another letter than `E`, numerals with an exponent or with nothing before
the point, and colons.
-/

set_option autoImplicit false

namespace EntityStore.Sql

/-- A token of the query language. -/
inductive Token where
  /-- A name in double quotes, without them. -/
  | identifier (name : String)
  /-- A word, in lower case. -/
  | word (text : String)
  /-- The text of a constant in single quotes, in either form. -/
  | constant (text : String)
  /-- The digits before and after the point. -/
  | numeral (whole fraction : List Char)
  | operator (text : String)
  /-- A bracket, a comma, a semicolon or a point. -/
  | mark (c : Char)
  deriving DecidableEq

/-! ## Classes of characters -/

/-- Blank space between tokens. -/
def isSpace (c : Char) : Bool := " \t\n\r\x0b\x0c".toList.contains c

/-- What ends a line. -/
def isLineEnd (c : Char) : Bool := c == '\n' || c == '\r'

/-- What a word begins with: a letter, an underscore, or anything beyond ASCII. -/
def isWordStart (c : Char) : Bool := c.isAlpha || c == '_' || 0x80 ≤ c.toNat

/-- What a word goes on with. -/
def isWordChar (c : Char) : Bool := isWordStart c || c.isDigit || c == '$'

/-- A token of a single character. -/
def isMark (c : Char) : Bool := "(),;[].".toList.contains c

/-- What operators are made of. -/
def isOperatorChar (c : Char) : Bool := "+-*/<>=~!@#%^&|`?".toList.contains c

/-- What only operators have that may end in a sign. -/
def isLasting (c : Char) : Bool := "~!@#%^&|`?".toList.contains c

/-! ## Quoted names and constants -/

/-- A character between quotes, where the quote itself is written twice. -/
def doubled (mark : Char) : Scan Char
  | c :: cs =>
    if c = mark then
      match cs with
      | d :: rest => if d = mark then some (mark, rest) else none
      | [] => none
    else some (c, cs)
  | [] => none

/-- So many characters of a class, or fewer if there are no more. -/
def atMost (p : Char → Bool) : Nat → List Char → List Char × List Char
  | n + 1, c :: cs =>
    if p c then
      let (taken, rest) := atMost p n cs
      (c :: taken, rest)
    else ([], c :: cs)
  | _, cs => ([], cs)

/-- The character with a number that `n` digits write, for an escape that must have them all. -/
def unicodeEscape (n : Nat) (cs : List Char) : Option (Char × List Char) :=
  let (digits, rest) := atMost Numeral.isHexDigit n cs
  if digits.length = n then some (Char.ofNat (Numeral.valueIn 16 digits), rest) else none

/-- The character that an escape stands for, after its backslash. -/
def escape : Scan Char
  | [] => none
  | 'b' :: cs => some (Char.ofNat 0x08, cs)
  | 'f' :: cs => some (Char.ofNat 0x0C, cs)
  | 'n' :: cs => some ('\n', cs)
  | 'r' :: cs => some ('\r', cs)
  | 't' :: cs => some ('\t', cs)
  | 'x' :: cs =>
    match atMost Numeral.isHexDigit 2 cs with
    | ([], _) => some ('x', cs)
    | (digits, rest) => some (Char.ofNat (Numeral.valueIn 16 digits), rest)
  | 'u' :: cs => unicodeEscape 4 cs
  | 'U' :: cs => unicodeEscape 8 cs
  | c :: cs =>
    match atMost (fun d => '0' ≤ d && d ≤ '7') 3 (c :: cs) with
    | ([], _) => some (c, cs)
    | (digits, rest) => some (Char.ofNat (Numeral.valueIn 8 digits), rest)

/-- A character of a constant with escapes. -/
def escaped : Scan Char
  | '\\' :: cs => escape cs
  | cs => doubled '\'' cs

/-- Where one is between two parts of a constant: on its line, behind the end of it, or in a
comment. -/
inductive Gap where
  | sameLine
  | newLine
  | comment
  deriving DecidableEq

/-- What may stand between two parts of a constant, with the quote that opens the second one. -/
def gap : Gap → Scan Unit
  | _, [] => none
  | .comment, c :: cs => gap (if isLineEnd c then .newLine else .comment) cs
  | _, '-' :: '-' :: cs => gap .comment cs
  | g, c :: cs =>
    if isLineEnd c then gap .newLine cs
    else if isSpace c then gap g cs
    else if c = '\'' ∧ g = .newLine then some ((), cs)
    else none

/-- A constant after its first quote. -/
def constantBody (part : Scan Char) : Scan (List Char) :=
  Scan.map List.flatten
    (Scan.separated (gap .sameLine) (Scan.after (Scan.many part) (Scan.exactly ['\''])))

/-- A constant as a token. -/
def constantToken (part : Scan Char) : Scan (Option Token) :=
  Scan.map (fun cs => some (.constant (String.ofList cs))) (constantBody part)

/-- A name after its first quote, as a token. -/
def identifierToken : Scan (Option Token) :=
  Scan.map (fun cs => some (.identifier (String.ofList cs)))
    (Scan.after (Scan.many (doubled '"')) (Scan.exactly ['"']))

/-! ## Words, numerals and operators -/

/-- A word, or a constant with a letter in front. Of these letters only `E` is known. -/
def wordToken (cs : List Char) : Option (Option Token × List Char) :=
  let (word, rest) := cs.span isWordChar
  let lower := word.map Char.toLower
  match rest with
  | '\'' :: body =>
    if lower = ['e'] then constantToken escaped body
    else if [['b'], ['n'], ['x']].contains lower then none
    else some (some (.word (String.ofList lower)), rest)
  | '&' :: mark :: _ =>
    if lower = ['u'] ∧ (mark = '\'' ∨ mark = '"') then none
    else some (some (.word (String.ofList lower)), rest)
  | _ => some (some (.word (String.ofList lower)), rest)

/-- Whether a numeral may end before this. -/
def endsNumeral : List Char → Bool
  | [] => true
  | c :: _ => !(isWordStart c || c == '.')

/-- A numeral: digits, and perhaps a point and more digits. -/
def numeralToken (cs : List Char) : Option (Option Token × List Char) :=
  let (whole, rest) := cs.span Char.isDigit
  let (fraction, rest) := match rest with
    | '.' :: more => more.span Char.isDigit
    | _ => ([], rest)
  if endsNumeral rest then some (some (.numeral whole fraction), rest) else none

/-- The operator characters at the front of a text, as far as the next comment. -/
def operatorRun : List Char → List Char
  | [] => []
  | '-' :: '-' :: _ => []
  | '/' :: '*' :: _ => []
  | c :: cs => if isOperatorChar c then c :: operatorRun cs else []

/-- The operator that a run of operator characters begins with. -/
def ownOperator : List Char → List Char
  | [] => []
  | c :: cs =>
    if (c :: cs).any isLasting then c :: cs
    else c :: (cs.reverse.dropWhile fun d => d == '+' || d == '-').reverse

/-- What follows a comment between slashes and stars that is `depth` comments deep. -/
def afterComment : Nat → List Char → Option (List Char)
  | _, [] => none
  | depth, '*' :: '/' :: cs => match depth with
    | 0 => some cs
    | depth + 1 => afterComment depth cs
  | depth, '/' :: '*' :: cs => afterComment (depth + 1) cs
  | depth, _ :: cs => afterComment depth cs

/-- An operator or a comment. -/
def operatorToken : List Char → Option (Option Token × List Char)
  | '-' :: '-' :: cs => some (none, cs.dropWhile (!isLineEnd ·))
  | '/' :: '*' :: cs => (afterComment 0 cs).map (none, ·)
  | cs =>
    let op := ownOperator (operatorRun cs)
    some (some (.operator (String.ofList op)), cs.drop op.length)

/-! ## The text as a whole -/

/-- What stands at the front of a text: a token, or blank space or a comment, which are none. -/
def lexeme : Scan (Option Token)
  | [] => none
  | c :: cs =>
    if isWordStart c then wordToken (c :: cs)
    else if c.isDigit then numeralToken (c :: cs)
    else if isSpace c then some (none, cs)
    else if c = '"' then identifierToken cs
    else if c = '\'' then constantToken (doubled '\'') cs
    else if isMark c then
      if c = '.' ∧ cs.head?.any Char.isDigit then none else some (some (.mark c), cs)
    else if isOperatorChar c then operatorToken (c :: cs)
    else none

/-- The tokens of a text, if it has any reading. -/
def tokens (cs : List Char) : Option (List Token) :=
  match Scan.many lexeme cs with
  | some (found, []) => some found.reduceOption
  | _ => none

end EntityStore.Sql
