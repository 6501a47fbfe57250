import EntityStore.Document.Basic
import EntityStore.Number.Reader

/-!
# The tokens of a document text

A document text is cut into punctuation, words, numerals and quoted text, one character after the
other, before anything is known about their arrangement. The scanner is a function of the
characters that remain and of the one token that is being read, so it ends with the text.

Blank space is the four characters the notation allows and no others. A numeral or a word ends at
the first character that cannot belong to it, and only then is it judged: `01`, `1.` and `tru` are
refused here, and so are a control character inside quotation marks and half a surrogate pair.
-/

set_option autoImplicit false

namespace EntityStore.Document

inductive Token where
  | openList
  | closeList
  | openObject
  | closeObject
  | comma
  | colon
  | text (s : String)
  | number (n : DocumentNumber)
  | null
  | bool (b : Bool)
  deriving DecidableEq

/-- What the scanner is in the middle of. Characters read so far stand last first. -/
inductive Scanning where
  /-- Between tokens. -/
  | between
  /-- A numeral. -/
  | numeral (read : List Char)
  /-- A word of lower-case letters. -/
  | word (read : List Char)
  /-- Quoted text. -/
  | quoted (read : List Char)
  /-- Quoted text, after a backslash. -/
  | escape (read : List Char)
  /-- Quoted text, some digits into a code; the surrogate that the code must complete, if any. -/
  | code (read : List Char) (high : Option Nat) (digits : Nat) (value : Nat)
  /-- Quoted text, after the first half of a pair: a backslash must follow. -/
  | pair (read : List Char) (high : Nat)
  /-- Quoted text, after the first half of a pair and a backslash: `u` must follow. -/
  | pairMark (read : List Char) (high : Nat)

def isNumeralChar (c : Char) : Bool :=
  c.isDigit || c == '-' || c == '+' || c == '.' || c == 'e' || c == 'E'

/-- Reads a numeral: no zero before another digit, at least one digit after a point and in an
exponent. A plain numeral that fits a word of 64 bits is a whole number; the rest are doubles. -/
def number? (cs : List Char) : Option DocumentNumber := do
  let (negative, cs) := match cs with
    | '-' :: cs => (true, cs)
    | cs => (false, cs)
  let p ← NumeralParts.ofText? cs
  if p.whole.isEmpty || (p.whole.head? == some '0' && p.whole.length ≠ 1) then none
  else if p.pointed && p.fraction.isEmpty then none
  else if p.exponent.any fun e => e.2.isEmpty then none
  else
    let n := Numeral.value p.whole
    if !p.pointed && p.exponent.isNone && n ≤ Numeral.maxNat64 && !negative then
      some (.whole n)
    else if !p.pointed && p.exponent.isNone && 0 < n && n ≤ 0x8000000000000000 then
      some (.whole (-(n : Int)))
    else do
      let x ← Double.documentDouble? p
      some (.double (if negative then x.negate else x))

/-- The meaning of a word. -/
def word? (cs : List Char) : Option Token :=
  if cs = "null".toList then some .null
  else if cs = "true".toList then some (.bool true)
  else if cs = "false".toList then some (.bool false)
  else none

/-- The token that ends where the scanner stands, if it is in the middle of one that may end
anywhere. Quoted text may not. -/
def Scanning.finish? : Scanning → Option (List Token)
  | .between => some []
  | .numeral read => (number? read.reverse).map fun n => [.number n]
  | .word read => (word? read.reverse).map fun t => [t]
  | _ => none

/-- A character between tokens: the tokens it completes and what it begins. -/
def start? (c : Char) : Option (List Token × Scanning) :=
  if c = ' ' || c = '\n' || c = '\r' || c = '\t' then some ([], .between)
  else if c = '[' then some ([.openList], .between)
  else if c = ']' then some ([.closeList], .between)
  else if c = '\x7b' then some ([.openObject], .between)
  else if c = '\x7d' then some ([.closeObject], .between)
  else if c = ',' then some ([.comma], .between)
  else if c = ':' then some ([.colon], .between)
  else if c = '"' then some ([], .quoted [])
  else if c = '-' || c.isDigit then some ([], .numeral [c])
  else if c.isLower then some ([], .word [c])
  else none

/-- What a letter after a backslash stands for; `u` begins a code instead. -/
def escape? (read : List Char) (c : Char) : Option Scanning :=
  if c = '"' || c = '\\' || c = '/' then some (.quoted (c :: read))
  else if c = 'b' then some (.quoted (Char.ofNat 0x08 :: read))
  else if c = 'f' then some (.quoted (Char.ofNat 0x0C :: read))
  else if c = 'n' then some (.quoted ('\n' :: read))
  else if c = 'r' then some (.quoted ('\r' :: read))
  else if c = 't' then some (.quoted ('\t' :: read))
  else if c = 'u' then some (.code read none 0 0)
  else none

/-- The end of a code of four digits: a character, or the first half of a pair, or the second half
that completes one. A half that stands alone is no text. -/
def codeEnd? (read : List Char) (high : Option Nat) (value : Nat) : Option Scanning :=
  match high with
  | none =>
    if 0xDC00 ≤ value && value ≤ 0xDFFF then none
    else if 0xD800 ≤ value && value ≤ 0xDBFF then some (.pair read value)
    else some (.quoted (Char.ofNat value :: read))
  | some h =>
    if 0xDC00 ≤ value && value ≤ 0xDFFF then
      some (.quoted (Char.ofNat (0x10000 + (h - 0xD800) * 0x400 + (value - 0xDC00)) :: read))
    else none

/-- One character: the tokens it completes, and where the scanner stands after it. -/
def scan? : Scanning → Char → Option (List Token × Scanning)
  | .between, c => start? c
  | .numeral read, c =>
    if isNumeralChar c then some ([], .numeral (c :: read))
    else do
      let done ← Scanning.finish? (.numeral read)
      let (more, next) ← start? c
      some (done ++ more, next)
  | .word read, c =>
    if c.isLower then some ([], .word (c :: read))
    else do
      let done ← Scanning.finish? (.word read)
      let (more, next) ← start? c
      some (done ++ more, next)
  | .quoted read, c =>
    if c = '"' then some ([.text (String.ofList read.reverse)], .between)
    else if c = '\\' then some ([], .escape read)
    else if c.toNat < 0x20 then none
    else some ([], .quoted (c :: read))
  | .escape read, c => (escape? read c).map fun s => ([], s)
  | .code read high digits value, c => do
    let v ← Numeral.hexValue? c
    let value := 16 * value + v
    if digits = 3 then (codeEnd? read high value).map fun s => ([], s)
    else some ([], .code read high (digits + 1) value)
  | .pair read high, c => if c = '\\' then some ([], .pairMark read high) else none
  | .pairMark read high, c => if c = 'u' then some ([], .code read (some high) 0 0) else none

/-- The tokens of a text, from a scanner in the middle of one. -/
def tokensFrom? : Scanning → List Char → Option (List Token)
  | s, [] => s.finish?
  | s, c :: cs => do
    let (done, next) ← scan? s c
    let rest ← tokensFrom? next cs
    some (done ++ rest)

/-- The tokens of a text, or nothing if it has a part that is no token. -/
def tokens? (s : String) : Option (List Token) := tokensFrom? .between s.toList

end EntityStore.Document
