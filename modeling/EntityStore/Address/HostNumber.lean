import EntityStore.Text.Numeral

/-!
# Hosts named by number

A host may be named by a number in place of a name. A number of sixteen bytes is written as eight
groups of hexadecimal digits with colons between them; one run of groups that are all zero may be
left out, which two colons in a row show, and the last two groups may be written as a number of four
bytes.

A number of four bytes has two notations. The strict one is four decimal numbers with points between
them. In the loose one the numbers may also be octal or hexadecimal, there may be fewer than four,
the last of which then stands for all bytes that are left, and a point may follow. Where a name is
expected, a text that ends like a number in the loose notation has to be one.
-/

set_option autoImplicit false

namespace EntityStore.HostNumber

/-! ## Four bytes, strictly -/

/-- A number of one byte, without a zero in front of other digits. -/
def isByte (cs : List Char) : Bool :=
  (Numeral.nat? cs).any (· ≤ 255) && (cs.length == 1 || cs.head? != some '0')

/-- Four numbers with points between them. -/
def isShort (cs : List Char) : Bool :=
  let parts := cs.splitOn '.'
  parts.length == 4 && parts.all isByte

/-! ## Sixteen bytes -/

/-- One group of a longer number. -/
def isGroup (cs : List Char) : Bool :=
  0 < cs.length && cs.length ≤ 4 && cs.all Numeral.isHexDigit

/-- How many groups some pieces stand for; the last of them may stand for two. -/
def groups? : List (List Char) → Option Nat
  | [] => some 0
  | [last] => if isGroup last then some 1 else if isShort last then some 2 else none
  | piece :: rest => if isGroup piece then (groups? rest).map (· + 1) else none

/-- The pieces between the colons; an empty text has none. -/
def pieces (cs : List Char) : List (List Char) := if cs.isEmpty then [] else cs.splitOn ':'

/-- What stands before and after the first two colons in a row. -/
def aroundGap : List Char → Option (List Char × List Char)
  | ':' :: ':' :: rest => some ([], rest)
  | c :: rest => (aroundGap rest).map fun (front, back) => (c :: front, back)
  | [] => none

/-- Eight groups, or fewer around a gap. The gap stands for at least one. -/
def isLong (cs : List Char) : Bool :=
  match aroundGap cs with
  | none => groups? (pieces cs) == some 8
  | some (front, back) =>
    (pieces front).all isGroup && (groups? (pieces back)).any ((pieces front).length + · ≤ 7)

def isNumber (cs : List Char) : Bool := isShort cs || isLong cs

/-! ## Four bytes, loosely -/

/-- The number that digits write in a base; no digits write zero. -/
def digits? (base : Nat) (cs : List Char) : Option Nat :=
  if cs.all fun c => (Numeral.hexValue? c).any (· < base) then some (Numeral.valueIn base cs)
  else none

/-- One number in the loose notation: after `0x` hexadecimal, after another zero octal. -/
def loosePart? : List Char → Option Nat
  | [] => none
  | '0' :: 'x' :: cs | '0' :: 'X' :: cs => digits? 16 cs
  | '0' :: c :: cs => digits? 8 (c :: cs)
  | cs => digits? 10 cs

/-- The parts of a text between points, without the last one if that is empty. -/
def looseParts (cs : List Char) : List (List Char) :=
  let parts := cs.splitOn '.'
  if parts.getLast? = some [] then parts.dropLast else parts

/-- Whether a text ends like a number in the loose notation: with decimal digits, or with one
number of it. -/
def endsLoosely (cs : List Char) : Bool :=
  (looseParts cs).getLast?.any fun last =>
    (Numeral.nat? last).isSome || (loosePart? last).isSome

/-- The value of the bytes before the last number and of the last number, which fills what they
leave of four. -/
def filled? (bytes : List Nat) (last : Nat) : Option Nat :=
  let left := 4 - bytes.length
  if bytes.length < 4 ∧ bytes.all (· ≤ 255) ∧ last < Nat.pow 256 left then
    some (bytes.foldl (fun n b => 256 * n + b) 0 * Nat.pow 256 left + last)
  else none

/-- The value of a number in the loose notation. -/
def loose? (cs : List Char) : Option Nat := do
  let numbers ← (looseParts cs).mapM loosePart?
  filled? numbers.dropLast (← numbers.getLast?)

/-- A number of four bytes in strict notation. -/
def shortText (n : Nat) : String :=
  ".".intercalate
    ([0x1000000, 0x10000, 0x100, 1].map fun weight => Numeral.ofNat (n / weight % 256))

end EntityStore.HostNumber
