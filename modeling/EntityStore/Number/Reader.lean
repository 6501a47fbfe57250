import EntityStore.Number.Double
import EntityStore.Text.Case
import EntityStore.Text.Numeral

/-!
# Doubles from text

Two notations are read here, and they are not the same.

*Free numerals* are what a person types: a sign, digits with a point anywhere among them, perhaps
an exponent, or the words `inf`, `infinity` and `nan`. They are rounded once, correctly, however
long they are (`Double.ofText?`).

*Document numerals* obey the grammar of stored documents and are rounded more cheaply: of the
digits only as many are kept as fit a word of 64 bits, and the power of ten is applied to the
rounded significand (`documentDouble?`). The result can differ from the correctly rounded one in
the last bit, and it has to, because that is the number every other reader of the same document
will hold. A numeral whose size exceeds every double is refused rather than read as an infinity.
-/

set_option autoImplicit false

namespace EntityStore

/-- An unsigned numeral in parts: the digits before the point, those after it, and the exponent
with its sign, if there is one. -/
structure NumeralParts where
  whole : List Char
  fraction : List Char
  exponent : Option (Bool × List Char)
  /-- Whether a point was written. -/
  pointed : Bool

namespace NumeralParts

def digits (cs : List Char) : List Char × List Char := cs.span Char.isDigit

/-- Reads an exponent at the front of a text: the mark, a sign and the digits, which may be
missing. -/
def exponentOf : List Char → Option (Bool × List Char) × List Char
  | 'e' :: cs | 'E' :: cs =>
    let (negative, cs) := match cs with
      | '-' :: cs => (true, cs)
      | '+' :: cs => (false, cs)
      | cs => (false, cs)
    let (ds, rest) := digits cs
    (some (negative, ds), rest)
  | cs => (none, cs)

/-- Cuts a whole text into the parts of a numeral; a text with anything left over is none. -/
def ofText? (cs : List Char) : Option NumeralParts :=
  let (whole, cs) := digits cs
  let (pointed, fraction, cs) := match cs with
    | '.' :: cs => let (f, cs) := digits cs; (true, f, cs)
    | cs => (false, [], cs)
  let (exponent, cs) := exponentOf cs
  if cs.isEmpty then some ⟨whole, fraction, exponent, pointed⟩ else none

/-- The written exponent as a number, zero if there is none. -/
def power (p : NumeralParts) : Int :=
  match p.exponent with
  | none => 0
  | some (negative, ds) =>
    if negative then -(Numeral.value ds : Int) else (Numeral.value ds : Int)

end NumeralParts

namespace Double

/-- `n · 10 ^ power`, rounded once to a format. Powers far outside its range are decided by their
size alone, so that no numeral makes the arithmetic large. -/
def ofDecimal (f : Format) (negative : Bool) (n : Nat) (power : Int) : Double :=
  if n = 0 then f.round negative 0 1
  else
    let size := ((Nat.toDigits 10 n).length : Int) + power
    if 400 < size then .infinity negative
    else if size < -400 then f.round negative 0 1
    else if power < 0 then f.round negative n (Nat.pow 10 (-power).toNat)
    else f.round negative (n * Nat.pow 10 power.toNat) 1

/-- Reads a free numeral into a format. -/
def ofFreeText? (f : Format) (s : String) : Option Double :=
  let (negative, cs) := match s.toList with
    | '-' :: cs => (true, cs)
    | '+' :: cs => (false, cs)
    | cs => (false, cs)
  let word := cs.map Char.toLower
  if word = "inf".toList || word = "infinity".toList then some (.infinity negative)
  else if word = "nan".toList then some .nan
  else do
    let p ← NumeralParts.ofText? cs
    if p.whole.isEmpty && p.fraction.isEmpty then none
    else if p.exponent.any fun e => e.2.isEmpty then none
    else some (ofDecimal f negative (Numeral.value (p.whole ++ p.fraction))
      (p.power - (p.fraction.length : Int)))

def ofText? (s : String) : Option Double := ofFreeText? .double s

/-! ## Document numerals -/

/-- Takes digits into a significand while it fits 64 bits; the second part is what did not fit. -/
def absorb : Nat → List Char → Nat × List Char
  | n, [] => (n, [])
  | n, c :: cs =>
    let next := 10 * n + Numeral.digitValue c
    if next ≤ Numeral.maxNat64 then absorb next cs else (n, c :: cs)

/-- Ten to a power, as the nearest double. -/
def tenTo (n : Nat) : Double := Format.double.round false (Nat.pow 10 n) 1

/-- A double times a power of ten, one rounding for the power and one for the product. Powers
below the smallest are applied in steps. Nothing where the product is too large. -/
def scaleByTen? (x : Double) (power : Int) : Option Double :=
  if x.isZero then some x
  else if 308 < power then none
  else if 0 ≤ power then
    let y := x.times (tenTo power.toNat)
    if y.isFinite then some y else none
  else if -308 ≤ power then some (x.dividedBy (tenTo (-power).toNat))
  else scaleByTen? (x.dividedBy (tenTo 308)) (power + 308)
termination_by (-power).toNat
decreasing_by omega

/-- The size of a document numeral that is not a plain whole number of 64 bits. -/
def documentDouble? (p : NumeralParts) : Option Double :=
  let (n, restWhole) := absorb 0 p.whole
  let (n', restFraction) := absorb n p.fraction
  let start := (restWhole.length : Int) - ((p.fraction.length : Int) - restFraction.length)
  match p.exponent with
  | some (negative, ds) =>
    if 0x80000000 ≤ Numeral.value ds then
      if n' ≠ 0 && !negative then none else some (zero false)
    else scaleByTen? (ofNat n') (start + p.power)
  | none => scaleByTen? (ofNat n') start

end Double

end EntityStore
