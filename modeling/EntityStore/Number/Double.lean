import EntityStore.Text.Numeral

/-!
# Double-precision numbers

A double is kept as the exact number it stands for, `mantissa · 2 ^ exponent` with a sign, and not
as a machine word. Everything this library does with one — read it from text, scale it by a power
of ten, cut it to a whole number, write it in the fewest digits — is then arithmetic on natural
numbers, which a proof can follow and which has no rounding of its own.

The one rounding rule is `Format.round`: the nearest representable number, a tie going to the even
mantissa. A finite number is always in the form that rule gives it, with the full mantissa unless
the exponent is already the least one, so that two doubles are the same number exactly if they are
equal, the two zeros apart. What was rounded to a shorter format is brought into that form by
`Double.widened`.
-/

set_option autoImplicit false

namespace EntityStore

/-- A floating-point number: no number, an infinity, or a sign with `mantissa · 2 ^ exponent`. -/
inductive Double where
  | nan
  | infinity (negative : Bool)
  | finite (negative : Bool) (mantissa : Nat) (exponent : Int)
  deriving DecidableEq

/-- The binary format a number is rounded to: how many bits the mantissa has and between which
bounds the exponent lies. -/
structure Format where
  bits : Nat
  least : Int
  greatest : Int

/-- The format of 64 bits. -/
def Format.double : Format := ⟨53, -1074, 971⟩

/-- The format of 32 bits, whose numbers are doubles too. -/
def Format.single : Format := ⟨24, -149, 104⟩

/-- The quotient `num / den` divided by `2 ^ e`, again as a quotient. -/
def scaleDown (num den : Nat) (e : Int) : Nat × Nat :=
  if e < 0 then (num * Nat.pow 2 (-e).toNat, den) else (num, den * Nat.pow 2 e.toNat)

/-- The whole number nearest to `num / den`, the even one of two that are equally near. -/
def nearestEven (num den : Nat) : Nat :=
  let q := num / den
  let r := num % den
  if 2 * r < den then q
  else if den < 2 * r then q + 1
  else if q % 2 = 0 then q else q + 1

/-- The greatest power of two that does not exceed `num / den`, as its exponent. -/
def floorLog2 (num den : Nat) : Int :=
  let guess : Int := (num.log2 : Int) - (den.log2 : Int)
  let (n, d) := scaleDown num den guess
  if d ≤ n then guess else guess - 1

/-- The number of a format nearest to the positive or zero quotient `num / den`, with a sign. A
quotient beyond the greatest number of the format becomes an infinity. -/
def Format.round (f : Format) (negative : Bool) (num den : Nat) : Double :=
  if num = 0 then .finite negative 0 f.least
  else
    let e := max f.least (floorLog2 num den - ((f.bits : Int) - 1))
    let (n, d) := scaleDown num den e
    let m := nearestEven n d
    let (m, e) := if m = Nat.pow 2 f.bits then (Nat.pow 2 (f.bits - 1), e + 1) else (m, e)
    if f.greatest < e then .infinity negative else .finite negative m e

namespace Double

/-- Zero, of either sign. -/
def zero (negative : Bool) : Double := .finite negative 0 Format.double.least

/-- The double nearest to a count. -/
def ofNat (n : Nat) : Double := Format.double.round false n 1

/-- Neither an infinity nor no number at all. -/
def isFinite : Double → Bool
  | .finite .. => true
  | _ => false

def isZero : Double → Bool
  | .finite _ 0 _ => true
  | _ => false

/-- The same number with the other sign. -/
def negate : Double → Double
  | .nan => .nan
  | .infinity negative => .infinity !negative
  | .finite negative m e => .finite (!negative) m e

/-- The size of a finite number as an exact quotient. -/
def magnitude (m : Nat) (e : Int) : Nat × Nat :=
  if e < 0 then (m, Nat.pow 2 (-e).toNat) else (m * Nat.pow 2 e.toNat, 1)

/-- The same number in the form of 64 bits, if it was rounded to the format of 32, which keeps fewer
bits of the mantissa. -/
def widened : Double → Double
  | .finite negative m e =>
    let (a, b) := magnitude m e
    Format.double.round negative a b
  | x => x

/-- Two finite numbers multiplied, rounded to the nearest double. What is not finite has no
product here; the readers that multiply stop before they reach one. -/
def times : Double → Double → Double
  | .finite s m e, .finite t n g =>
    let (a, b) := magnitude m e
    let (c, d) := magnitude n g
    Format.double.round (s != t) (a * c) (b * d)
  | _, _ => .nan

/-- Two finite numbers divided, rounded to the nearest double; a zero divisor has no quotient. -/
def dividedBy : Double → Double → Double
  | .finite s m e, .finite t n g =>
    if n = 0 then .nan
    else
      let (a, b) := magnitude m e
      let (c, d) := magnitude n g
      Format.double.round (s != t) (a * d) (b * c)
  | _, _ => .nan

/-- The whole number on the zero side of a finite number, as near to it as 64 bits allow. -/
def truncate64 : Double → Int
  | .finite negative m e =>
    let (a, b) := magnitude m e
    if negative then max Numeral.minInt64 (-((a / b : Nat) : Int))
    else min Numeral.maxInt64 ((a / b : Nat) : Int)
  | .infinity true => Numeral.minInt64
  | .infinity false => Numeral.maxInt64
  | .nan => 0

end Double

end EntityStore
