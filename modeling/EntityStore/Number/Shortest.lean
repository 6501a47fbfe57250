import EntityStore.Number.Double

/-!
# The fewest digits that read back

Many decimals round to the same double. The one that is written has the fewest digits of them all,
and among those with equally few it is the nearest to the double itself. Two decimals can be
equally near only in the last digit, and formats differ in which they take then, so the way out of
a tie is a parameter.

The search is direct. The decimals that read back as `m · 2 ^ e` fill an interval whose ends lie
half way to the two neighbouring doubles, and the ends belong to it exactly if `m` is even. For
one digit, two digits, and so on, only the two points of that decimal grid next to the double can
be the nearest ones; the first grid with a point in the interval decides. Seventeen digits always
suffice. All comparisons are between products of natural numbers.
-/

set_option autoImplicit false

namespace EntityStore

/-- Which of two equally near decimals is written. -/
inductive Tie where
  | up
  | even
  deriving DecidableEq

/-- A positive decimal `0.d₁d₂… · 10 ^ point`, its first digit not zero, and its last one only if
it is the first. -/
structure Decimal where
  digits : List Char
  point : Int

namespace Shortest

/-- The doubles next to `m · 2 ^ e` are this far away on the lower side, in quarters of
`2 ^ e`: a power of two has a nearer neighbour below, unless the exponent is the least. -/
def lowerQuarter (m : Nat) (e : Int) : Nat :=
  if m = Nat.pow 2 (Format.double.bits - 1) ∧ Format.double.least < e then 4 * m - 1 else 4 * m - 2

/-- The interval around a double: its two ends and the double itself over one denominator, and
whether the ends belong to it. -/
structure Interval where
  low : Nat
  middle : Nat
  high : Nat
  unit : Nat
  closed : Bool

/-- What reads back as `m · 2 ^ e`. -/
def interval (m : Nat) (e : Int) : Interval :=
  let (scale, unit) := Double.magnitude 1 (e - 2)
  ⟨lowerQuarter m e * scale, 4 * m * scale, (4 * m + 2) * scale, unit, m % 2 == 0⟩

/-- The place of the decimal point: the least `k` with `middle / unit < 10 ^ k`. Every double,
multiplied by `10 ^ 400`, has a whole part, and the number of its digits tells the place. -/
def Interval.point (i : Interval) : Int :=
  ((Nat.toDigits 10 (i.middle * Nat.pow 10 400 / i.unit)).length : Int) - 400

/-- Whether `c · 10 ^ g` lies in the interval; the power is given as the quotient `p / s`. -/
def Interval.holds (i : Interval) (c p s : Nat) : Bool :=
  let x := c * p * i.unit
  if i.closed then i.low * s ≤ x && x ≤ i.high * s else i.low * s < x && x < i.high * s

/-- The decimal with `n` digits that is written for the interval, if one of that length reads
back: a count `c` of units `10 ^ g`, where `g` is the place of the point less `n`. -/
def Interval.withDigits? (i : Interval) (tie : Tie) (point : Int) (n : Nat) : Option (Nat × Int) :=
  let g := point - (n : Int)
  let (p, s) := if g < 0 then (1, Nat.pow 10 (-g).toNat) else (Nat.pow 10 g.toNat, 1)
  let below := i.middle * s / (i.unit * p)
  let above := below + 1
  match i.holds below p s, i.holds above p s with
  | false, false => none
  | true, false => some (below, g)
  | false, true => some (above, g)
  | true, true =>
    let twice := 2 * i.middle * s
    let half := (below + above) * p * i.unit
    if twice < half then some (below, g)
    else if half < twice then some (above, g)
    else match tie with
      | .up => some (above, g)
      | .even => if below % 2 = 0 then some (below, g) else some (above, g)

/-- A count of units `10 ^ g` as a decimal without zeros at its end. -/
def decimal (c : Nat) (g : Int) : Decimal :=
  let digits := Nat.toDigits 10 c
  ⟨(digits.reverse.dropWhile (· == '0')).reverse, (digits.length : Int) + g⟩

/-- The count of units that is written for the interval: that of the first grid with a point in
it. -/
def Interval.count? (i : Interval) (tie : Tie) : Option (Nat × Int) :=
  let point := i.point
  (List.range' 1 17).findSome? (i.withDigits? tie point)

end Shortest

/-- The decimal of a count of units. Some grid always has a point in the interval. -/
def Decimal.ofCount : Option (Nat × Int) → Decimal
  | some (c, g) => Shortest.decimal c g
  | none => ⟨['0'], 0⟩

/-- The decimal written for the positive double `m · 2 ^ e`. -/
def Decimal.shortest (tie : Tie) (m : Nat) (e : Int) : Decimal :=
  .ofCount ((Shortest.interval m e).count? tie)

end EntityStore
