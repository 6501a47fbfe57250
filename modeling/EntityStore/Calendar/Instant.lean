import EntityStore.Calendar.Date
import EntityStore.Text.Numeral

/-!
# Instants

A point in time is a number of seconds from the beginning of 1970, in universal time, and a number
of nanoseconds. A leap second is written as the second before it with a thousand million
nanoseconds or more, so that it has a place of its own and still falls on a second that ends a
minute. Instants outside the years the calendar of timestamps covers do not exist.

The text of an instant has milliseconds and always ends in `Z`. Whatever is finer is cut off, not
rounded. Years of four digits have no sign; all others have one, and at least four digits.
-/

set_option autoImplicit false

namespace EntityStore

def secondNanos : Nat := 1000000000

/-- The first second of the first day that timestamps cover. -/
def firstSecond : Int := Date.first.toDays * 86400

/-- The last second of the last day that timestamps cover. -/
def lastSecond : Int := Date.last.toDays * 86400 + 86399

structure Instant where
  seconds : Int
  nanos : Nat
  inRange : firstSecond ≤ seconds ∧ seconds ≤ lastSecond
  leap : nanos < secondNanos ∨ (nanos < 2 * secondNanos ∧ seconds % 60 = 59)

namespace Instant

/-- The instant with these parts, if there is one. -/
def ofParts? (seconds : Int) (nanos : Nat) : Option Instant :=
  if h : (firstSecond ≤ seconds ∧ seconds ≤ lastSecond)
      ∧ (nanos < secondNanos ∨ (nanos < 2 * secondNanos ∧ seconds % 60 = 59)) then
    some ⟨seconds, nanos, h.1, h.2⟩
  else none

def ofMillis? (ms : Int) : Option Instant :=
  ofParts? (ms / 1000) ((ms % 1000).toNat * 1000000)

/-- A number with at least `width` digits, zeros in front. -/
def padded (width n : Nat) : List Char :=
  let digits := Nat.toDigits 10 n
  List.replicate (width - digits.length) '0' ++ digits

/-- A year: four digits, or a sign and at least four. -/
def yearText (year : Int) : List Char :=
  if 0 ≤ year ∧ year ≤ 9999 then padded 4 year.toNat
  else (if year < 0 then '-' else '+') :: padded 4 year.natAbs

/-- `YYYY-MM-DDTHH:MM:SS.mmmZ`. -/
def chars (t : Instant) : List Char :=
  let date := Date.ofDays (t.seconds / 86400)
  let clock := (t.seconds % 86400).toNat
  let second := clock % 60 + (if t.nanos < secondNanos then 0 else 1)
  yearText date.year ++ '-' :: padded 2 date.month ++ '-' :: padded 2 date.day
    ++ 'T' :: padded 2 (clock / 3600) ++ ':' :: padded 2 (clock / 60 % 60)
    ++ ':' :: padded 2 second ++ '.' :: padded 3 (t.nanos % secondNanos / 1000000) ++ ['Z']

def text (t : Instant) : String := String.ofList t.chars

end Instant

end EntityStore
