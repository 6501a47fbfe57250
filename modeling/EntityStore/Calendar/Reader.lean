import EntityStore.Calendar.Instant
import EntityStore.Text.Blank

/-!
# Instants from text

Four notations are understood, and the first that fits the whole text gives the answer.

The first is the timestamp of the internet: fixed widths, a `T` or a blank between date and time,
and an offset that must be there. The other three are what people write without an offset, which
then means universal time: a date and a time with blanks between them, the same with a `T`, and a
date alone, which means its midnight. In these three a field may have fewer digits than usual and
blanks in front of it.

In all four a second may have the number sixty, which is a leap second, and digits of a fraction
beyond the ninth are ignored.
-/

set_option autoImplicit false

namespace EntityStore.Instant

/-! ## Fields -/

/-- Takes exactly one given character. -/
def mark? (c : Char) : List Char → Option (List Char)
  | d :: cs => if d = c then some cs else none
  | [] => none

/-- Takes one to `most` digits. -/
def digits? (most : Nat) (cs : List Char) : Option (Nat × List Char) :=
  let ds := (cs.take most).takeWhile Char.isDigit
  if ds.isEmpty then none else some (Numeral.value ds, cs.drop ds.length)

/-- Takes exactly `width` digits. -/
def fixed? (width : Nat) (cs : List Char) : Option (Nat × List Char) :=
  let ds := cs.take width
  if ds.length = width ∧ ds.all Char.isDigit then some (Numeral.value ds, cs.drop width) else none

/-- Takes an optional fraction of a second: a point and at least one digit. Its value is in
nanoseconds. -/
def fraction? : List Char → Option (Nat × List Char)
  | '.' :: cs =>
    let ds := cs.takeWhile Char.isDigit
    if ds.isEmpty then none
    else
      let kept := ds.take 9
      some (Numeral.value kept * Nat.pow 10 (9 - kept.length), cs.drop ds.length)
  | cs => some (0, cs)

structure Clock where
  hour : Nat
  minute : Nat
  second : Nat
  nanos : Nat

/-- The instant of a date and a time of day that is `offset` seconds ahead of universal time. The
second sixty is the leap part of the second fifty-nine. -/
def assemble? (date : Date) (clock : Clock) (offset : Int) : Option Instant :=
  if date.Valid ∧ clock.hour ≤ 23 ∧ clock.minute ≤ 59 ∧ clock.second ≤ 60 then
    let second := min clock.second 59
    let nanos := if clock.second = 60 then clock.nanos + secondNanos else clock.nanos
    let seconds := date.toDays * 86400
      + ((clock.hour * 3600 + clock.minute * 60 + second : Nat) : Int) - offset
    ofParts? seconds nanos
  else none

/-! ## The timestamp of the internet -/

/-- An offset from universal time, in seconds: `Z`, or a sign with hours and minutes. A minus sign
may also be the mathematical one. -/
def offset? : List Char → Option (Int × List Char)
  | [] => none
  | c :: cs =>
    if c = 'Z' ∨ c = 'z' then some (0, cs)
    else if c = '+' ∨ c = '-' ∨ c.toNat = 0x2212 then do
      let (hours, cs) ← fixed? 2 cs
      let cs ← mark? ':' cs
      let (minutes, cs) ← fixed? 2 cs
      if hours ≤ 23 ∧ minutes ≤ 59 then
        let seconds : Int := (hours * 3600 + minutes * 60 : Nat)
        some (if c = '+' then seconds else -seconds, cs)
      else none
    else none

/-- Takes the character between date and time. -/
def separator? : List Char → Option (List Char)
  | c :: cs => if c = 'T' ∨ c = 't' ∨ c = ' ' then some cs else none
  | [] => none

/-- Reads a whole text as a timestamp with an offset. -/
def timestamp? (cs : List Char) : Option Instant := do
  let (year, cs) ← fixed? 4 cs
  let cs ← mark? '-' cs
  let (month, cs) ← fixed? 2 cs
  let cs ← mark? '-' cs
  let (day, cs) ← fixed? 2 cs
  let cs ← separator? cs
  let (hour, cs) ← fixed? 2 cs
  let cs ← mark? ':' cs
  let (minute, cs) ← fixed? 2 cs
  let cs ← mark? ':' cs
  let (second, cs) ← fixed? 2 cs
  let (nanos, cs) ← fraction? cs
  let (offset, cs) ← offset? cs
  if cs.isEmpty then assemble? ⟨year, month, day⟩ ⟨hour, minute, second, nanos⟩ offset else none

/-! ## Dates and times without an offset -/

/-- Takes a field of one or two digits after any blanks. -/
def field? (cs : List Char) : Option (Nat × List Char) := digits? 2 (Text.trimLeft cs)

/-- Takes a year after any blanks: up to four digits, or a sign and as many as there are. -/
def year? (cs : List Char) : Option (Int × List Char) :=
  match Text.trimLeft cs with
  | '-' :: cs => (digits? cs.length cs).map fun (n, cs) => (-(n : Int), cs)
  | '+' :: cs => (digits? cs.length cs).map fun (n, cs) => ((n : Int), cs)
  | cs => (digits? 4 cs).map fun (n, cs) => ((n : Int), cs)

def date? (cs : List Char) : Option (Date × List Char) := do
  let (year, cs) ← year? cs
  let cs ← mark? '-' cs
  let (month, cs) ← field? cs
  let cs ← mark? '-' cs
  let (day, cs) ← field? cs
  some (⟨year, month, day⟩, cs)

def clock? (cs : List Char) : Option (Clock × List Char) := do
  let (hour, cs) ← field? cs
  let cs ← mark? ':' cs
  let (minute, cs) ← field? cs
  let cs ← mark? ':' cs
  let (second, cs) ← field? cs
  let (nanos, cs) ← fraction? cs
  some (⟨hour, minute, second, nanos⟩, cs)

/-- Reads a whole text as a date and a time, with `between` taking what stands between them. -/
def dateTime? (between : List Char → Option (List Char)) (cs : List Char) : Option Instant := do
  let (date, cs) ← date? cs
  let cs ← between cs
  let (clock, cs) ← clock? cs
  if cs.isEmpty then assemble? date clock 0 else none

/-- Reads a whole text as a date, which means its midnight. -/
def midnight? (cs : List Char) : Option Instant := do
  let (date, cs) ← date? cs
  if cs.isEmpty then assemble? date ⟨0, 0, 0, 0⟩ 0 else none

/-- The instant that a text writes in the first of the four notations that fits. -/
def ofChars? (cs : List Char) : Option Instant :=
  timestamp? cs
    <|> dateTime? (fun cs => some (Text.trimLeft cs)) cs
    <|> dateTime? (mark? 'T') cs
    <|> midnight? cs

/-- The instant that a text writes. Blanks at its ends count as part of it. -/
def ofText? (s : String) : Option Instant := ofChars? s.toList

end EntityStore.Instant
