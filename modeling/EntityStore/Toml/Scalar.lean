import EntityStore.Calendar.Reader
import EntityStore.Document.Basic
import EntityStore.Number.Reader
import EntityStore.Toml.Text

/-!
# Numbers, dates and truth values of TOML

Settings hold whole numbers of 64 bits, doubles, dates and truth values beside strings. A date has
no counterpart among documents; it becomes an object with its text as the only entry, so that
wherever a text or a number is expected it is neither.
-/

set_option autoImplicit false

namespace EntityStore.Toml

open Scan

/-- Digits of a class with single underscores between them, without the underscores. -/
def digitRun (isDigit : Char → Bool) : Scan (List Char) := fun cs => do
  let (first, cs) ← one isDigit cs
  let (others, cs) ← many ((one isDigit).or (before (exactly ['_']) (one isDigit))) cs
  return (first :: others, cs)

/-- An optional sign; whether it is a minus. -/
def sign : Scan Bool
  | '-' :: cs => some (true, cs)
  | '+' :: cs => some (false, cs)
  | cs => some (false, cs)

/-- Decimal digits without a zero in front of others. -/
def decimalDigits : Scan (List Char)
  | '0' :: cs => some (['0'], cs)
  | cs => digitRun Char.isDigit cs

def whole? (n : Int) : Option Document :=
  if FitsInt64 n then some (.number (.whole n)) else none

/-- A whole number in a base with a mark of its own. -/
def marked (mark : Char) (base : Nat) (isDigit : Char → Bool) : Scan Document :=
  filterMap (fun ds => whole? (Numeral.valueIn base ds : Nat))
    (before (exactly ['0', mark]) (digitRun isDigit))

def integer : Scan Document :=
  (marked 'x' 16 Numeral.isHexDigit).or
    ((marked 'o' 8 fun c => '0' ≤ c && c ≤ '7').or
      ((marked 'b' 2 fun c => c == '0' || c == '1').or
        (filterMap (fun (negative, ds) =>
            let n : Int := Numeral.value ds
            whole? (if negative then -n else n))
          (seq sign decimalDigits))))

/-- A point and digits. -/
def fractionDigits : Scan (List Char) := before (exactly ['.']) (digitRun Char.isDigit)

def exponent : Scan Int :=
  map (fun (negative, ds) =>
      let n : Int := Numeral.value ds
      if negative then -n else n)
    (before (one fun c => c == 'e' || c == 'E') (seq sign (digitRun Char.isDigit)))

/-- A number with a fraction, an exponent, or both. One too large for a double is none. -/
def pointed : Scan Document := fun cs => do
  let (negative, cs) ← sign cs
  let (digits, cs) ← decimalDigits cs
  let (fraction, cs) ← maybe fractionDigits cs
  let (power, cs) ← maybe exponent cs
  if fraction.isNone && power.isNone then none
  else
    let fraction := fraction.getD []
    let x := Double.ofDecimal .double negative (Numeral.value (digits ++ fraction))
      (power.getD 0 - (fraction.length : Int))
    if x = .infinity false then none else some (.number (.double x), cs)

/-- The words for what is no finite number. -/
def unusual : Scan Document := fun cs => do
  let (negative, cs) ← sign cs
  let (x, cs) ← ((map (fun _ => Double.infinity negative) (exactly "inf".toList)).or
    (map (fun _ => Double.nan) (exactly "nan".toList))) cs
  return (.number (.double x), cs)

def truth : Scan Document :=
  (map (fun _ => Document.bool true) (exactly "true".toList)).or
    (map (fun _ => Document.bool false) (exactly "false".toList))

/-! ## Dates -/

/-- A day that exists. -/
def day : Scan Date := fun cs => do
  let (year, cs) ← Instant.fixed? 4 cs
  let cs ← Instant.mark? '-' cs
  let (month, cs) ← Instant.fixed? 2 cs
  let cs ← Instant.mark? '-' cs
  let (day, cs) ← Instant.fixed? 2 cs
  let date : Date := ⟨year, month, day⟩
  if date.Valid then some (date, cs) else none

def time : Scan Unit := fun cs => do
  let (hour, cs) ← Instant.fixed? 2 cs
  let cs ← Instant.mark? ':' cs
  let (minute, cs) ← Instant.fixed? 2 cs
  let cs ← Instant.mark? ':' cs
  let (second, cs) ← Instant.fixed? 2 cs
  let (_, cs) ← Instant.fraction? cs
  if hour ≤ 23 ∧ minute ≤ 59 ∧ second ≤ 60 then some ((), cs) else none

def offset : Scan Unit := fun cs =>
  if cs.head?.any isForeign then none else (Instant.offset? cs).map fun (_, cs) => ((), cs)

/-- A date, a time, or both, with an offset only after both. -/
def date : Scan Document := fun cs => do
  let dayAndTime := seq day (maybe (seq (before (one fun c => c == 'T' || c == 't' || c == ' ') time)
    (maybe offset)))
  let (_, rest) ← ((map (fun _ => ()) dayAndTime).or time) cs
  let taken := cs.take (cs.length - rest.length)
  return (.object [("datetime", .text (String.ofList taken))], rest)

/-- Any value that is no string and holds no other values. -/
def scalar : Scan Document :=
  date.or (pointed.or (unusual.or (integer.or truth)))

end EntityStore.Toml
