/-!
# Calendar dates

The proleptic Gregorian calendar, with a year zero and negative years before it. Dates are counted
in days from the first of January 1970.

Both directions of the count take the first of March as the beginning of a year. The leap day is
then the last day of its year, the months before it have fixed lengths whose sums `(153·m + 2) / 5`
gives exactly, and four hundred years, 146097 days, are a full turn after which everything repeats.
-/

set_option autoImplicit false

namespace EntityStore

/-- A day of the calendar. -/
structure Date where
  year : Int
  month : Nat
  day : Nat
  deriving DecidableEq

namespace Date

def isLeap (year : Int) : Bool := year % 4 == 0 && (year % 100 != 0 || year % 400 == 0)

def daysInMonth (year : Int) (month : Nat) : Nat :=
  if month = 2 then (if isLeap year then 29 else 28)
  else if month = 4 ∨ month = 6 ∨ month = 9 ∨ month = 11 then 30
  else 31

def Valid (d : Date) : Prop :=
  1 ≤ d.month ∧ d.month ≤ 12 ∧ 1 ≤ d.day ∧ d.day ≤ daysInMonth d.year d.month

instance (d : Date) : Decidable d.Valid := inferInstanceAs (Decidable (_ ∧ _ ∧ _ ∧ _))

/-- The days of a turn of four hundred years. -/
def turn : Nat := 146097

/-- The days from the first of March of the year zero to the first of January 1970. -/
def epoch : Int := 719468

/-- The day of a turn on which a year of it begins, both counted from zero. -/
def yearStart (year : Nat) : Nat := 365 * year + year / 4 - year / 100

/-- The day of a year on which a month of it begins, both counted from the first of March. -/
def monthStart (month : Nat) : Nat := (153 * month + 2) / 5

/-- The number of the day, the first of January 1970 being zero. -/
def toDays (d : Date) : Int :=
  let year := if d.month ≤ 2 then d.year - 1 else d.year
  let ofTurn := (year % 400).toNat
  let month := (d.month + 9) % 12
  year / 400 * turn + (yearStart ofTurn + monthStart month + d.day - 1 : Nat) - epoch

/-- The day with a number. -/
def ofDays (n : Int) : Date :=
  let turns := (n + epoch) / turn
  let day := ((n + epoch) % turn).toNat
  let year := (day - day / 1460 + day / 36524 - day / 146096) / 365
  let day := day - yearStart year
  let month := (5 * day + 2) / 153
  let whole : Int := (year : Int) + turns * 400
  { year := if month < 10 then whole else whole + 1
    month := if month < 10 then month + 3 else month - 9
    day := day - monthStart month + 1 }

/-- The first day a timestamp may fall on, and the last one. -/
def first : Date := ⟨-262143, 1, 1⟩

/-- The last day a timestamp may fall on. -/
def last : Date := ⟨262142, 12, 31⟩

end Date

end EntityStore
