/-!
# Numerals

Whole numbers as decimal text, both ways. Writing never pads and never signs a number that is not
negative. Reading takes an optional sign and at least one ASCII digit, leading zeros included, and
then asks whether the number fits the range the caller has room for: a numeral too large for its
range is refused, never wrapped.
-/

set_option autoImplicit false

namespace EntityStore

namespace Numeral

def minInt64 : Int := -0x8000000000000000

def maxInt64 : Int := 0x7fffffffffffffff

def maxNat64 : Nat := 0xffffffffffffffff

def maxNat32 : Nat := 0xffffffff

end Numeral

def FitsInt64 (n : Int) : Prop := Numeral.minInt64 ≤ n ∧ n ≤ Numeral.maxInt64

instance (n : Int) : Decidable (FitsInt64 n) := inferInstanceAs (Decidable (_ ∧ _))

namespace Numeral

def ofNat (n : Nat) : String := n.repr

def ofInt : Int → String
  | .ofNat n => ofNat n
  | .negSucc n => "-" ++ ofNat (n + 1)

/-- The value of one ASCII digit. -/
def digitValue (c : Char) : Nat := c.toNat - '0'.toNat

/-- The number that a run of digits writes, the most significant first. -/
def value (cs : List Char) : Nat := cs.foldl (fun n c => 10 * n + digitValue c) 0

/-- Reads a run of digits; a text with none, or with anything else in it, is no number. -/
def nat? (cs : List Char) : Option Nat :=
  if cs.isEmpty || !cs.all Char.isDigit then none else some (value cs)

/-- Reads a whole number with an optional sign. -/
def int? : List Char → Option Int
  | '-' :: cs => (nat? cs).map fun n => -(n : Int)
  | '+' :: cs => (nat? cs).map fun n => (n : Int)
  | cs => (nat? cs).map fun n => (n : Int)

/-- Reads a whole number that lies between two bounds, both included. -/
def intWithin? (least greatest : Int) (cs : List Char) : Option Int :=
  (int? cs).filter fun n => least ≤ n && n ≤ greatest

def int64? (s : String) : Option Int := intWithin? minInt64 maxInt64 s.toList

/-- Reads a count no greater than a bound. A plus sign is allowed; a minus sign is not, even
before a zero. -/
def natUpTo? (greatest : Nat) (s : String) : Option Nat :=
  let digits := match s.toList with
    | '+' :: cs => cs
    | cs => cs
  (nat? digits).filter (· ≤ greatest)

/-! ## Other bases -/

/-- The value of a hexadecimal digit of either case. -/
def hexValue? (c : Char) : Option Nat :=
  if c.isDigit then some (c.toNat - 0x30)
  else if 'a' ≤ c && c ≤ 'f' then some (c.toNat - 0x57)
  else if 'A' ≤ c && c ≤ 'F' then some (c.toNat - 0x37)
  else none

def isHexDigit (c : Char) : Bool := (hexValue? c).isSome

/-- The number that digits write in a base of at most sixteen, the most significant first. -/
def valueIn (base : Nat) (cs : List Char) : Nat :=
  cs.foldl (fun n c => base * n + (hexValue? c).getD 0) 0

/-! ## Reading back what was written -/

theorem value_append_singleton (cs : List Char) (c : Char) :
    value (cs ++ [c]) = 10 * value cs + digitValue c := by simp [value]

theorem nat?_eq_some_iff {cs : List Char} {n : Nat} :
    nat? cs = some n ↔ cs ≠ [] ∧ (∀ c ∈ cs, c.isDigit = true) ∧ value cs = n := by
  simp only [nat?]
  split
  · rename_i h
    simp only [Bool.or_eq_true, List.isEmpty_iff, Bool.not_eq_true', List.all_eq_false] at h
    constructor
    · intro h'; cases h'
    · rintro ⟨hne, hall, _⟩
      rcases h with h | ⟨c, hc, hd⟩
      · exact absurd h hne
      · exact absurd (hall c hc) hd
  · rename_i h
    simp only [Bool.or_eq_true, List.isEmpty_iff, Bool.not_eq_true', not_or, Bool.not_eq_false,
      List.all_eq_true] at h
    simp only [Option.some.injEq]
    exact ⟨fun e => ⟨h.1, h.2, e⟩, fun e => e.2.2⟩

end Numeral

end EntityStore
