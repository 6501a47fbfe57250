import EntityStore.Text.Split

/-!
# Punycode

A text of any characters written with letters, digits and hyphens. The characters that need no
change stand in front of the last hyphen; after it, each of the others is a number that says how
far it is, in the order of characters and then of places, from the one inserted before it.

These numbers are written with 36 digits, the least significant first. A number ends with the first
digit below a threshold, which depends on how large the numbers before it were, so that no mark
between two numbers is needed.
-/

set_option autoImplicit false

namespace EntityStore.Punycode

/-- The value of a digit: letters of either case come before the decimal digits. -/
def digit? (c : Char) : Option Nat :=
  if c.isAlpha then some (c.toLower.toNat - 'a'.toNat)
  else if c.isDigit then some (26 + (c.toNat - '0'.toNat))
  else none

/-- The threshold of a digit. Its `reach` is 36 for the first digit of a number, and 36 more for
each one after it. -/
def threshold (bias reach : Nat) : Nat := min 26 (max 1 (reach - bias))

/-- A number from the front of a text, added to `sum`, and the rest. The digit that comes next has
the weight `weight`. -/
def number? (bias reach weight sum : Nat) : List Char → Option (Nat × List Char)
  | [] => none
  | c :: cs =>
    match digit? c with
    | none => none
    | some d =>
      let t := threshold bias reach
      if d < t then some (sum + d * weight, cs)
      else number? bias (reach + 36) (weight * (36 - t)) (sum + d * weight) cs

theorem length_of_number? {bias reach weight sum n : Nat} {cs rest : List Char}
    (h : number? bias reach weight sum cs = some (n, rest)) : rest.length < cs.length := by
  induction cs generalizing reach weight sum with
  | nil => simp [number?] at h
  | cons c cs ih =>
    simp only [number?] at h
    split at h
    · cases h
    · split at h
      · obtain ⟨-, rfl⟩ := Prod.mk.inj (Option.some.inj h)
        exact Nat.lt_succ_self _
      · exact Nat.lt_succ_of_lt (ih h)

/-- How often a number has to be divided by 35 to be at most 455, and what is left of it. -/
def scaled (n : Nat) : Nat × Nat :=
  if 455 < n then
    let (times, left) := scaled (n / 35)
    (times + 1, left)
  else (0, n)
termination_by n
decreasing_by exact Nat.div_lt_self (by omega) (by omega)

/-- The bias after a number, with which `count` characters are known. The first number counts for
less, because it tells where the script begins and not how far its characters are apart. -/
def adapted (isFirst : Bool) (n count : Nat) : Nat :=
  let n := if isFirst then n / 700 else n / 2
  let (times, left) := scaled (n + n / count)
  36 * times + 36 * left / (left + 38)

/-- Puts the characters that numbers tell into a text. The last one inserted has the number `char`,
and the next place for it is `place`. -/
def insertAll (bias char place : Nat) (isFirst : Bool) (text cs : List Char) : Option (List Char) :=
  if cs.isEmpty then some text
  else
    match h : number? bias 36 1 0 cs with
    | none => none
    | some (n, rest) =>
      let count := text.length + 1
      let char := char + (place + n) / count
      let place := (place + n) % count
      if char.isValidChar then
        insertAll (adapted isFirst n count) char (place + 1) false
          (text.insertIdx place (Char.ofNat char)) rest
      else none
termination_by cs.length
decreasing_by exact length_of_number? h

/-- The text that a Punycode text stands for. A hyphen at the front divides nothing. -/
def decode? (cs : List Char) : Option (List Char) :=
  match Text.aroundLast '-' cs with
  | some (c :: plain, numbers) => insertAll 72 0x80 0 true (c :: plain) numbers
  | _ => insertAll 72 0x80 0 true [] cs

end EntityStore.Punycode
