import EntityStore.Text.Blank
import EntityStore.Text.Numeral

/-!
# Tables of characters

A property of characters that follows no rule is written down in a text: the hexadecimal numbers of
the characters, with a hyphen between the first and the last of a run. Where a property has several
values, each value stands with a colon in front of the characters that have it. A table in this form
can be checked against the standard it is taken from line by line, which a formula fitted to the
same characters could not.
-/

set_option autoImplicit false

namespace EntityStore.Text

/-- The words of a text, between blanks. -/
def words (cs : List Char) : List (List Char) :=
  (cs.splitOnP isBlank).filter (!·.isEmpty)

/-- The number of a character as a table writes it. -/
def number (word : List Char) : Nat := Numeral.valueIn 16 word

/-- Characters with successive numbers: the number of the first and that of the last. -/
structure Run where
  first : Nat
  last : Nat
  deriving DecidableEq

namespace Run

/-- A run as a table writes it. One number is a run of one character. -/
def ofWord (word : List Char) : Run :=
  match word.span (· != '-') with
  | (first, []) => ⟨number first, number first⟩
  | (first, _ :: last) => ⟨number first, number last⟩

/-- Whether a character belongs to a run. -/
def holds (r : Run) (c : Char) : Bool := r.first ≤ c.toNat && c.toNat ≤ r.last

end Run

/-- The runs of a table without headings. -/
def runs (table : String) : List Run := (words table.toList).map Run.ofWord

/-- Whether a character belongs to one of some runs. -/
def isIn (rs : List Run) (c : Char) : Bool := rs.any (·.holds c)

/-- The words of a table under their headings. A heading ends with a colon. -/
def sections (table : String) : List (List Char × List (List Char)) :=
  ((words table.toList).foldr
    (fun word (body, parts) =>
      if word.getLast? = some ':' then ([], (word.dropLast, body) :: parts)
      else (word :: body, parts))
    ([], [])).2

/-- The heading under which a character stands, of a table with runs under headings. -/
def heading? (parts : List (List Char × List Run)) (c : Char) : Option (List Char) :=
  (parts.find? fun part => isIn part.2 c).map (·.1)

/-- The runs of a table under their headings. -/
def runSections (table : String) : List (List Char × List Run) :=
  (sections table).map fun (heading, body) => (heading, body.map Run.ofWord)

end EntityStore.Text
