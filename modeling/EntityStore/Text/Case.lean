/-!
# Letter case, ASCII only

Keywords of the query language, names of attribute types and catalog words are compared without
regard to case, and only the twenty-six ASCII letters have case for that purpose: `İ` is not a
spelling of `i` in any of those vocabularies.
-/

set_option autoImplicit false

namespace EntityStore.Text

/-- A text with its ASCII letters in lower case. -/
def lower (s : String) : String := String.ofList (s.toList.map Char.toLower)

/-- A text with its ASCII letters in upper case. -/
def upper (s : String) : String := String.ofList (s.toList.map Char.toUpper)

/-- Equal up to the case of ASCII letters. -/
def sameLetters (s t : String) : Bool := s.toList.map Char.toLower == t.toList.map Char.toLower

theorem sameLetters_self (s : String) : sameLetters s s = true := by simp [sameLetters]

theorem sameLetters_comm (s t : String) : sameLetters s t = sameLetters t s := by
  simp only [sameLetters]
  exact Bool.eq_iff_iff.mpr ⟨fun h => by simpa using (eq_of_beq h).symm,
    fun h => by simpa using (eq_of_beq h).symm⟩

end EntityStore.Text
