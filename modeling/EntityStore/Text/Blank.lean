/-!
# Blank space

Which characters count as blank, and what remains of a text once the blanks at its ends are cut
off. Order specifications are split at blanks, and every reader of numbers and dates cuts them off
before it looks at the text, so the class has to be the whole Unicode property and not the ASCII
part of it: a no-break space before a number is still only space.
-/

set_option autoImplicit false

namespace EntityStore.Text

/-- The characters with the Unicode property `White_Space`. The property is closed under no
simpler rule than its list of ranges. -/
def isBlank (c : Char) : Bool :=
  let n := c.toNat
  (0x09 ≤ n && n ≤ 0x0D) || n == 0x20 || n == 0x85 || n == 0xA0 || n == 0x1680
    || (0x2000 ≤ n && n ≤ 0x200A) || n == 0x2028 || n == 0x2029 || n == 0x202F || n == 0x205F
    || n == 0x3000

def trimLeft (cs : List Char) : List Char := cs.dropWhile isBlank

def trimRight (cs : List Char) : List Char := (cs.reverse.dropWhile isBlank).reverse

def trimBoth (cs : List Char) : List Char := trimRight (trimLeft cs)

/-- A text without the blanks at either end. -/
def trim (s : String) : String := String.ofList (trimBoth s.toList)

/-! ## What cutting leaves -/

theorem trimLeft_eq_nil_iff {cs : List Char} : trimLeft cs = [] ↔ ∀ c ∈ cs, isBlank c = true := by
  induction cs with
  | nil => simp [trimLeft]
  | cons c cs ih =>
    rw [List.forall_mem_cons, ← ih, trimLeft, List.dropWhile_cons]
    split
    · next h => exact ⟨fun hcs => ⟨h, hcs⟩, fun hcs => hcs.2⟩
    · next h => exact ⟨fun hcs => (List.cons_ne_nil c cs hcs).elim, fun hcs => absurd hcs.1 h⟩

end EntityStore.Text
