/-!
# Cutting a text at a character

Dotted table names, comma lists of columns and the places where one text occurs in another. Every
cut keeps the empty pieces, because a name such as `a..b` has an empty middle part and is quoted
with one.
-/

set_option autoImplicit false

namespace EntityStore.Text

/-- The pieces of a text between the occurrences of a character, empty ones included; a text
without the character is its own single piece. -/
def pieces (mark : Char) (s : String) : List String :=
  (s.toList.splitOn mark).map String.ofList

/-- Whether one text occurs in another; the empty text occurs everywhere. -/
def occursIn (needle hay : List Char) : Bool :=
  needle.isPrefixOf hay || match hay with
    | [] => false
    | _ :: rest => occursIn needle rest

/-- Whether `hay` holds `needle` somewhere. -/
def holds (hay needle : String) : Bool := occursIn needle.toList hay.toList

/-- The two parts around the last occurrence of a character, without it. -/
def aroundLast (mark : Char) : List Char → Option (List Char × List Char)
  | [] => none
  | c :: rest =>
    match aroundLast mark rest with
    | some (before, after) => some (c :: before, after)
    | none => if c = mark then some ([], rest) else none

/-- The last occurrence loses nothing but the mark itself. -/
theorem append_of_aroundLast {mark : Char} {cs before after : List Char}
    (h : aroundLast mark cs = some (before, after)) : before ++ mark :: after = cs := by
  induction cs generalizing before with
  | nil => simp [aroundLast] at h
  | cons c rest ih =>
    simp only [aroundLast] at h
    split at h
    · rename_i b a hr
      simp only [Option.some.injEq, Prod.mk.injEq] at h
      obtain ⟨rfl, rfl⟩ := h
      simp [ih hr]
    · split at h
      · rename_i hc
        simp only [Option.some.injEq, Prod.mk.injEq] at h
        obtain ⟨rfl, rfl⟩ := h
        simp [hc]
      · simp at h

end EntityStore.Text
