import EntityStore.Proofs.Sql.Constant

/-!
# String constants end where they end

A text is written between quotes, with a backslash before everything that is not to be taken as it is. A
reader of such constants that begins at the constant's `E` should get the text back and stop at the quote
that was written last, whatever follows. It does, whatever the text holds: no escape goes on into the
character behind it, and no quote of the text is bare. The only thing that can go on with a constant is
another quote, and only for readers that take a quote written twice for one quote
(`quoteText_ends_where_it_ends`).

The constant is safe to carry: what ends a line, a text or a message somewhere else is not in it.
-/

set_option autoImplicit false

namespace EntityStore.Sql

/-! ## A reader of constants -/

/-- The character that a backslash and what is behind it stand for. The letters of the escapes are `b`, `f`,
`n`, `r`, `t` and `x`, the last with one or two digits; up to three octal digits are an escape without a
letter. All else stands for itself, also `u` and `U`. -/
def backslashed : Scan Char
  | 'u' :: cs => some ('u', cs)
  | 'U' :: cs => some ('U', cs)
  | cs => escape cs

/-- A character of a constant. A bare quote is none. If `twice` is set, a quote is bare only if no other
follows it, and two of them are one of the text. -/
def constantPart (twice : Bool) : Scan Char
  | '\\' :: cs => backslashed cs
  | '\'' :: '\'' :: cs => if twice then some ('\'', cs) else none
  | '\'' :: _ => none
  | c :: cs => some (c, cs)
  | [] => none

/-- A constant from its `E` to the quote that ends it. -/
def escapedConstant (twice : Bool) : Scan (List Char) :=
  Scan.before (Scan.exactly ['E', '\''])
    (Scan.after (Scan.many (constantPart twice)) (Scan.exactly ['\'']))

/-- Characters that constants are written without: zero, backspace, tab, line feed, carriage return, and
the substitute that ends a text. -/
def rawControls : List Char :=
  [0x00, 0x08, 0x09, 0x0A, 0x0D, 0x1A].map Char.ofNat

/-! ## Reading what is written -/

/-- An escape stands for its character and leaves what is behind it. -/
theorem constantPart_constantChar (twice : Bool) (c : Char) (rest : List Char) :
    constantPart twice (constantChar c ++ rest) = some (c, rest) := by
  -- Nine characters have an escape; what is read back is known for each of them.
  unfold constantChar
  split
  · next h => rw [← eq_of_toNat h]; rfl
  split
  · next h => rw [h]; rfl
  split
  · next h => rw [h]; rfl
  split
  · next h => rw [← eq_of_toNat h]; rfl
  split
  · next h => rw [h]; rfl
  split
  · next h => rw [← eq_of_toNat h]; rfl
  split
  · next h => rw [h]; rfl
  split
  · next h => rw [h]; rfl
  split
  · next h => rw [h]; rfl
  · next hbackslash hquote _ =>
    rw [List.singleton_append, constantPart]
    · exact hbackslash
    · exact fun _ h _ => hquote h
    · exact hquote

/-- What is read behind the text of a constant is added to it. -/
theorem escapedConstant_quoteText (twice : Bool) (s : String) (t : List Char) :
    escapedConstant twice ((quoteText s).toList ++ t)
      = (Scan.after (Scan.many (constantPart twice)) (Scan.exactly ['\'']) ('\'' :: t)).map
        fun found => (s.toList ++ found.1, found.2) := by
  have hmany := Scan.many_flatMap_append (constantPart_constantChar twice) constantChar_ne_nil
    s.toList ('\'' :: t)
  rw [toList_quoteText]
  simp only [escapedConstant, Scan.before, constantChars, List.cons_append, Scan.exactly, if_true,
    List.append_assoc, List.nil_append, Scan.after, hmany, bind, Option.bind]
  cases Scan.many (constantPart twice) ('\'' :: t) with
  | none => rfl
  | some found =>
    simp only [Option.map_some]
    cases Scan.exactly ['\''] found.2 <;> rfl

/-- A quote is a character of the constant only where it is the first of two that are taken for one. -/
theorem constantPart_quote (twice : Bool) (t : List Char) : constantPart twice ('\'' :: t)
    = if twice = true ∧ t.head? = some '\'' then some ('\'', t.tail) else none := by
  cases t with
  | nil => exact (if_neg (by simp)).symm
  | cons d t =>
    by_cases hd : d = '\''
    · subst hd
      cases twice <;> rfl
    · rw [constantPart, if_neg (by simp [hd])]
      rintro cs hcs
      exact hd (List.cons.inj hcs).1

theorem closes_iff (twice : Bool) (t : List Char) :
    Scan.after (Scan.many (constantPart twice)) (Scan.exactly ['\'']) ('\'' :: t) = some ([], t)
      ↔ twice = false ∨ t.head? ≠ some '\'' := by
  have hpart := constantPart_quote twice t
  by_cases hdoubled : twice = true ∧ t.head? = some '\''
  · obtain ⟨rfl, hhead⟩ := hdoubled
    obtain ⟨t, rfl⟩ := List.head?_eq_some_iff.mp hhead
    refine iff_of_false (fun h => ?_) (by simp)
    -- The first of the two quotes has been taken for a character, so what is read is not empty.
    rw [if_pos ⟨rfl, rfl⟩, List.tail_cons] at hpart
    have hshorter : t.length < ('\'' :: '\'' :: t).length := by
      rw [List.length_cons, List.length_cons]
      omega
    rw [Scan.after, Scan.many, hpart] at h
    simp only [if_pos hshorter] at h
    cases hmore : Scan.many (constantPart true) t with
    | none => simp [hmore] at h
    | some found => simp [hmore, Option.bind_eq_some_iff] at h
  · rw [if_neg hdoubled] at hpart
    have hclosed : Scan.after (Scan.many (constantPart twice)) (Scan.exactly ['\'']) ('\'' :: t)
        = some ([], t) := by
      rw [Scan.after, Scan.many_of_eq_none hpart]
      rfl
    refine iff_of_true hclosed ?_
    rwa [not_and_or, Bool.not_eq_true] at hdoubled

/-! ## What is not written -/

theorem notMem_rawControls {c x : Char} (h : x ∈ constantChar c) : x ∉ rawControls := by
  unfold constantChar at h
  split_ifs at h with hzero hfeed hreturn hback htab hsub
  case neg =>
    rw [List.mem_singleton.mp h]
    simp only [rawControls, List.map_cons, List.map_nil, List.mem_cons, List.not_mem_nil, or_false]
    rintro (rfl | rfl | rfl | rfl | rfl | rfl)
    · exact hzero rfl
    · exact hback rfl
    · exact htab rfl
    · exact hfeed rfl
    · exact hreturn rfl
    · exact hsub rfl
  all_goals
    have hclean := (List.all_eq_true (p := (!rawControls.contains ·))).mp (by rfl) x h
    simpa using hclean

/-- A text is read back from its constant, and what follows is left, for readers that take two quotes for
one unless a quote follows, and for all others in any case. The constant holds no raw control character. -/
theorem quoteText_ends_where_it_ends (s : String) :
    (∀ (twice : Bool) (t : List Char), escapedConstant twice ((quoteText s).toList ++ t)
      = some (s.toList, t) ↔ twice = false ∨ t.head? ≠ some '\'')
    ∧ List.Disjoint (quoteText s).toList rawControls := by
  constructor
  · intro twice t
    rw [escapedConstant_quoteText, ← closes_iff]
    cases Scan.after (Scan.many (constantPart twice)) (Scan.exactly ['\'']) ('\'' :: t) with
    | none => simp
    | some found => simp [Prod.ext_iff]
  · intro c hc hraw
    rw [toList_quoteText, constantChars] at hc
    have hends : 'E' ∉ rawControls ∧ '\'' ∉ rawControls := by decide
    simp only [List.mem_cons, List.mem_append, List.mem_flatMap, List.not_mem_nil, or_false] at hc
    obtain rfl | rfl | ⟨d, -, hd⟩ | rfl := hc
    · exact hends.1 hraw
    · exact hends.2 hraw
    · exact notMem_rawControls hd hraw
    · exact hends.2 hraw

end EntityStore.Sql
