import EntityStore.Proofs.Sql.Lexing

/-!
# Texts that leave nothing open

Text that was written elsewhere can stand in a statement if it leaves no quote and no comment open at its
end. Then it is cut into tokens of its own before anything that a statement puts behind a condition
(`Cuts`): a closing bracket, or a blank and a word.
-/

set_option autoImplicit false

namespace EntityStore.Sql

/-- What a statement puts behind a condition: nothing, a closing bracket, or a blank and a word. -/
def EndsCondition (rest : List Char) : Prop :=
  rest = [] ∨ (∃ cs, rest = ')' :: cs) ∨ ∃ c cs, rest = ' ' :: c :: cs ∧ isWordStart c = true

theorem EndsCondition.boundary {rest : List Char} (h : EndsCondition rest) : Boundary rest := by
  rcases h with rfl | ⟨cs, rfl⟩ | ⟨c, cs, rfl, hc⟩
  · exact boundary_nil
  · refine ⟨by simp, ?_⟩
    exact opens_cons [] (by decide) (by decide) cs
  · refine ⟨by simp, ?_⟩
    rw [← opens_word hc [] cs]
    rfl

/-- A text that is cut into these tokens, whatever a statement puts behind it. -/
def Cuts (cs : List Char) (ts : List Token) : Prop :=
  ∀ rest, EndsCondition rest → tokens (cs ++ rest) = (tokens rest).map (ts ++ ·)

theorem Lexes.cuts {cs : List Char} {ts : List Token} (h : Lexes cs ts) : Cuts cs ts :=
  fun rest hr => h rest hr.boundary

namespace Cuts

variable {v w : List Char} {ts us : List Token}

theorem tokens_eq (h : Cuts v ts) : tokens v = some ts := by
  have hv := h [] (.inl rfl)
  rw [List.append_nil, tokens_nil, Option.map_some, List.append_nil] at hv
  exact hv

/-- Texts with a word between them. -/
theorem between {separator word read : String} (hs : separator.toList = ' ' :: (word.toList ++ [' ']))
    (hk : isKeyword word read = true) (hv : Cuts v ts) (hw : Cuts w us) :
    Cuts (v ++ separator.toList ++ w) (ts ++ .word read :: us) := by
  intro rest hr
  obtain ⟨c, cs, hword, hc, hcs, hread⟩ := exists_of_isKeyword hk
  have hends : EndsCondition (separator.toList ++ (w ++ rest)) := by
    rw [hs, hword]
    exact .inr (.inr ⟨c, _, rfl, hc⟩)
  have hkeyword : tokens (separator.toList ++ (w ++ rest))
      = (tokens (w ++ rest)).map (.word read :: ·) := by
    have hblank : EndsWord (' ' :: (w ++ rest)) := by
      intro d hd
      cases hd
      decide
    rw [hs, hword, List.cons_append, tokens_space (by decide), List.append_assoc, List.singleton_append,
      List.cons_append, tokens_word hc hcs hblank, hread, tokens_space (by decide)]
  rw [List.append_assoc, List.append_assoc, hv _ hends, hkeyword, hw rest hr, Option.map_map,
    Option.map_map]
  congr 1
  funext ts'
  simp

theorem parens (hv : Cuts v ts) : Cuts ('(' :: (v ++ [')'])) (.mark '(' :: (ts ++ [.mark ')'])) := by
  intro rest _
  have hends : EndsCondition (')' :: rest) := .inr (.inl ⟨rest, rfl⟩)
  rw [List.cons_append, List.append_assoc, List.singleton_append,
    tokens_mark (by decide) _ (fun h => absurd h (by decide)), hv _ hends,
    tokens_mark (by decide) _ (fun h => absurd h (by decide)), Option.map_map, Option.map_map]
  congr 1
  funext ts'
  simp

end Cuts

end EntityStore.Sql
