import EntityStore.Proofs.Sql.Local
import Mathlib.Data.List.Basic
import Mathlib.Data.List.TakeWhile

/-!
# What has been read stays read

`Reaches rest v ts` says that reading the text `v` with `rest` behind it comes to where `rest` begins
and finds the tokens `ts` on the way. With other texts behind `v` the tokens are the same, unless the
last of them goes on: a word with a letter, an operator with another operator, a constant with a quote
behind a line break. `Reaches.change` puts a literal in the place of a comma, where the text in front
ends in a character that belongs to no word. `RunsInto` lists what may go wrong.
-/

set_option autoImplicit false

namespace EntityStore

namespace Sql

/-! ## The seam between two texts -/

/-- What may stand right before a placeholder and right behind it. -/
def isBorder (c : Char) : Bool :=
  isSpace c || c == '(' || c == ')' || c == ',' || isOperatorChar c

/-- How a literal begins, or a comment that no constant goes on behind. -/
inductive Begins : List Char → Prop where
  | word {c : Char} (cs : List Char) (hc : isWordStart c = true) : Begins (c :: cs)
  | digit {c : Char} (cs : List Char) (hc : c.isDigit = true) : Begins (c :: cs)
  | minus {c : Char} (cs : List Char) (hc : c.isDigit = true) : Begins ('-' :: c :: cs)
  | quote (cs : List Char) : Begins ('\'' :: cs)
  | comment {cs : List Char} (hcs : gap .comment cs = none) : Begins ('-' :: '-' :: cs)

/-- If a literal begins with any quote, it is one of a constant. -/
theorem Begins.eq_quote {y : List Char} (hy : Begins y)
    (h : y.head? = some '\'' ∨ y.head? = some '"') : ∃ cs, y = '\'' :: cs := by
  cases hy with
  | word cs hc => rcases h with h | h <;> cases h <;> exact absurd hc (by decide)
  | digit cs hc => rcases h with h | h <;> cases h <;> exact absurd hc (by decide)
  | minus cs hc => rcases h with h | h <;> cases h
  | quote cs => exact ⟨cs, rfl⟩
  | comment hcs => rcases h with h | h <;> cases h

/-- A token of the first text goes on into the second one. The tokens of the first text are read
as they are when a comma follows. -/
inductive RunsInto : List Char → List Char → Prop where
  /-- Two minus signs begin a comment. -/
  | comment {v y : List Char} (hv : v.getLast? = some '-') : RunsInto v ('-' :: y)
  /-- An operator with a character that lets it end in a sign takes the sign. -/
  | operator {v y : List Char} (hv : operatorRun v = v) (hl : v.any isLasting = true) :
    RunsInto v ('-' :: y)
  /-- A constant goes on behind a line break. -/
  | constant {u x y : List Char} {s : String}
    (h : lexeme (u ++ (x ++ [','])) = some (some (.constant s), x ++ [',']))
    (hx : gap .sameLine (x ++ ['\'']) ≠ none) : RunsInto (u ++ x) ('\'' :: y)
  /-- A constant with these characters in front is another kind of constant. -/
  | lettered {c : Char} {y : List Char} (hc : c.toLower = 'u') : RunsInto [c, '&'] ('\'' :: y)
  | later {u w y : List Char} {t : Option Token} (hu : u ≠ [])
    (h : lexeme (u ++ (w ++ [','])) = some (t, w ++ [','])) (hw : RunsInto w y) : RunsInto (u ++ w) y

/-- A border belongs to no word, and to nothing between quotes. -/
theorem of_isBorder {c : Char} (hc : isBorder c = true) :
    isWordChar c = false ∧ c ≠ '.' ∧ c ≠ '\'' ∧ c ≠ '"' := by
  have hall : (" \t\n\r\x0b\x0c(),+-*/<>=~!@#%^&|`?".toList.all fun c =>
      !isWordChar c && c != '.' && c != '\'' && c != '"') = true := by rfl
  have hmem : c ∈ " \t\n\r\x0b\x0c(),+-*/<>=~!@#%^&|`?".toList := by
    simp only [isBorder, isSpace, isOperatorChar, List.contains_eq_mem, Bool.or_eq_true,
      decide_eq_true_eq, beq_iff_eq] at hc
    have hchars : " \t\n\r\x0b\x0c(),+-*/<>=~!@#%^&|`?".toList
        = " \t\n\r\x0b\x0c".toList ++ ['(', ')', ','] ++ "+-*/<>=~!@#%^&|`?".toList := by rfl
    rw [hchars]
    rcases hc with (((hc | rfl) | rfl) | rfl) | hc
    · exact List.mem_append_left _ (List.mem_append_left _ hc)
    · simp
    · simp
    · simp
    · exact List.mem_append_right _ hc
  have h := List.all_eq_true.mp hall c hmem
  simpa [and_assoc] using h

theorem isWordStart_of_isBorder {c : Char} (hc : isBorder c = true) :
    isWordStart c = false ∧ c.isDigit = false := by
  have h := (of_isBorder hc).1
  simp only [isWordChar, Bool.or_eq_false_iff] at h
  exact h.1

/-- A run of a class that ends in a text is the same whatever is behind the text. -/
theorem exists_span {p : Char → Bool} {v : List Char} {c : Char} (hv : c ∈ v) (hc : p c = false) :
    ∃ ds e rest, v = ds ++ e :: rest ∧ (∀ d ∈ ds, p d = true) ∧ p e = false
      ∧ ∀ z, (v ++ z).span p = (ds, e :: (rest ++ z)) := by
  have hne : v.dropWhile p ≠ [] := by
    intro h
    rw [List.dropWhile_eq_nil_iff.mp h c hv] at hc
    cases hc
  obtain ⟨e, rest, hdrop⟩ := List.exists_cons_of_ne_nil hne
  have he : p e = false := by
    have h := List.head?_dropWhile_not p v
    rwa [hdrop] at h
  have hsplit : v = v.takeWhile p ++ e :: rest := by
    rw [← hdrop, List.takeWhile_append_dropWhile]
  refine ⟨v.takeWhile p, e, rest, hsplit, fun d hd => List.mem_takeWhile_imp hd, he, fun z => ?_⟩
  have hz : v ++ z = v.takeWhile p ++ e :: (rest ++ z) := by
    rw [← List.cons_append, ← List.append_assoc, ← hsplit]
  rw [hz]
  refine span_append (fun d hd => List.mem_takeWhile_imp hd) fun d hd => ?_
  rwa [← Option.some.inj hd]

/-! ## One token -/

section Lexeme

variable {v r y : List Char} {t : Option Token} {e : Char}

/-- What is left of the first text is the same for all texts behind it. -/
theorem left_settles {t t' : Option Token} (w : List Char) {r x : List Char}
    (h : some (t', w ++ x) = some (t, r ++ x)) (y : List Char) :
    some (t', w ++ y) = some (t, r ++ y) := by
  obtain ⟨rfl, hr⟩ := Prod.mk.inj (Option.some.inj h)
  rw [List.append_cancel_right hr]

theorem wordToken_of_span {cs word rest : List Char} (h : cs.span isWordChar = (word, e :: rest)) :
    wordToken cs = if e = '\'' then
        if word.map Char.toLower = ['e'] then constantToken escaped rest
        else if [['b'], ['n'], ['x']].contains (word.map Char.toLower) then none
        else some (some (.word (String.ofList (word.map Char.toLower))), e :: rest)
      else if e = '&' ∧ word.map Char.toLower = ['u']
        ∧ (rest.head? = some '\'' ∨ rest.head? = some '"') then none
      else some (some (.word (String.ofList (word.map Char.toLower))), e :: rest) := by
  simp only [wordToken, h]
  split
  · next heq =>
    obtain ⟨rfl, rfl⟩ := List.cons.inj heq
    rfl
  · next mark _ heq =>
    obtain ⟨rfl, rfl⟩ := List.cons.inj heq
    have he : ('&' : Char) ≠ '\'' := by decide
    simp only [if_neg he, true_and, List.head?_cons, Option.some.injEq]
  · next hq hu =>
    have he : e ≠ '\'' := by
      rintro rfl
      exact hq _ rfl
    rw [if_neg he, if_neg]
    rintro ⟨rfl, -, hr⟩
    cases rest with
    | nil => simp at hr
    | cons m rest => exact hu _ _ rfl

theorem constantToken_settles {part : Scan Char} (hpart : Scan.Local part)
    (hmark : ∀ cs, part ('\'' :: cs) = doubled '\'' ('\'' :: cs))
    (h : constantToken part (v ++ [',']) = some (t, r ++ [',']))
    (hv : ∀ c ∈ v.getLast?, isBorder c = true)
    (hy : (∃ s, t = some (.constant s)) → gap .sameLine (r ++ y) = none) :
    constantToken part (v ++ y) = some (t, r ++ y) := by
  obtain ⟨⟨taken, rest⟩, hbody, heq⟩ := Option.map_eq_some_iff.mp h
  cases heq
  have hr : r ≠ [] := by
    rintro rfl
    obtain ⟨u, hu⟩ := quote_suffix_of_constantBody hpart hbody
    have hv' : v = u ++ ['\''] := List.append_cancel_right (by simpa using hu.symm)
    have hq := hv '\'' (by simp [hv'])
    exact absurd rfl (of_isBorder hq).2.2.1
  have hb := constantBody_settles hpart hmark hbody hr (hy ⟨_, rfl⟩)
  exact Option.map_eq_some_iff.mpr ⟨_, hb, rfl⟩

/-- A letter that makes another constant of what is behind it does so with a literal. -/
theorem runsInto_of_letter {word : List Char} (hlower : word.map Char.toLower = ['u']) (hy : Begins y)
    (hmark : y.head? = some '\'' ∨ y.head? = some '"') : RunsInto (word ++ ['&']) y := by
  obtain ⟨c, rfl⟩ : ∃ c, word = [c] := by
    have hlength := congrArg List.length hlower
    rw [List.length_map] at hlength
    exact List.length_eq_one_iff.mp hlength
  obtain ⟨cs, rfl⟩ := hy.eq_quote hmark
  exact .lettered (List.cons.inj hlower).1

theorem wordToken_settles (h : wordToken (v ++ [',']) = some (t, r ++ [','])) (hne : v ≠ [])
    (hv : ∀ c ∈ v.getLast?, isBorder c = true) (hy : Begins y) (hruns : ¬ RunsInto v y)
    (hgap : (∃ s, t = some (.constant s)) → gap .sameLine (r ++ y) = none) :
    wordToken (v ++ y) = some (t, r ++ y) := by
  have hlast := hv _ (List.getLast?_eq_some_getLast hne)
  obtain ⟨word, e, rest, rfl, hword, he, hspan⟩ :=
    exists_span (List.getLast_mem hne) (of_isBorder hlast).1
  rw [wordToken_of_span (hspan _)] at h ⊢
  have hrest : ∀ c ∈ rest.getLast?, isBorder c = true := fun c hc =>
    hv c (List.mem_getLast?_append_of_mem_getLast? (List.mem_getLast?_cons hc))
  by_cases hq : e = '\''
  · rw [if_pos hq] at h ⊢
    by_cases hescaped : word.map Char.toLower = ['e']
    · rw [if_pos hescaped] at h ⊢
      exact constantToken_settles local_escaped (fun _ => rfl) h hrest hgap
    · rw [if_neg hescaped] at h ⊢
      split at h
      · cases h
      · next hother =>
        rw [if_neg hother]
        exact left_settles (e :: rest) h y
  · rw [if_neg hq] at h ⊢
    split at h
    · cases h
    · next hu =>
      rw [if_neg]
      · exact left_settles (e :: rest) h y
      · rintro ⟨rfl, hlower, hmark⟩
        -- The quote that makes another constant of it is in the text or the first of the literal.
        cases rest with
        | cons m rest => exact hu ⟨rfl, hlower, hmark⟩
        | nil => exact hruns (runsInto_of_letter hlower hy hmark)

theorem numeralToken_of_span {cs whole rest : List Char}
    (h : cs.span Char.isDigit = (whole, e :: rest)) :
    numeralToken cs = if e = '.' then
        if endsNumeral (rest.span Char.isDigit).2 then
          some (some (.numeral whole (rest.span Char.isDigit).1), (rest.span Char.isDigit).2)
        else none
      else if isWordStart e then none else some (some (.numeral whole []), e :: rest) := by
  simp only [numeralToken, h]
  split
  · next heq =>
    obtain ⟨rfl, rfl⟩ := List.cons.inj heq
    rfl
  · next hpoint =>
    have he : e ≠ '.' := by
      rintro rfl
      exact hpoint _ rfl
    cases hw : isWordStart e <;> simp [endsNumeral, he, hw]

theorem numeralToken_settles (h : numeralToken (v ++ [',']) = some (t, r ++ [','])) (hne : v ≠ [])
    (hv : ∀ c ∈ v.getLast?, isBorder c = true) : numeralToken (v ++ y) = some (t, r ++ y) := by
  have hlast := hv _ (List.getLast?_eq_some_getLast hne)
  obtain ⟨whole, e, rest, rfl, -, he, hspan⟩ :=
    exists_span (List.getLast_mem hne) (isWordStart_of_isBorder hlast).2
  rw [numeralToken_of_span (hspan _)] at h ⊢
  -- Digits behind a point are of the same numeral, and have to end in the text as well.
  by_cases hpoint : e = '.'
  · rw [if_pos hpoint] at h ⊢
    have hrest : rest ≠ [] := by
      rintro rfl
      exact (of_isBorder hlast).2.1 (by simpa using hpoint)
    have hlast' : isBorder (rest.getLast hrest) = true := by
      apply hv
      simp [List.getLast?_append, List.getLast?_cons, List.getLast?_eq_some_getLast hrest]
    obtain ⟨fraction, d, more, rfl, -, hd, hspan'⟩ :=
      exists_span (List.getLast_mem hrest) (isWordStart_of_isBorder hlast').2
    rw [hspan'] at h ⊢
    split at h
    · next hends =>
      have hends' : endsNumeral (fraction, d :: (more ++ y)).2 = true := hends
      rw [if_pos hends']
      exact left_settles (d :: more) h y
    · cases h
  · rw [if_neg hpoint] at h ⊢
    split at h
    · cases h
    · next hword =>
      rw [if_neg hword]
      exact left_settles (e :: rest) h y

theorem identifierToken_settles (h : identifierToken (v ++ [',']) = some (t, r ++ [',']))
    (hv : ∀ c ∈ v.getLast?, isBorder c = true) : identifierToken (v ++ y) = some (t, r ++ y) := by
  obtain ⟨⟨taken, rest⟩, hquoted, heq⟩ := Option.map_eq_some_iff.mp h
  cases heq
  have hr : r ≠ [] := by
    rintro rfl
    obtain ⟨u, hu⟩ := ((local_doubled '"').many_shrinks (quoted_eq_some_iff.mp hquoted)).1
    have hv' : v = u ++ ['"'] := List.append_cancel_right (by simpa using hu.symm)
    exact absurd rfl (of_isBorder (hv '"' (by simp [hv']))).2.2.2
  have hlocal := local_quoted (local_doubled '"') fun _ => rfl
  exact Option.map_eq_some_iff.mpr ⟨_, hlocal.settles hquoted hr y, rfl⟩

/-! ### Operators and comments -/

theorem afterComment_shrinks {depth : Nat} {cs rest : List Char}
    (h : afterComment depth cs = some rest) : rest.length + 2 ≤ cs.length := by
  fun_induction afterComment depth cs with
  | case1 => cases h
  | case2 cs =>
    cases h
    simp
  | case3 cs depth ih =>
    have := ih h
    simp only [List.length_cons]
    omega
  | case4 depth cs ih =>
    have := ih h
    simp only [List.length_cons]
    omega
  | case5 depth c cs _ _ ih =>
    have := ih h
    simp only [List.length_cons]
    omega

theorem afterComment_cons {depth : Nat} {c d : Char} (hclose : ¬ (c = '*' ∧ d = '/'))
    (hopen : ¬ (c = '/' ∧ d = '*')) (cs : List Char) :
    afterComment depth (c :: d :: cs) = afterComment depth (d :: cs) := by
  rw [afterComment]
  · rintro cs' rfl h
    exact hclose ⟨rfl, (List.cons.inj h).1⟩
  · rintro cs' rfl h
    exact hopen ⟨rfl, (List.cons.inj h).1⟩

theorem afterComment_settles {depth : Nat} {x : List Char}
    (h : afterComment depth (v ++ x) = some (r ++ x)) (y : List Char) :
    afterComment depth (v ++ y) = some (r ++ y) := by
  induction hn : v.length using Nat.strongRecOn generalizing depth v with
  | ind n ih =>
    have hlt := afterComment_shrinks h
    simp only [List.length_append] at hlt
    obtain ⟨c, d, w, rfl⟩ := exists_cons_cons (show 2 ≤ v.length by omega)
    have hd : (d :: w).length < n := by rw [← hn]; exact Nat.lt_succ_self _
    have hw : w.length < n := Nat.lt_trans (Nat.lt_succ_self _) hd
    simp only [List.cons_append] at h ⊢
    by_cases hclose : c = '*' ∧ d = '/'
    · obtain ⟨rfl, rfl⟩ := hclose
      cases depth with
      | zero =>
        have hwr : w = r := List.append_cancel_right (Option.some.inj h)
        rw [hwr]
        rfl
      | succ depth => exact ih _ hw h rfl
    by_cases hopen : c = '/' ∧ d = '*'
    · obtain ⟨rfl, rfl⟩ := hopen
      exact ih _ hw h rfl
    · rw [afterComment_cons hclose hopen] at h ⊢
      exact ih _ hd h rfl

/-- Whether a comment begins with this character. -/
def opensComment (c : Char) (cs : List Char) : Bool :=
  c == '-' && cs.head? == some '-' || c == '/' && cs.head? == some '*'

theorem opensComment_eq_true_iff {c : Char} {cs : List Char} : opensComment c cs = true
    ↔ c = '-' ∧ cs.head? = some '-' ∨ c = '/' ∧ cs.head? = some '*' := by
  simp [opensComment]

theorem operatorRun_cons_eq (c : Char) (cs : List Char) : operatorRun (c :: cs)
    = if opensComment c cs = true then []
      else if isOperatorChar c = true then c :: operatorRun cs else [] := by
  by_cases ho : opensComment c cs = true
  · rw [if_pos ho]
    obtain ⟨rfl, hd⟩ | ⟨rfl, hd⟩ := opensComment_eq_true_iff.mp ho
    · obtain ⟨cs, rfl⟩ := List.head?_eq_some_iff.mp hd
      rfl
    · obtain ⟨cs, rfl⟩ := List.head?_eq_some_iff.mp hd
      rfl
  · rw [if_neg ho, operatorRun]
    · rintro cs' rfl rfl
      exact ho rfl
    · rintro cs' rfl rfl
      exact ho rfl

/-- A run of operator characters goes on into the text behind it only from its very end. -/
theorem operatorRun_append {z : List Char} (hz : ∀ c ∈ v.getLast?, opensComment c z = false) :
    operatorRun (v ++ z) = if operatorRun v = v then v ++ operatorRun z else operatorRun v := by
  induction v with
  | nil => simp [operatorRun]
  | cons c v ih =>
    have ho : opensComment c (v ++ z) = opensComment c v := by
      cases v with
      | nil =>
        have hnil : opensComment c [] = false := by simp [opensComment]
        rw [List.nil_append, hz c rfl, hnil]
      | cons d v => rfl
    rw [List.cons_append, operatorRun_cons_eq, operatorRun_cons_eq c v, ho]
    by_cases hopens : opensComment c v = true
    · simp [hopens]
    by_cases hchar : isOperatorChar c = true
    · have ih' : operatorRun (v ++ z)
          = if operatorRun v = v then v ++ operatorRun z else operatorRun v := by
        refine ih fun d hd => hz d ?_
        cases v with
        | nil => cases hd
        | cons e v => simpa using hd
      rw [if_neg hopens, if_neg hopens, if_pos hchar, if_pos hchar, ih']
      by_cases hv : operatorRun v = v <;> simp [hv]
    · simp [hopens, hchar]

theorem ownOperator_isFront (cs : List Char) : ownOperator cs <+: cs := by
  cases cs with
  | nil => exact List.prefix_rfl
  | cons c cs =>
    rw [ownOperator]
    split
    · exact List.prefix_rfl
    · refine List.cons_prefix_cons.mpr ⟨rfl, ?_⟩
      have h := List.dropWhile_suffix (l := cs.reverse) fun d => d == '+' || d == '-'
      simpa using List.reverse_prefix.mpr h

/-- A sign at the end of a run is not of its operator, unless the operator may end in one. -/
theorem ownOperator_append_minus {cs : List Char} (hne : cs ≠ []) (hl : cs.any isLasting = false) :
    ownOperator (cs ++ ['-']) = ownOperator cs := by
  obtain ⟨c, cs, rfl⟩ := List.exists_cons_of_ne_nil hne
  have hl' : (c :: (cs ++ ['-'])).any isLasting = false := by
    rw [← List.cons_append, List.any_append, hl]
    rfl
  rw [List.cons_append, ownOperator, ownOperator, hl, hl']
  simp

theorem operatorRun_isFront (cs : List Char) : operatorRun cs <+: cs := by
  induction cs with
  | nil => exact List.prefix_rfl
  | cons c cs ih =>
    rw [operatorRun_cons_eq]
    split
    · exact List.nil_prefix
    split
    · exact List.cons_prefix_cons.mpr ⟨rfl, ih⟩
    · exact List.nil_prefix

theorem isOperatorChar_of_isWordStart {c : Char} (h : isWordStart c = true) :
    isOperatorChar c = false :=
  contains_eq_false (by rfl) h

/-- A literal begins with no operator but a minus sign. -/
theorem Begins.operatorRun_eq (hy : Begins y) :
    operatorRun y = [] ∨ (∃ cs, y = '-' :: cs) ∧ operatorRun y = ['-'] := by
  cases hy with
  | word cs hc => exact .inl (operatorRun_cons (isOperatorChar_of_isWordStart hc) cs)
  | digit cs hc => exact .inl (operatorRun_cons (isOperatorChar_of_isDigit hc) cs)
  | quote cs => exact .inl (operatorRun_cons (by decide) cs)
  | comment hcs => exact .inl (by rw [operatorRun])
  | @minus c cs hc =>
    have ho : opensComment '-' (c :: cs) = false := by
      rw [Bool.eq_false_iff, ne_eq, opensComment_eq_true_iff]
      rintro (⟨-, h⟩ | ⟨h, -⟩)
      · cases h
        exact absurd hc (by decide)
      · exact absurd h (by decide)
    refine .inr ⟨⟨_, rfl⟩, ?_⟩
    rw [operatorRun_cons_eq, ho, operatorRun_cons (isOperatorChar_of_isDigit hc)]
    rfl

/-- What opens a comment with a literal is two minus signs. -/
theorem Begins.opensComment_eq_false (hy : Begins y) (hruns : ¬ RunsInto v y) :
    ∀ c ∈ v.getLast?, opensComment c y = false := by
  intro c hc
  rw [Bool.eq_false_iff, ne_eq, opensComment_eq_true_iff]
  rintro (⟨rfl, h⟩ | ⟨-, h⟩)
  · obtain ⟨y, rfl⟩ := List.head?_eq_some_iff.mp h
    exact hruns (.comment hc)
  · cases hy with
    | word cs hc => cases h; exact absurd hc (by decide)
    | digit cs hc => cases h; exact absurd hc (by decide)
    | minus cs hc => cases h
    | quote cs => cases h
    | comment hcs => cases h

theorem ownOperator_settles (hne : v ≠ []) (hy : Begins y) (hruns : ¬ RunsInto v y) :
    ownOperator (operatorRun (v ++ y)) = ownOperator (operatorRun v) := by
  rw [operatorRun_append (hy.opensComment_eq_false hruns)]
  split
  · next hv =>
    -- The run goes up to the literal, so a sign of the literal is in the run, too.
    obtain hrun | ⟨⟨cs, rfl⟩, hrun⟩ := hy.operatorRun_eq
    · rw [hrun, List.append_nil, hv]
    · have hl : v.any isLasting = false := by
        rw [Bool.eq_false_iff]
        exact fun hl => hruns (.operator hv hl)
      rw [hrun, ownOperator_append_minus hne hl, hv]
  · rfl

theorem operatorToken_of_not_opensComment {c : Char} {cs : List Char}
    (h : opensComment c cs = false) : operatorToken (c :: cs)
      = some (some (.operator (String.ofList (ownOperator (operatorRun (c :: cs))))),
        (c :: cs).drop (ownOperator (operatorRun (c :: cs))).length) := by
  rw [operatorToken]
  · rintro cs' hcs
    cases hcs
    cases h
  · rintro cs' hcs
    cases hcs
    cases h

/-- The line of a comment ends before the text does. -/
theorem dropWhile_settles {p : Char → Bool} {v r : List Char} {c : Char}
    (h : (v ++ [c]).dropWhile p = r ++ [c]) (hc : p c = true) (y : List Char) :
    (v ++ y).dropWhile p = r ++ y := by
  rw [List.dropWhile_append] at h ⊢
  split at h
  · rw [List.dropWhile_cons, if_pos hc, List.dropWhile_nil] at h
    exact absurd h.symm (by simp)
  · next hv => rw [if_neg hv, List.append_cancel_right h]

theorem operatorToken_settles (h : operatorToken (v ++ [',']) = some (t, r ++ [','])) (hne : v ≠ [])
    (hy : Begins y) (hruns : ¬ RunsInto v y) : operatorToken (v ++ y) = some (t, r ++ y) := by
  obtain ⟨c, w, rfl⟩ := List.exists_cons_of_ne_nil hne
  -- The text begins with a comment, which ends in it, or with a run of operator characters,
  -- which a literal goes on with only behind certain ends.
  by_cases hopens : opensComment c w = true
  · obtain ⟨rfl, hd⟩ | ⟨rfl, hd⟩ := opensComment_eq_true_iff.mp hopens
    · obtain ⟨w, rfl⟩ := List.head?_eq_some_iff.mp hd
      obtain ⟨rfl, hline⟩ := Prod.mk.inj (Option.some.inj h)
      exact congrArg (fun rest => some (none, rest)) (dropWhile_settles hline (by rfl) y)
    · obtain ⟨w, rfl⟩ := List.head?_eq_some_iff.mp hd
      obtain ⟨rest, hrest, heq⟩ := Option.map_eq_some_iff.mp h
      cases heq
      exact Option.map_eq_some_iff.mpr ⟨_, afterComment_settles hrest y, rfl⟩
  · have hcomma : ∀ d ∈ (c :: w).getLast?, opensComment d [','] = false := by
      simp [opensComment]
    have hliteral := hy.opensComment_eq_false hruns
    have ho {z : List Char} (hz : ∀ d ∈ (c :: w).getLast?, opensComment d z = false) :
        opensComment c (w ++ z) = false := by
      cases w with
      | nil => exact hz c rfl
      | cons d w => exact Bool.eq_false_iff.mpr hopens
    have hrun : operatorRun ((c :: w) ++ [',']) = operatorRun (c :: w) := by
      have hnil : operatorRun [','] = [] := by rfl
      rw [operatorRun_append hcomma, hnil, List.append_nil]
      split
      · next hw => exact hw.symm
      · rfl
    have hlength := ((ownOperator_isFront _).trans (operatorRun_isFront (c :: w))).length_le
    rw [List.cons_append, operatorToken_of_not_opensComment (ho hcomma), ← List.cons_append, hrun,
      List.drop_append_of_le_length hlength] at h
    rw [List.cons_append, operatorToken_of_not_opensComment (ho hliteral), ← List.cons_append,
      ownOperator_settles hne hy hruns, List.drop_append_of_le_length hlength]
    exact left_settles _ h y

/-! ### Any token -/

theorem lexeme_settles (h : lexeme (v ++ [',']) = some (t, r ++ [','])) (hne : v ≠ [])
    (hv : ∀ c ∈ v.getLast?, isBorder c = true) (hy : Begins y) (hruns : ¬ RunsInto v y)
    (hgap : (∃ s, t = some (.constant s)) → gap .sameLine (r ++ y) = none) :
    lexeme (v ++ y) = some (t, r ++ y) := by
  obtain ⟨c, w, rfl⟩ := List.exists_cons_of_ne_nil hne
  have hw : ∀ d ∈ w.getLast?, isBorder d = true := fun d hd => hv d (List.mem_getLast?_cons hd)
  rw [List.cons_append, lexeme] at h ⊢
  by_cases hword : isWordStart c = true
  · rw [if_pos hword] at h ⊢
    exact wordToken_settles h hne hv hy hruns hgap
  rw [if_neg hword] at h ⊢
  by_cases hdigit : c.isDigit = true
  · rw [if_pos hdigit] at h ⊢
    exact numeralToken_settles h hne hv
  rw [if_neg hdigit] at h ⊢
  by_cases hspace : isSpace c = true
  · rw [if_pos hspace] at h ⊢
    exact left_settles w h y
  rw [if_neg hspace] at h ⊢
  by_cases hname : c = '"'
  · rw [if_pos hname] at h ⊢
    exact identifierToken_settles h hw
  rw [if_neg hname] at h ⊢
  by_cases hconstant : c = '\''
  · rw [if_pos hconstant] at h ⊢
    exact constantToken_settles (local_doubled '\'') (fun _ => rfl) h hw hgap
  rw [if_neg hconstant] at h ⊢
  by_cases hmark : isMark c = true
  · rw [if_pos hmark] at h ⊢
    -- A point looks at what is behind it, and a border is no point.
    have hpoint : (c = '.' ∧ (w ++ y).head?.any Char.isDigit = true)
        ↔ (c = '.' ∧ (w ++ [',']).head?.any Char.isDigit = true) := by
      refine and_congr_right fun hc => ?_
      cases w with
      | nil => exact absurd hc (of_isBorder (hv c rfl)).2.1
      | cons d w => rfl
    split at h
    · cases h
    · next hc =>
      rw [if_neg (mt hpoint.mp hc)]
      exact left_settles w h y
  rw [if_neg hmark] at h ⊢
  by_cases hoperator : isOperatorChar c = true
  · rw [if_pos hoperator] at h ⊢
    exact operatorToken_settles h hne hy hruns
  · rw [if_neg hoperator] at h
    cases h

end Lexeme

/-! ## Reading up to a seam -/

/-- Reading the text comes to its end, with these tokens, when this is behind it: no token begins
in the text and ends behind it, and no constant goes on behind it. -/
inductive Reaches (rest : List Char) : List Char → List Token → Prop where
  | here : Reaches rest [] []
  | step {u w : List Char} {t : Option Token} {ts : List Token} (hu : u ≠ [])
    (h : lexeme (u ++ (w ++ rest)) = some (t, w ++ rest))
    (hgap : (∃ s, t = some (.constant s)) → gap .sameLine (w ++ rest) = none)
    (hw : Reaches rest w ts) : Reaches rest (u ++ w) (t.toList ++ ts)

theorem Reaches.tokens {rest v : List Char} {ts : List Token} (h : Reaches rest v ts) :
    tokens (v ++ rest) = (tokens rest).map (ts ++ ·) := by
  induction h with
  | here => simp
  | @step u w t ts hu h _ _ ih =>
    have hlt : (w ++ rest).length < (u ++ (w ++ rest)).length := by
      have hpos := List.length_pos_iff.mpr hu
      simp only [List.length_append]
      omega
    rw [List.append_assoc, tokens_of_lexeme h hlt, ih, Option.map_map]
    congr 1
    funext us
    simp

/-- Reading a token that is no constant. -/
theorem Reaches.token {rest u w : List Char} {t : Option Token} {ts : List Token} (hu : u ≠ [])
    (h : lexeme (u ++ (w ++ rest)) = some (t, w ++ rest)) (ht : ∀ s, t ≠ some (.constant s))
    (hw : Reaches rest w ts) : Reaches rest (u ++ w) (t.toList ++ ts) := by
  refine .step hu h ?_ hw
  rintro ⟨s, hs⟩
  exact absurd hs (ht s)

theorem isLineEnd_of_not_isSpace {c : Char} (hc : isSpace c = false) : isLineEnd c = false := by
  rw [Bool.eq_false_iff] at hc ⊢
  intro hline
  have hcases : c = '\n' ∨ c = '\r' := by simpa [isLineEnd] using hline
  rcases hcases with rfl | rfl <;> exact hc (by decide)

/-- No gap begins with anything but blank space, a comment or, on a new line, a quote. -/
theorem gap_cons_eq_none_iff {g : Gap} (hg : g ≠ .comment) {c : Char} {cs : List Char}
    (hs : isSpace c = false) (hc : c = '-' → cs.head? ≠ some '-') :
    gap g (c :: cs) = none ↔ ¬ (c = '\'' ∧ g = .newLine) := by
  rw [gap_cons hg hc, isLineEnd_of_not_isSpace hs, hs]
  simp

theorem gap_isSpace {g : Gap} (hg : g ≠ .comment) {c : Char} (hc : isSpace c = true) (cs : List Char) :
    gap g (c :: cs) = gap (if isLineEnd c then .newLine else g) cs := by
  rw [gap_cons hg, if_pos hc]
  · split <;> rfl
  · rintro rfl
    exact absurd hc (by decide)

theorem Begins.gap_eq_none {y : List Char} (hy : Begins y) {g : Gap} (hg : g ≠ .comment)
    (hq : y.head? = some '\'' → gap g ['\''] = none) : gap g y = none := by
  have hword {c : Char} {cs : List Char} (hc : isWordChar c = true) : gap g (c :: cs) = none := by
    have hs : isSpace c = false := isSpace_of_isWordChar hc
    refine (gap_cons_eq_none_iff hg hs ?_).mpr ?_
    · rintro rfl
      exact absurd hc (by decide)
    · rintro ⟨rfl, -⟩
      exact absurd hc (by decide)
  cases hy with
  | word cs hc => exact hword (by simp [isWordChar, hc])
  | digit cs hc => exact hword (by simp [isWordChar, hc])
  | @minus c cs hc =>
    refine (gap_cons_eq_none_iff hg (by decide) fun _ hd => ?_).mpr (by simp)
    cases hd
    exact absurd hc (by decide)
  | quote cs =>
    have hback : ('\'' : Char) ≠ '-' := by decide
    have hspace : isSpace '\'' = false := by decide
    rw [gap_cons_eq_none_iff hg hspace fun h => absurd h hback] at hq ⊢
    exact hq rfl
  | comment hcs => rwa [gap_dashes hg]

/-- A comment in a gap ends with its line. -/
theorem gap_comment_line {u w : List Char}
    (h : (u ++ [',']).dropWhile (!isLineEnd ·) = w ++ [',']) (z : List Char) :
    gap .comment (u ++ z) = gap .newLine (w ++ z) := by
  induction u with
  | nil =>
    have hnil : [','].dropWhile (!isLineEnd ·) = [] := by rfl
    rw [List.nil_append, hnil] at h
    exact absurd h.symm (by simp)
  | cons c u ih =>
    rw [List.cons_append, List.dropWhile_cons] at h
    rw [List.cons_append, gap_comment]
    cases hc : isLineEnd c with
    | false =>
      rw [hc] at h
      exact ih h
    | true =>
      rw [hc] at h
      have hw : c :: u = w := List.append_cancel_right h
      rw [if_pos rfl, ← hw, List.cons_append, gap_cons (by decide), if_pos hc]
      rintro rfl
      exact absurd hc (by decide)

theorem gap_settles {y x : List Char} {ts : List Token} (h : Reaches [','] x ts) (hy : Begins y)
    (hruns : ¬ RunsInto x y) {g : Gap} (hg : g ≠ .comment) (hx : gap g (x ++ [',']) = none)
    (hq : y.head? = some '\'' → gap g (x ++ ['\'']) = none) : gap g (x ++ y) = none := by
  induction h generalizing g with
  | here => exact hy.gap_eq_none hg hq
  | @step u w t ts hu h _ hw ih =>
    have hruns' : ¬ RunsInto w y := fun hw => hruns (.later hu h hw)
    obtain ⟨c, v, hv⟩ : ∃ c v, u ++ w = c :: v := by
      obtain ⟨c, u, rfl⟩ := List.exists_cons_of_ne_nil hu
      exact ⟨c, u ++ w, rfl⟩
    rw [← List.append_assoc, hv] at h
    rw [hv] at hruns hx hq ⊢
    simp only [List.cons_append] at h hx hq ⊢
    -- A gap goes on behind blank space and behind a comment. Both are one lexeme, so what is known of
    -- the lexemes up to the seam says where the gap is when it gets there.
    by_cases hspace : isSpace c = true
    · rw [lexeme_space hspace] at h
      have hvw : v = w := List.append_cancel_right (Prod.mk.inj (Option.some.inj h)).2
      subst hvw
      rw [gap_isSpace hg hspace] at hx hq ⊢
      exact ih hruns' (by split <;> simp [hg]) hx hq
    · by_cases hdashes : c = '-' ∧ v.head? = some '-'
      · obtain ⟨rfl, hd⟩ := hdashes
        obtain ⟨v, rfl⟩ := List.head?_eq_some_iff.mp hd
        have hline : (v ++ [',']).dropWhile (!isLineEnd ·) = w ++ [','] :=
          (Prod.mk.inj (Option.some.inj h)).2
        have hfront (z : List Char) : gap g ('-' :: '-' :: (v ++ z)) = gap .newLine (w ++ z) := by
          rw [gap_dashes hg, gap_comment_line hline]
        simp only [List.cons_append, hfront] at hx hq ⊢
        exact ih hruns' (by decide) hx hq
      · have hc {z : List Char} (hz : ∀ d ∈ (c :: v).getLast?, opensComment d z = false) :
            c = '-' → (v ++ z).head? ≠ some '-' := by
          rintro rfl hd
          cases v with
          | nil =>
            have hclear := hz '-' rfl
            rw [opensComment, ← List.nil_append z, hd] at hclear
            cases hclear
          | cons d v => exact hdashes ⟨rfl, hd⟩
        rw [Bool.not_eq_true] at hspace
        rw [gap_cons_eq_none_iff hg hspace (hc (by simp [opensComment]))] at hx
        rwa [gap_cons_eq_none_iff hg hspace (hc (hy.opensComment_eq_false hruns))]

theorem Reaches.change {y v : List Char} {ts : List Token} (h : Reaches [','] v ts)
    (hv : ∀ c ∈ v.getLast?, isBorder c = true) (hy : Begins y) (hruns : ¬ RunsInto v y) :
    Reaches y v ts := by
  induction h with
  | here => exact .here
  | @step u w t ts hu h hgap hw ih =>
    have hruns' : ¬ RunsInto w y := fun hw => hruns (.later hu h hw)
    have hgap' (ht : ∃ s, t = some (.constant s)) : gap .sameLine (w ++ y) = none := by
      refine gap_settles hw hy hruns' (by decide) (hgap ht) fun hq => ?_
      obtain ⟨s, rfl⟩ := ht
      obtain ⟨y, rfl⟩ := List.head?_eq_some_iff.mp hq
      -- If there is a line break in the gap, the literal is the next part of the constant.
      by_contra hcontinues
      exact hruns (.constant h hcontinues)
    have hw' : ∀ c ∈ w.getLast?, isBorder c = true := fun c hc =>
      hv c (List.mem_getLast?_append_of_mem_getLast? hc)
    refine .step hu ?_ hgap' (ih hw' hruns')
    rw [← List.append_assoc] at h ⊢
    exact lexeme_settles h (by simp [hu]) hv hy hruns hgap'

end Sql

end EntityStore
