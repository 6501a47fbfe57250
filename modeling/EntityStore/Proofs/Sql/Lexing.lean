import EntityStore.Proofs.Sql.Token
import Mathlib.Data.List.TakeDrop

/-!
# Written tokens are read back

Each thing a statement is written with is one token, and the reader finds it whatever comes after,
as long as that is something that ends it. `Lexes` says so of a text: before anything that ends a
token it is cut into the given tokens and the rest is cut as if it stood alone. Texts are put
together with blanks, commas and brackets, and for each of these there is a way from `Lexes` of the
parts to `Lexes` of the whole.
-/

set_option autoImplicit false

namespace EntityStore

namespace Scan

variable {α : Type}

/-- Repetition over a text that is written piece by piece gives back the pieces, and goes on behind
them. -/
theorem many_flatMap_append {s : Scan α} {write : α → List Char}
    (hs : ∀ a rest, s (write a ++ rest) = some (a, rest)) (hw : ∀ a, write a ≠ [])
    (as : List α) (rest : List Char) : many s (as.flatMap write ++ rest)
      = (many s rest).map fun found => (as ++ found.1, found.2) := by
  induction as with
  | nil => cases h : many s rest <;> simp [h]
  | cons a as ih =>
    have hlt : (as.flatMap write ++ rest).length
        < (write a ++ (as.flatMap write ++ rest)).length := by
      have hpos := List.length_pos_iff.mpr (hw a)
      simp only [List.length_append]
      omega
    rw [List.flatMap_cons, List.append_assoc, many, hs]
    simp only [if_pos hlt, ih, Option.map_map]
    rfl

theorem many_of_eq_none {s : Scan α} {rest : List Char} (hr : s rest = none) :
    many s rest = some ([], rest) := by
  rw [many, hr]

/-- Where nothing more follows, the pieces are all. -/
theorem many_flatMap {s : Scan α} {write : α → List Char}
    (hs : ∀ a rest, s (write a ++ rest) = some (a, rest)) (hw : ∀ a, write a ≠ [])
    (as : List α) {rest : List Char} (hr : s rest = none) :
    many s (as.flatMap write ++ rest) = some (as, rest) := by
  rw [many_flatMap_append hs hw, many_of_eq_none hr, Option.map_some, List.append_nil]

end Scan

namespace Sql

/-! ## One token at a time -/

theorem tokens_nil : tokens [] = some [] := by
  rw [tokens, Scan.many]
  rfl

/-- What stands at the front of a text is its first token. -/
theorem tokens_of_lexeme {cs rest : List Char} {t : Option Token}
    (h : lexeme cs = some (t, rest)) (hlt : rest.length < cs.length) :
    tokens cs = (tokens rest).map (t.toList ++ ·) := by
  unfold tokens
  rw [Scan.many, h]
  simp only [if_pos hlt]
  cases hm : Scan.many lexeme rest with
  | none => rfl
  | some found =>
    obtain ⟨ts, rest'⟩ := found
    cases rest' with
    | nil => cases t <;> rfl
    | cons c cs => rfl

theorem lexeme_space {c : Char} (hc : isSpace c = true) (rest : List Char) :
    lexeme (c :: rest) = some (none, rest) := by
  simp only [isSpace, List.contains_eq_mem, decide_eq_true_eq] at hc
  have hcs : c = ' ' ∨ c = '\t' ∨ c = '\n' ∨ c = '\r' ∨ c = '\x0b' ∨ c = '\x0c' := by
    simpa using hc
  rcases hcs with rfl | rfl | rfl | rfl | rfl | rfl <;> rfl

theorem tokens_space {c : Char} (hc : isSpace c = true) (rest : List Char) :
    tokens (c :: rest) = tokens rest := by
  rw [tokens_of_lexeme (lexeme_space hc rest) (by simp)]
  cases tokens rest <;> rfl

/-- A mark is a token of its own, whatever comes next. A point must not be followed by a digit. -/
theorem tokens_mark {c : Char} (hc : isMark c = true) (rest : List Char)
    (hp : c = '.' → rest.head?.any Char.isDigit = false) :
    tokens (c :: rest) = (tokens rest).map (.mark c :: ·) := by
  have hl : lexeme (c :: rest) = some (some (.mark c), rest) := by
    have hcs : c = '(' ∨ c = ')' ∨ c = ',' ∨ c = ';' ∨ c = '[' ∨ c = ']' ∨ c = '.' := by
      simpa [isMark] using hc
    rcases hcs with rfl | rfl | rfl | rfl | rfl | rfl | rfl
    case inr.inr.inr.inr.inr.inr =>
      have hd := hp rfl
      simp only [lexeme, show isWordStart '.' = false by decide, show Char.isDigit '.' = false by
        decide, show isSpace '.' = false by decide, show isMark '.' = true by decide, hd]
      rfl
    all_goals rfl
  rw [tokens_of_lexeme hl (by simp)]
  rfl

/-! ## Quoted names and constants -/

theorem doubled_identifierChar (c : Char) (rest : List Char) :
    doubled '"' (identifierChar c ++ rest) = some (c, rest) := by
  unfold identifierChar
  split
  · next hc => subst hc; rfl
  · next hc => simp [doubled, hc]

theorem identifierChar_ne_nil (c : Char) : identifierChar c ≠ [] := by
  unfold identifierChar
  split <;> simp

/-- A lone quote is nothing between quotes. -/
theorem doubled_mark {mark : Char} {rest : List Char} (hr : rest.head? ≠ some mark) :
    doubled mark (mark :: rest) = none := by
  cases rest with
  | nil => simp [doubled]
  | cons d ds =>
    have hd : d ≠ mark := fun h => hr (by rw [h]; rfl)
    simp [doubled, hd]

theorem tokens_identifierChars (cs : List Char) {rest : List Char}
    (hr : rest.head? ≠ some '"') :
    tokens (identifierChars cs ++ rest)
      = (tokens rest).map (.identifier (String.ofList cs) :: ·) := by
  have hm := Scan.many_flatMap doubled_identifierChar identifierChar_ne_nil cs (doubled_mark hr)
  have hl : lexeme (identifierChars cs ++ rest)
      = some (some (.identifier (String.ofList cs)), rest) := by
    have hopen : lexeme (identifierChars cs ++ rest)
        = identifierToken (cs.flatMap identifierChar ++ '"' :: rest) := by
      simp [identifierChars, lexeme, show isWordStart '"' = false by decide,
        show Char.isDigit '"' = false by decide, show isSpace '"' = false by decide]
    rw [hopen]
    simp [identifierToken, Scan.map, Scan.after, hm, Scan.exactly]
  rw [tokens_of_lexeme hl (by simp [identifierChars]; omega)]
  rfl

theorem eq_of_toNat {c : Char} {n : Nat} (h : c.toNat = n) : Char.ofNat n = c := by
  rw [← h]
  exact Char.ofNat_toNat c

/-- What a constant is written with is read back, and an escape never takes what comes next. -/
theorem escaped_constantChar (c : Char) (rest : List Char) :
    escaped (constantChar c ++ rest) = some (c, rest) := by
  unfold constantChar
  split
  · next h => rw [← eq_of_toNat h]; rfl
  split
  · next h => rw [h]; rfl
  split
  · next h => rw [h]; rfl
  split
  · next h => rw [← eq_of_toNat h]; rfl
  split
  · next h => rw [h]; rfl
  split
  · next h => rw [← eq_of_toNat h]; rfl
  split
  · next h => rw [h]; rfl
  split
  · next h => rw [h]; rfl
  split
  · next h => rw [h]; rfl
  · next hb hq _ => simp [escaped, doubled, hb, hq]

theorem constantChar_ne_nil (c : Char) : constantChar c ≠ [] := by
  unfold constantChar
  repeat' split
  all_goals simp

/-- A constant ends before anything that neither goes on with it nor is another quote. -/
theorem constantBody_append {part : Scan Char} {body cs rest : List Char}
    (hm : Scan.many part (body ++ '\'' :: rest) = some (cs, '\'' :: rest))
    (hg : gap .sameLine rest = none) :
    constantBody part (body ++ '\'' :: rest) = some (cs, rest) := by
  have hfirst : Scan.after (Scan.many part) (Scan.exactly ['\'']) (body ++ '\'' :: rest)
      = some (cs, rest) := by
    simp [Scan.after, hm, Scan.exactly]
  have hmore : Scan.many (Scan.before (gap .sameLine)
      (Scan.after (Scan.many part) (Scan.exactly ['\'']))) rest = some ([], rest) := by
    have hnone : Scan.before (gap .sameLine)
        (Scan.after (Scan.many part) (Scan.exactly ['\''])) rest = none := by
      simp [Scan.before, hg]
    rw [Scan.many, hnone]
  simp [constantBody, Scan.map, Scan.separated, hfirst, hmore]

theorem lexeme_constantChars (cs : List Char) {rest : List Char} (hq : rest.head? ≠ some '\'')
    (hg : gap .sameLine rest = none) :
    lexeme (constantChars cs ++ rest) = some (some (.constant (String.ofList cs)), rest) := by
  have hend : escaped ('\'' :: rest) = none := doubled_mark hq
  have hm := Scan.many_flatMap escaped_constantChar constantChar_ne_nil cs hend
  have hopen : lexeme (constantChars cs ++ rest)
      = constantToken escaped (cs.flatMap constantChar ++ '\'' :: rest) := by
    simp [constantChars, lexeme, wordToken, List.span, List.span.loop,
      show isWordStart 'E' = true by decide, show isWordChar 'E' = true by decide,
      show isWordChar '\'' = false by decide, show Char.toLower 'E' = 'e' by decide]
  rw [hopen, constantToken, Scan.map, constantBody_append hm hg]
  rfl

theorem tokens_constantChars (cs : List Char) {rest : List Char} (hq : rest.head? ≠ some '\'')
    (hg : gap .sameLine rest = none) :
    tokens (constantChars cs ++ rest)
      = (tokens rest).map (.constant (String.ofList cs) :: ·) := by
  rw [tokens_of_lexeme (lexeme_constantChars cs hq hg) (by simp [constantChars]; omega)]
  rfl

/-- A constant without escapes that has no quote inside is one token. -/
theorem tokens_plainConstant {cs rest : List Char} (hcs : '\'' ∉ cs) (hq : rest.head? ≠ some '\'')
    (hg : gap .sameLine rest = none) :
    tokens ('\'' :: (cs ++ '\'' :: rest))
      = (tokens rest).map (.constant (String.ofList cs) :: ·) := by
  have hm : Scan.many (doubled '\'') (cs ++ '\'' :: rest) = some (cs, '\'' :: rest) := by
    induction cs with
    | nil => rw [List.nil_append, Scan.many, doubled_mark hq]
    | cons c cs ih =>
      have hc : c ≠ '\'' := (List.ne_of_not_mem_cons hcs).symm
      have hd : doubled '\'' (c :: (cs ++ '\'' :: rest)) = some (c, cs ++ '\'' :: rest) := by
        simp [doubled, hc]
      rw [List.cons_append, Scan.many, hd]
      simp [ih (List.not_mem_of_not_mem_cons hcs)]
  have hl : lexeme ('\'' :: (cs ++ '\'' :: rest))
      = some (some (.constant (String.ofList cs)), rest) := by
    have hopen : lexeme ('\'' :: (cs ++ '\'' :: rest))
        = constantToken (doubled '\'') (cs ++ '\'' :: rest) := by
      simp [lexeme, show isWordStart '\'' = false by decide,
        show Char.isDigit '\'' = false by decide, show isSpace '\'' = false by decide]
    rw [hopen, constantToken, Scan.map, constantBody_append hm hg]
    rfl
  rw [tokens_of_lexeme hl (by simp; omega)]
  rfl

/-! ## Words, numerals and operators -/

/-- A run of a class ends before a character that is not in it. -/
theorem span_append {p : Char → Bool} {cs rest : List Char} (hcs : ∀ c ∈ cs, p c = true)
    (hr : ∀ c ∈ rest.head?, p c = false) : (cs ++ rest).span p = (cs, rest) := by
  rw [List.span_eq_takeWhile_dropWhile, List.takeWhile_append_of_pos hcs,
    List.dropWhile_append_of_pos hcs]
  cases rest with
  | nil => simp
  | cons c rest =>
    have hc := hr c rfl
    simp [hc]

theorem length_lt_cons_append (c : Char) (cs rest : List Char) :
    rest.length < (c :: (cs ++ rest)).length := by
  rw [List.length_cons, List.length_append]
  omega

/-- A character of one class is none of a list of characters that has none of the class. -/
theorem contains_eq_false {p : Char → Bool} {cs : List Char} (hnone : cs.any p = false) {c : Char}
    (hc : p c = true) : cs.contains c = false := by
  rw [List.contains_eq_mem, decide_eq_false_iff_not]
  intro hmem
  exact List.any_eq_false.mp hnone c hmem hc

theorem isSpace_of_isWordChar {c : Char} (hc : isWordChar c = true) : isSpace c = false :=
  contains_eq_false (by rfl) hc

/-- What may stand right after a word: nothing that goes on with it or makes a constant of it. -/
def EndsWord (rest : List Char) : Prop :=
  ∀ c ∈ rest.head?, isWordChar c = false ∧ c ≠ '\'' ∧ c ≠ '&'

theorem tokens_word {c : Char} {cs rest : List Char} (hc : isWordStart c = true)
    (hcs : ∀ d ∈ cs, isWordChar d = true) (hr : EndsWord rest) :
    tokens (c :: (cs ++ rest))
      = (tokens rest).map (.word (String.ofList ((c :: cs).map Char.toLower)) :: ·) := by
  have hspan : (c :: (cs ++ rest)).span isWordChar = (c :: cs, rest) := by
    have hall : ∀ d ∈ c :: cs, isWordChar d = true := by
      intro d hd
      rcases List.mem_cons.mp hd with rfl | hd
      · simp [isWordChar, hc]
      · exact hcs d hd
    exact span_append hall fun d hd => (hr d hd).1
  have hl : lexeme (c :: (cs ++ rest))
      = some (some (.word (String.ofList ((c :: cs).map Char.toLower))), rest) := by
    rw [lexeme, if_pos hc, wordToken, hspan]
    cases rest with
    | nil => rfl
    | cons d ds =>
      obtain ⟨-, hq, hamp⟩ := hr d rfl
      simp only
      split
      · next h => exact absurd (List.cons.inj h).1 hq
      · next h => exact absurd (List.cons.inj h).1 hamp
      · rfl
  rw [tokens_of_lexeme hl (length_lt_cons_append c cs rest)]
  rfl

/-- What may stand right after a numeral. -/
def EndsNumeral (rest : List Char) : Prop :=
  ∀ c ∈ rest.head?, c.isDigit = false ∧ c ≠ '.' ∧ isWordStart c = false

theorem endsNumeral_of {rest : List Char} (hr : EndsNumeral rest) : endsNumeral rest = true := by
  cases rest with
  | nil => rfl
  | cons c cs =>
    obtain ⟨-, hp, hw⟩ := hr c rfl
    simp [endsNumeral, hp, hw]

theorem isWordStart_of_isDigit {c : Char} (h : c.isDigit = true) : isWordStart c = false := by
  have hne : c ≠ '_' := by
    rintro rfl
    exact absurd h (by decide)
  have h9 : '9'.val.toNat = 57 := rfl
  have hA : 'A'.val.toNat = 65 := rfl
  have ha : 'a'.val.toNat = 97 := rfl
  have hc : c.val.toNat = c.toNat := rfl
  simp only [Char.isDigit, ge_iff_le, Bool.and_eq_true, decide_eq_true_eq,
    UInt32.le_iff_toNat_le] at h
  have halpha : c.isAlpha = (decide ('A'.val ≤ c.val ∧ c.val ≤ 'Z'.val)
      || decide ('a'.val ≤ c.val) && decide (c.val ≤ 'z'.val)) := rfl
  simp only [isWordStart, halpha, Bool.or_eq_false_iff, beq_eq_false_iff_ne,
    decide_eq_false_iff_not, Bool.and_eq_false_iff, UInt32.le_iff_toNat_le]
  refine ⟨⟨⟨?_, ?_⟩, hne⟩, ?_⟩ <;> omega

/-- What begins with a digit is read as a numeral. -/
theorem lexeme_digit {c : Char} (hc : c.isDigit = true) (cs : List Char) :
    lexeme (c :: cs) = numeralToken (c :: cs) := by
  simp [lexeme, isWordStart_of_isDigit hc, hc]

theorem tokens_whole {ds rest : List Char} (hne : ds ≠ []) (hds : ∀ d ∈ ds, d.isDigit = true)
    (hr : EndsNumeral rest) :
    tokens (ds ++ rest) = (tokens rest).map (.numeral ds [] :: ·) := by
  have hspan : (ds ++ rest).span Char.isDigit = (ds, rest) :=
    span_append hds fun c hc => (hr c hc).1
  obtain ⟨d, ds', rfl⟩ := List.exists_cons_of_ne_nil hne
  have hl : lexeme (d :: ds' ++ rest) = some (some (.numeral (d :: ds') []), rest) := by
    rw [List.cons_append, lexeme_digit (hds d List.mem_cons_self), ← List.cons_append,
      numeralToken, hspan]
    cases rest with
    | nil => rfl
    | cons c cs =>
      have hp : c ≠ '.' := (hr c rfl).2.1
      simp only
      split
      · next h => exact absurd (List.cons.inj h).1 hp
      · rw [if_pos (endsNumeral_of hr)]
  rw [tokens_of_lexeme hl (length_lt_cons_append d ds' rest)]
  rfl

/-- Two runs of digits with a point between them are one token. -/
theorem tokens_fraction {ds fs rest : List Char} (hne : ds ≠ [])
    (hds : ∀ d ∈ ds, d.isDigit = true) (hfs : ∀ d ∈ fs, d.isDigit = true)
    (hr : EndsNumeral rest) :
    tokens (ds ++ '.' :: (fs ++ rest)) = (tokens rest).map (.numeral ds fs :: ·) := by
  have hwhole : (ds ++ '.' :: (fs ++ rest)).span Char.isDigit = (ds, '.' :: (fs ++ rest)) := by
    refine span_append hds fun c hc => ?_
    rw [← Option.some.inj hc]
    decide
  have hfraction : (fs ++ rest).span Char.isDigit = (fs, rest) :=
    span_append hfs fun c hc => (hr c hc).1
  obtain ⟨d, ds', rfl⟩ := List.exists_cons_of_ne_nil hne
  have hl : lexeme (d :: ds' ++ '.' :: (fs ++ rest))
      = some (some (.numeral (d :: ds') fs), rest) := by
    rw [List.cons_append, lexeme_digit (hds d List.mem_cons_self), ← List.cons_append,
      numeralToken, hwhole]
    simp only [hfraction]
    rw [if_pos (endsNumeral_of hr)]
  rw [tokens_of_lexeme hl (by simp; omega)]
  rfl

theorem isOperatorChar_of_isDigit {c : Char} (h : c.isDigit = true) :
    isOperatorChar c = false :=
  contains_eq_false (by rfl) h

/-- No operator goes on with a character that operators do not have. -/
theorem operatorRun_cons {c : Char} (hc : isOperatorChar c = false) (cs : List Char) :
    operatorRun (c :: cs) = [] := by
  unfold operatorRun
  split
  · rfl
  · rfl
  · rfl
  · next h => rw [← (List.cons.inj h).1, if_neg (by simp [hc])]

/-- A minus sign before a digit is a token of its own. -/
theorem tokens_minus {d : Char} (hd : d.isDigit = true) (rest : List Char) :
    tokens ('-' :: d :: rest) = (tokens (d :: rest)).map (.operator "-" :: ·) := by
  have hrun := operatorRun_cons (isOperatorChar_of_isDigit hd) rest
  have hne : d ≠ '-' := by
    rintro rfl
    exact absurd hd (by decide)
  have hl : lexeme ('-' :: d :: rest) = some (some (.operator "-"), d :: rest) := by
    have hopen : lexeme ('-' :: d :: rest) = operatorToken ('-' :: d :: rest) := rfl
    have hall : operatorRun ('-' :: d :: rest) = ['-'] := by
      simp [operatorRun, hne, hrun, show isOperatorChar '-' = true by decide]
    rw [hopen, operatorToken, hall]
    · rfl
    · intro cs h
      exact hne (List.cons.inj (List.cons.inj h).2).1
    · intro cs h
      exact absurd (List.cons.inj h).1 (by decide)
  rw [tokens_of_lexeme hl (by simp)]
  rfl

/-! ## Texts that end where they end -/

/-- What ends every token: a blank or line end, a comma, a bracket or a semicolon, as long as no
constant goes on behind it. -/
def Boundary (rest : List Char) : Prop :=
  (∀ c ∈ rest.head?, c = ' ' ∨ c = '\n' ∨ c = ',' ∨ c = '(' ∨ c = ')' ∨ c = ';')
    ∧ gap .sameLine rest = none

theorem boundary_nil : Boundary [] := ⟨by simp, by rw [gap]⟩

namespace Boundary

variable {rest : List Char}

theorem endsWord (h : Boundary rest) : EndsWord rest := by
  intro c hc
  rcases h.1 c hc with rfl | rfl | rfl | rfl | rfl | rfl <;> decide

theorem endsNumeral (h : Boundary rest) : EndsNumeral rest := by
  intro c hc
  rcases h.1 c hc with rfl | rfl | rfl | rfl | rfl | rfl <;> decide

/-- No quote follows, so nothing that ends with one goes on. -/
theorem head_ne (h : Boundary rest) {c : Char} (hc : c = '"' ∨ c = '\'') : rest.head? ≠ some c := by
  intro hr
  rcases hc with rfl | rfl <;>
    rcases h.1 _ hr with h | h | h | h | h | h <;> exact absurd h (by decide)

end Boundary

/-- A text that is cut into these tokens before anything that ends a token. -/
def Lexes (cs : List Char) (ts : List Token) : Prop :=
  ∀ rest, Boundary rest → tokens (cs ++ rest) = (tokens rest).map (ts ++ ·)

/-- A text that may stand behind a blank: it does not make a constant in front of it go on. -/
def Opens (cs : List Char) : Prop := ∀ rest, gap .sameLine (cs ++ rest) = none

theorem opens_cons {c : Char} (cs : List Char) (hs : isSpace c = false) (hm : c ≠ '-') :
    Opens (c :: cs) := by
  intro rest
  have hline : isLineEnd c = false := by
    cases hl : isLineEnd c with
    | false => rfl
    | true =>
      have hc : c = '\n' ∨ c = '\r' := by simpa [isLineEnd] using hl
      rcases hc with rfl | rfl <;> exact absurd hs (by decide)
  simp [gap, hm, hs, hline]

theorem Opens.append {v : List Char} (h : Opens v) (w : List Char) : Opens (v ++ w) := by
  intro rest
  rw [List.append_assoc]
  exact h _

namespace Lexes

variable {v w : List Char} {ts us : List Token}

theorem tokens_eq (h : Lexes v ts) : tokens v = some ts := by
  have hv := h [] boundary_nil
  rw [List.append_nil, tokens_nil, Option.map_some, List.append_nil] at hv
  exact hv

theorem blank (hv : Lexes v ts) (hw : Lexes w us) (ho : Opens w) :
    Lexes (v ++ ' ' :: w) (ts ++ us) := by
  intro rest hr
  have hb : Boundary (' ' :: (w ++ rest)) := by
    refine ⟨fun c hc => Or.inl (Option.some.inj hc).symm, ?_⟩
    have hg : gap .sameLine (' ' :: (w ++ rest)) = gap .sameLine (w ++ rest) := by
      simp [gap, show isLineEnd ' ' = false by decide, show isSpace ' ' = true by decide]
    rw [hg]
    exact ho rest
  rw [List.append_assoc, List.cons_append, hv _ hb, tokens_space (by decide), hw rest hr,
    Option.map_map]
  congr 1
  funext us'
  simp

theorem mark {c : Char} (hc : c = ',' ∨ c = '(' ∨ c = ')' ∨ c = ';') (hv : Lexes v ts)
    (hw : Lexes w us) : Lexes (v ++ c :: w) (ts ++ .mark c :: us) := by
  intro rest hr
  have hb : Boundary (c :: (w ++ rest)) := by
    refine ⟨fun d hd => ?_, ?_⟩
    · rw [← Option.some.inj hd]
      exact Or.inr (Or.inr hc)
    · rcases hc with rfl | rfl | rfl | rfl <;> exact opens_cons w (by decide) (by decide) rest
  have hm : tokens (c :: (w ++ rest)) = (tokens (w ++ rest)).map (.mark c :: ·) := by
    rcases hc with rfl | rfl | rfl | rfl <;>
      exact tokens_mark (by decide) _ fun h => absurd h (by decide)
  rw [List.append_assoc, List.cons_append, hv _ hb, hm, hw rest hr, Option.map_map, Option.map_map]
  congr 1
  funext us'
  simp

theorem nil : Lexes [] [] := by
  intro rest _
  rw [List.nil_append]
  cases tokens rest <;> rfl

/-- Blank space in front makes no difference. -/
theorem spaces (blanks : List Char) (hb : ∀ c ∈ blanks, isSpace c = true) (hw : Lexes w us) :
    Lexes (blanks ++ w) us := by
  induction blanks with
  | nil => exact hw
  | cons c blanks ih =>
    obtain ⟨hc, hb⟩ := List.forall_mem_cons.mp hb
    intro rest hr
    rw [List.cons_append, List.cons_append, tokens_space hc]
    exact ih hb rest hr

theorem parens (hv : Lexes v ts) :
    Lexes ('(' :: (v ++ [')'])) (.mark '(' :: (ts ++ [.mark ')'])) :=
  mark (Or.inr (Or.inl rfl)) nil (mark (Or.inr (Or.inr (Or.inl rfl))) hv nil)

end Lexes

theorem lexes_identifierChars (cs : List Char) :
    Lexes (identifierChars cs) [.identifier (String.ofList cs)] :=
  fun _ hr => tokens_identifierChars cs (hr.head_ne (Or.inl rfl))

theorem lexes_constantChars (cs : List Char) :
    Lexes (constantChars cs) [.constant (String.ofList cs)] :=
  fun _ hr => tokens_constantChars cs (hr.head_ne (Or.inr rfl)) hr.2

theorem lexes_plainConstant {cs : List Char} (hcs : '\'' ∉ cs) :
    Lexes ('\'' :: (cs ++ ['\''])) [.constant (String.ofList cs)] := by
  intro rest hr
  have h := tokens_plainConstant hcs (hr.head_ne (Or.inr rfl)) hr.2
  simpa using h

theorem lexes_word {c : Char} {cs : List Char} (hc : isWordStart c = true)
    (hcs : ∀ d ∈ cs, isWordChar d = true) :
    Lexes (c :: cs) [.word (String.ofList ((c :: cs).map Char.toLower))] :=
  fun _ hr => tokens_word hc hcs hr.endsWord

/-- Whether a text is a word, and this is how the word is read. -/
def isKeyword (written read : String) : Bool :=
  match written.toList with
  | [] => false
  | c :: cs => isWordStart c && cs.all isWordChar && (c :: cs).map Char.toLower == read.toList

theorem exists_of_isKeyword {written read : String} (h : isKeyword written read = true) :
    ∃ c cs, written.toList = c :: cs ∧ isWordStart c = true ∧ (∀ d ∈ cs, isWordChar d = true)
      ∧ String.ofList ((c :: cs).map Char.toLower) = read := by
  unfold isKeyword at h
  split at h
  · exact Bool.noConfusion h
  · next c cs hw =>
    simp only [Bool.and_eq_true, List.all_eq_true, beq_iff_eq] at h
    obtain ⟨⟨hc, hcs⟩, hread⟩ := h
    exact ⟨c, cs, hw, hc, hcs, by rw [hread, String.ofList_toList]⟩

theorem lower_of_isKeyword {written read : String} (h : isKeyword written read = true) :
    Text.lower written = read := by
  obtain ⟨c, cs, hw, -, -, hread⟩ := exists_of_isKeyword h
  rw [Text.lower, hw, hread]

theorem lexes_keyword {written read : String} (h : isKeyword written read = true) :
    Lexes written.toList [.word read] := by
  obtain ⟨c, cs, hw, hc, hcs, hread⟩ := exists_of_isKeyword h
  rw [hw, ← hread]
  exact lexes_word hc hcs

/-- What begins like a word may stand behind a blank. -/
theorem opens_word {c : Char} (hc : isWordStart c = true) (cs : List Char) : Opens (c :: cs) := by
  refine opens_cons cs (isSpace_of_isWordChar (by simp [isWordChar, hc])) ?_
  rintro rfl
  exact absurd hc (by decide)

theorem opens_keyword {written read : String} (h : isKeyword written read = true) :
    Opens written.toList := by
  obtain ⟨c, cs, hw, hc, -, -⟩ := exists_of_isKeyword h
  rw [hw]
  exact opens_word hc cs

/-- A word with a blank behind it. -/
theorem Lexes.keyword {written read : String} {w : List Char} {us : List Token}
    (h : isKeyword written read = true) (hw : Lexes w us) (ho : Opens w) :
    Lexes (written.toList ++ ' ' :: w) (.word read :: us) :=
  blank (lexes_keyword h) hw ho

/-- Some words with a blank behind each. -/
theorem Lexes.phrase (written : String) (words : List (String × String)) {w : List Char}
    {us : List Token} (hwritten : written.toList = words.flatMap fun word => word.1.toList ++ [' '])
    (hk : ∀ word ∈ words, isKeyword word.1 word.2 = true) (hw : Lexes w us) (ho : Opens w) :
    Lexes (written.toList ++ w) (words.map (.word ·.2) ++ us) := by
  rw [hwritten]
  clear hwritten
  induction words with
  | nil => exact hw
  | cons word words ih =>
    obtain ⟨hword, hk⟩ := List.forall_mem_cons.mp hk
    have hopens : Opens ((words.flatMap fun word => word.1.toList ++ [' ']) ++ w) := by
      cases words with
      | nil => exact ho
      | cons next words =>
        rw [List.flatMap_cons, List.append_assoc, List.append_assoc]
        exact (opens_keyword (hk next List.mem_cons_self)).append _
    have h := Lexes.keyword hword (ih hk) hopens
    simpa using h

/-- Texts with a comma between them, each with some blank space behind it. -/
theorem lexes_commas (separator : String) (blanks : List Char) {texts : List String}
    {tss : List (List Token)} (hs : separator.toList = ',' :: blanks)
    (hb : ∀ c ∈ blanks, isSpace c = true)
    (h : List.Forall₂ (fun text ts => Lexes text.toList ts) texts tss) :
    Lexes (separator.intercalate texts).toList ([.mark ','].intercalate tss) := by
  induction h with
  | nil => exact Lexes.nil
  | @cons text ts texts tss hfirst hrest ih =>
    cases hrest with
    | nil => simpa using hfirst
    | cons hnext hrest =>
      rw [String.intercalate_cons_cons, List.intercalate_cons_cons, String.toList_append,
        String.toList_append, hs]
      have hl := Lexes.mark (Or.inl rfl) hfirst (Lexes.spaces blanks hb ih)
      simpa using hl

theorem lexes_whole {ds : List Char} (hne : ds ≠ []) (hds : ∀ d ∈ ds, d.isDigit = true) :
    Lexes ds [.numeral ds []] :=
  fun _ hr => tokens_whole hne hds hr.endsNumeral

/-- An operator with a blank behind it, which must be cut as a whole. -/
theorem lexes_operator {op : String} {w : List Char} {us : List Token}
    (hl : ∀ cs, lexeme (op.toList ++ ' ' :: cs) = some (some (.operator op), ' ' :: cs))
    (hne : op.toList ≠ []) (hw : Lexes w us) :
    Lexes (op.toList ++ ' ' :: w) (.operator op :: us) := by
  intro rest hr
  have hpos := List.length_pos_iff.mpr hne
  rw [List.append_assoc, List.cons_append, tokens_of_lexeme (hl _) (by simp; omega),
    tokens_space (by decide), hw rest hr, Option.map_map]
  rfl

/-- A minus sign before digits. -/
theorem lexes_minus {d : Char} {ds : List Char} {ts : List Token} (hd : d.isDigit = true)
    (h : Lexes (d :: ds) ts) : Lexes ('-' :: d :: ds) (.operator "-" :: ts) := by
  intro rest hr
  rw [List.cons_append, List.cons_append, tokens_minus hd, ← List.cons_append, h rest hr,
    Option.map_map]
  rfl

end Sql

end EntityStore
