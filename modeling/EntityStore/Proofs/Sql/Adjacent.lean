import EntityStore.Proofs.Sql.Escapes
import EntityStore.Proofs.Sql.Prefix

/-!
# Literals next to other text

A literal is put into query text as it is. What it is read as there are the tokens that it is read as
alone (`standsApart_literal`), unless its last token goes on with what is behind it: a word or a numeral
with a letter or a digit, a constant with a quote or, behind a line break, with another constant.
`RunsOn` is this exception. How a literal begins is `LiteralText.begins`, which is all that what stands
in front of it has to know.
-/

set_option autoImplicit false

namespace EntityStore

namespace Sql

/-! ## Where a literal meets other text -/

/-- The last token of the first text goes on into the second one. -/
inductive RunsOn : List Char → List Char → Prop where
  /-- A word or a numeral goes on with a letter or a digit. -/
  | word {text rest : List Char} {c : Char} (ht : text.getLast? ≠ some '\'')
    (hr : rest.head? = some c) (hc : isWordChar c = true) : RunsOn text rest
  /-- Two quotes are one character of a constant. -/
  | quote {text rest : List Char} (ht : text.getLast? = some '\'') (hr : rest.head? = some '\'') :
    RunsOn text rest
  /-- A constant goes on behind a line break. -/
  | constant {text rest : List Char} (ht : text.getLast? = some '\'')
    (hr : gap .sameLine rest ≠ none) : RunsOn text rest

/-- What there is behind a placeholder: its border, or the next literal. -/
def Follows (rest : List Char) : Prop :=
  ∀ c ∈ rest.head?, isBorder c = true ∨ isWordChar c = true ∨ c = '\''

theorem Begins.follows {rest : List Char} (h : Begins rest) : Follows rest := by
  intro c hc
  cases h with
  | word cs hword => cases hc; exact .inr (.inl (by simp [isWordChar, hword]))
  | digit cs hdigit => cases hc; exact .inr (.inl (by simp [isWordChar, hdigit]))
  | minus cs hdigit => cases hc; exact .inl (by decide)
  | quote cs => cases hc; exact .inr (.inr rfl)
  | comment hcs => cases hc; exact .inl (by decide)

/-- A text that has these tokens in front of everything it does not run on into. -/
def StandsApart (text : List Char) (ts : List Token) : Prop :=
  ∀ rest, Follows rest → ¬ RunsOn text rest → tokens (text ++ rest) = (tokens rest).map (ts ++ ·)

/-- The texts that literals have. -/
inductive LiteralText : List Char → Prop where
  | keyword {written read : String} (h : isKeyword written read = true)
    (hlength : 1 < written.toList.length) : LiteralText written.toList
  | number {x : ℚ} {cs : List Char} (h : Unsigned x cs) (negative : Bool) :
    LiteralText (if negative then '-' :: cs else cs)
  | plain {cs : List Char} (hcs : '\'' ∉ cs) (hline : ∀ c ∈ cs, isLineEnd c = false) :
    LiteralText ('\'' :: (cs ++ ['\'']))
  | escaped (cs : List Char) : LiteralText (constantChars cs)
  | instant {cs : List Char} (hcs : '\'' ∉ cs) (hline : ∀ c ∈ cs, isLineEnd c = false) :
    LiteralText ("TIMESTAMP WITH TIME ZONE".toList ++ ' ' :: '\'' :: (cs ++ ['\'']))

theorem isLineEnd_of_isWordChar {c : Char} (hc : isWordChar c = true) : isLineEnd c = false :=
  isLineEnd_of_not_isSpace (isSpace_of_isWordChar hc)

theorem literalText_int (n : Int) : LiteralText (literal (.int n)).toList := by
  cases n with
  | ofNat m =>
    have h := LiteralText.number (unsigned_toDigits m) false
    simpa [literal, Numeral.ofInt, Numeral.toList_ofNat] using h
  | negSucc m =>
    have h := LiteralText.number (unsigned_toDigits (m + 1)) true
    simpa [literal, Numeral.ofInt, Numeral.toList_ofNat] using h

theorem literalText_float (x : Double) : LiteralText (literal (.float x)).toList := by
  have hletters {cs : List Char} (hcs : cs.all (!isLineEnd ·) = true) :
      ∀ c ∈ cs, isLineEnd c = false := by
    simpa using hcs
  cases x with
  | nan => exact @LiteralText.plain "NaN".toList (by decide) (hletters (by rfl))
  | infinity negative =>
    cases negative with
    | false => exact @LiteralText.plain "Infinity".toList (by decide) (hletters (by rfl))
    | true => exact @LiteralText.plain "-Infinity".toList (by decide) (hletters (by rfl))
  | finite negative m e =>
    have h := LiteralText.number (unsigned_finite m e) negative
    simpa [literal, floatLiteral, Layout.text, Layout.query] using h

theorem isLineEnd_instantText (t : Instant) : ∀ c ∈ t.text.toList, isLineEnd c = false := by
  intro c hc
  rw [Instant.text, String.toList_ofList] at hc
  rcases mem_instantChars hc with h | h
  · exact isLineEnd_of_isWordChar (by simp [isWordChar, h])
  · have hmarks : ['-', '+', 'T', ':', '.', 'Z'].any isLineEnd = false := by rfl
    simpa using List.any_eq_false.mp hmarks c h

theorem literalText_date (t : Instant) : LiteralText (literal (.date t)).toList := by
  have htext : (instantLiteral t).toList
      = "TIMESTAMP WITH TIME ZONE".toList ++ ' ' :: '\'' :: (t.text.toList ++ ['\'']) := by
    have hquote : "'".toList = ['\''] := by decide
    unfold instantLiteral
    rw [String.toList_append, String.toList_append, hquote]
    simp
  rw [literal, htext]
  exact .instant (quote_notMem_instantText t) (isLineEnd_instantText t)

theorem literalText (v : Value) : LiteralText (literal v).toList := by
  have hquoted (s : String) : LiteralText (quoteText s).toList := by
    rw [toList_quoteText]
    exact .escaped s.toList
  cases v with
  | null => exact .keyword (show isKeyword "NULL" "null" = true by decide) (by decide)
  | bool b =>
    cases b with
    | false => exact .keyword (show isKeyword "false" "false" = true by decide) (by decide)
    | true => exact .keyword (show isKeyword "true" "true" = true by decide) (by decide)
  | int n => exact literalText_int n
  | float x => exact literalText_float x
  | date t => exact literalText_date t
  | text s => exact hquoted s
  | document d => exact hquoted d.compact

theorem isLineEnd_quoted {cs : List Char} (hcs : ∀ c ∈ cs, isLineEnd c = false) :
    ∀ c ∈ '\'' :: (cs ++ ['\'']), isLineEnd c = false := by
  have hquote : isLineEnd '\'' = false := by decide
  refine List.forall_mem_cons.mpr ⟨hquote, List.forall_mem_append.mpr ⟨hcs, ?_⟩⟩
  exact List.forall_mem_singleton.mpr hquote

theorem isLineEnd_constantChars (cs : List Char) : ∀ c ∈ constantChars cs, isLineEnd c = false := by
  intro c hc
  simp only [constantChars, List.mem_cons, List.mem_append, List.mem_flatMap, List.not_mem_nil,
    or_false] at hc
  rcases hc with rfl | rfl | ⟨d, -, hd⟩ | rfl
  · decide
  · decide
  · -- A line break in the text is written with a backslash and a letter.
    rw [Bool.eq_false_iff]
    intro hend
    have hraw : c = '\n' ∨ c = '\r' := by simpa [isLineEnd] using hend
    rcases hraw with rfl | rfl <;> exact notMem_rawControls hd (by decide)
  · decide

/-- A literal is one line. -/
theorem LiteralText.isLineEnd_eq_false {text : List Char} (h : LiteralText text) :
    ∀ c ∈ text, isLineEnd c = false := by
  cases h with
  | keyword h _ =>
    obtain ⟨d, ds, hw, hd, hds, -⟩ := exists_of_isKeyword h
    rw [hw]
    refine List.forall_mem_cons.mpr ⟨?_, fun c hc => isLineEnd_of_isWordChar (hds c hc)⟩
    exact isLineEnd_of_isWordChar (by simp [isWordChar, hd])
  | @number x cs h negative =>
    have hnumeral : ∀ c ∈ cs, isLineEnd c = false := by
      intro c hc
      rcases h.chars c hc with hdigit | rfl
      · exact isLineEnd_of_isWordChar (by simp [isWordChar, hdigit])
      · decide
    split
    · exact List.forall_mem_cons.mpr ⟨by decide, hnumeral⟩
    · exact hnumeral
  | plain _ hline => exact isLineEnd_quoted hline
  | escaped cs => exact isLineEnd_constantChars cs
  | instant _ hline =>
    have hwords : "TIMESTAMP WITH TIME ZONE".toList.any isLineEnd = false := by rfl
    refine List.forall_mem_append.mpr ⟨fun c hc => ?_, ?_⟩
    · simpa using List.any_eq_false.mp hwords c hc
    · exact List.forall_mem_cons.mpr ⟨by decide, isLineEnd_quoted hline⟩

theorem LiteralText.begins {text : List Char} (h : LiteralText text) (rest : List Char) :
    Begins (text ++ rest) := by
  cases h with
  | keyword h _ =>
    obtain ⟨c, cs, hw, hc, -, -⟩ := exists_of_isKeyword h
    rw [hw]
    exact .word _ hc
  | number h negative =>
    obtain ⟨-, ⟨d, ds, rfl, hd⟩, -⟩ := h
    cases negative with
    | true => exact .minus _ hd
    | false => exact .digit _ hd
  | plain => exact .quote _
  | escaped cs => exact .word _ (by decide)
  | instant => exact .word _ (by decide)

/-- A word of more than one letter makes no constant of what is behind it. -/
theorem tokens_keyword {written read : String} (h : isKeyword written read = true)
    (hlength : 1 < written.toList.length) {rest : List Char}
    (hr : ∀ c ∈ rest.head?, isWordChar c = false) :
    tokens (written.toList ++ rest) = (tokens rest).map (.word read :: ·) := by
  obtain ⟨c, cs, hw, hc, hcs, rfl⟩ := exists_of_isKeyword h
  rw [hw] at hlength ⊢
  cases rest with
  | nil => exact tokens_word hc hcs (by simp [EndsWord])
  | cons e rest =>
    have hall : ∀ d ∈ c :: cs, isWordChar d = true :=
      List.forall_mem_cons.mpr ⟨by simp [isWordChar, hc], hcs⟩
    -- Single letters make a constant of a quote behind them, and a word is longer than that.
    have hlong (d : Char) : (c :: cs).map Char.toLower ≠ [d] := by
      intro heq
      have := congrArg List.length heq
      rw [List.length_map, List.length_singleton] at this
      omega
    have hl : lexeme (c :: (cs ++ e :: rest))
        = some (some (.word (String.ofList ((c :: cs).map Char.toLower))), e :: rest) := by
      have hother : [['b'], ['n'], ['x']].contains ((c :: cs).map Char.toLower) = false := by
        simp only [List.contains_eq_mem, decide_eq_false_iff_not, List.mem_cons, hlong,
          List.not_mem_nil, or_self, not_false_eq_true]
      rw [lexeme, if_pos hc, ← List.cons_append, wordToken_of_span (span_append hall hr), hother,
        if_neg (hlong 'e'), if_neg Bool.false_ne_true]
      split
      · rfl
      · rw [if_neg fun h => hlong 'u' h.2.1]
    rw [List.cons_append, tokens_of_lexeme hl (length_lt_cons_append c cs _)]
    rfl

/-- What does not run on ends with no letter or digit behind it. -/
theorem isWordChar_head_of_not_runsOn {text rest : List Char} (ht : text.getLast? ≠ some '\'')
    (hr : ¬ RunsOn text rest) : ∀ c ∈ rest.head?, isWordChar c = false := by
  intro c hc
  rw [Bool.eq_false_iff]
  exact fun hword => hr (.word ht hc hword)

theorem endsNumeral_of_follows {rest : List Char} (hf : Follows rest)
    (hr : ∀ c ∈ rest.head?, isWordChar c = false) : EndsNumeral rest := by
  intro c hc
  have hword := hr c hc
  simp only [isWordChar, Bool.or_eq_false_iff] at hword
  refine ⟨hword.1.2, ?_, hword.1.1⟩
  rcases hf c hc with h | h | rfl
  · exact (of_isBorder h).2.1
  · rw [hr c hc] at h
    cases h
  · decide

theorem getLast?_ne_of_notMem {text : List Char} {c : Char} (h : c ∉ text) :
    text.getLast? ≠ some c := by
  intro hlast
  exact h (List.mem_of_getLast? hlast)

theorem standsApart_number {x : ℚ} {cs : List Char} (h : Unsigned x cs) (negative : Bool) :
    ∃ ts, StandsApart (if negative then '-' :: cs else cs) ts := by
  have hbare : '\'' ∉ cs := fun hq => by simpa using h.chars _ hq
  obtain ⟨⟨whole, fraction, -, hreads⟩, ⟨d, ds, rfl, hd⟩, -⟩ := h
  have hends {rest : List Char} (hf : Follows rest) {text : List Char} (ht : '\'' ∉ text)
      (hr : ¬ RunsOn text rest) : EndsNumeral rest :=
    endsNumeral_of_follows hf (isWordChar_head_of_not_runsOn (getLast?_ne_of_notMem ht) hr)
  cases negative with
  | false => exact ⟨[.numeral whole fraction], fun rest hf hr => hreads rest (hends hf hbare hr)⟩
  | true =>
    have hbare' : '\'' ∉ '-' :: d :: ds := by simpa using hbare
    refine ⟨[.operator "-", .numeral whole fraction], fun rest hf hr => ?_⟩
    rw [if_pos rfl, List.cons_append, List.cons_append, tokens_minus hd, ← List.cons_append,
      hreads rest (hends hf hbare' hr), Option.map_map]
    rfl

/-- What does not run on ends with nothing behind it that goes on with a constant. -/
theorem quote_of_not_runsOn {text rest : List Char} (ht : text.getLast? = some '\'')
    (hr : ¬ RunsOn text rest) : rest.head? ≠ some '\'' ∧ gap .sameLine rest = none := by
  refine ⟨fun h => hr (.quote ht h), ?_⟩
  by_contra h
  exact hr (.constant ht h)

theorem LiteralText.exists_standsApart {text : List Char} (h : LiteralText text) :
    ∃ ts, StandsApart text ts := by
  cases h with
  | @keyword written read h hlength =>
    refine ⟨[.word read], fun rest hf hr => tokens_keyword h hlength ?_⟩
    obtain ⟨c, cs, hw, hc, hcs, -⟩ := exists_of_isKeyword h
    have hbare : '\'' ∉ written.toList := by
      rw [hw]
      rintro (_ | ⟨_, hq⟩)
      · exact absurd hc (by decide)
      · exact absurd (hcs _ hq) (by decide)
    exact isWordChar_head_of_not_runsOn (getLast?_ne_of_notMem hbare) hr
  | number h negative => exact standsApart_number h negative
  | @plain cs hcs _ =>
    refine ⟨[.constant (String.ofList cs)], fun rest hf hr => ?_⟩
    obtain ⟨hquote, hgap⟩ := quote_of_not_runsOn (by simp [List.getLast?_cons]) hr
    rw [List.cons_append, List.append_assoc]
    exact tokens_plainConstant hcs hquote hgap
  | escaped cs =>
    refine ⟨[.constant (String.ofList cs)], fun rest hf hr => ?_⟩
    obtain ⟨hquote, hgap⟩ := quote_of_not_runsOn (by simp [constantChars, List.getLast?_cons]) hr
    exact tokens_constantChars cs hquote hgap
  -- Behind the words there is a blank, so only the constant at the end meets the rest.
  | @instant cs hcs _ =>
    refine ⟨[.word "timestamp", .word "with", .word "time", .word "zone",
      .constant (String.ofList cs)], fun rest hf hr => ?_⟩
    obtain ⟨hquote, hgap⟩ := quote_of_not_runsOn (by simp [List.getLast?_cons]) hr
    have hb : Boundary (' ' :: '\'' :: (cs ++ '\'' :: rest)) := by
      refine ⟨by simp, ?_⟩
      rw [gap_cons (by decide) fun h => absurd h (by decide), if_neg (by decide), if_pos (by decide)]
      exact (gap_cons_eq_none_iff (by decide) (by decide) fun h => absurd h (by decide)).mpr
        (by decide)
    have h := lexes_timestampWords _ hb
    rw [tokens_space (by decide), tokens_plainConstant hcs hquote hgap, Option.map_map] at h
    rw [List.append_assoc, List.cons_append, List.cons_append, List.append_assoc]
    exact h

def literalTokens (v : Value) : List Token := (tokens (literal v).toList).getD []

theorem standsApart_nil {text : List Char} {ts : List Token} (h : StandsApart text ts) :
    tokens text = some ts := by
  have hfree : ¬ RunsOn text [] := by
    rintro (⟨-, hr, -⟩ | ⟨-, hr⟩ | ⟨-, hr⟩)
    · cases hr
    · cases hr
    · exact hr (by rw [gap])
  have h := h [] (by simp [Follows]) hfree
  simpa [tokens_nil] using h

theorem standsApart_literal (v : Value) : StandsApart (literal v).toList (literalTokens v) := by
  obtain ⟨ts, h⟩ := (literalText v).exists_standsApart
  rwa [literalTokens, standsApart_nil h]

theorem tokens_literal (v : Value) : tokens (literal v).toList = some (literalTokens v) :=
  standsApart_nil (standsApart_literal v)

/-- The tokens of a literal read as the value. -/
theorem constant?_literalTokens (v : Value) :
    constant? (literalTokens v) = some (Constant.ofValue v, []) := by
  obtain ⟨ts, hlex, hread⟩ := (written_literal v).reads
  have hts : ts = literalTokens v := by
    rw [literalTokens, hlex.tokens_eq]
    rfl
  have h := hread []
  rwa [List.append_nil, hts] at h

end Sql

end EntityStore
