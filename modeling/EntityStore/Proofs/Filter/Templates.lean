import EntityStore.Filter.Compiled
import EntityStore.Proofs.Sql.Adjacent

/-!
# Templates keep their tokens

A template is text with question marks, and a literal takes the place of each. The tokens of the result
should be those of the template, with those of the literals where the question marks were, whatever the
values are: no value takes away, changes or adds anything but at its own place.

It is so (`template_keeps_its_tokens`) unless a literal runs together with what is next to it. A literal
is put into the text as it is, and its first character may go on with a token in front of it
(`RunsInto`) as its last one may with a token behind it (`RunsOn`). A negative number behind a minus
sign is the case that matters: both signs begin a comment (`minus_behind_minus_comments_out`). Blanks,
brackets and commas around all placeholders keep a template of one line safe for all values
(`spaced_template_keeps_its_tokens`).

A template counts as one if all of it is read, so those with a notation that the lexer refuses are left
out.
-/

set_option autoImplicit false

namespace EntityStore

namespace Sql

/-! ## Filling in -/

/-- What a template is read as: tokens, and placeholders between them. Each question mark is one. It
is outside all quotes and comments, so a comma in its place would be read as one, and stands next to
borders only. -/
inductive ReadsAs : List Char → List (Option Token) → Prop where
  | last {p : List Char} {ts : List Token} (hp : '?' ∉ p) (h : tokens p = some ts) :
    ReadsAs p (ts.map some)
  | placeholder {p cs : List Char} {ts : List Token} {us : List (Option Token)} (hp : '?' ∉ p)
    (h : Reaches [','] p ts) (hleft : ∀ c ∈ p.getLast?, isBorder c = true)
    (hright : ∀ c ∈ cs.head?, isBorder c = true) (hrest : ReadsAs cs us) :
    ReadsAs (p ++ '?' :: cs) (ts.map some ++ none :: us)

/-- The tokens with the placeholders replaced, from left to right, by those of the values' literals.
Placeholders beyond the values are absent values. -/
def replaced : List (Option Token) → List Value → List Token
  | [], _ => []
  | some t :: ts, vs => t :: replaced ts vs
  | none :: ts, vs => literalTokens (vs.headD .null) ++ replaced ts vs.tail

/-- At some placeholder, the literal runs together with what is in front of it or behind it. -/
inductive Exposed : List Char → List Value → Prop where
  | before {p cs : List Char} {vs : List Value} (hp : '?' ∉ p)
    (h : RunsInto p ((literal (vs.headD .null)).toList ++ fillIn cs vs.tail)) :
    Exposed (p ++ '?' :: cs) vs
  | behind {p cs : List Char} {vs : List Value} (hp : '?' ∉ p)
    (h : RunsOn (literal (vs.headD .null)).toList (fillIn cs vs.tail)) :
    Exposed (p ++ '?' :: cs) vs
  | later {p cs : List Char} {vs : List Value} (hp : '?' ∉ p) (h : Exposed cs vs.tail) :
    Exposed (p ++ '?' :: cs) vs

theorem isBorder_of_all {o : Option Char} (h : o.all isBorder = true) :
    ∀ c ∈ o, isBorder c = true := by
  rintro c rfl
  exact h

theorem fillIn_cons {c : Char} (hc : c ≠ '?') (cs : List Char) (vs : List Value) :
    fillIn (c :: cs) vs = c :: fillIn cs vs := by
  rw [fillIn]
  · exact fun _ => hc
  · exact fun _ _ _ => hc

theorem fillIn_append {p : List Char} (hp : '?' ∉ p) (cs : List Char) (vs : List Value) :
    fillIn (p ++ cs) vs = p ++ fillIn cs vs := by
  induction p with
  | nil => rfl
  | cons c p ih =>
    have hc : c ≠ '?' := (List.ne_of_not_mem_cons hp).symm
    rw [List.cons_append, fillIn_cons hc, ih (List.not_mem_of_not_mem_cons hp), List.cons_append]

theorem fillIn_placeholder (cs : List Char) (vs : List Value) :
    fillIn ('?' :: cs) vs = (literal (vs.headD .null)).toList ++ fillIn cs vs.tail := by
  cases vs <;> rfl

theorem fillIn_nil (vs : List Value) : fillIn [] vs = [] := by
  rw [fillIn]

theorem replaced_append (ts : List Token) (us : List (Option Token)) (vs : List Value) :
    replaced (ts.map some ++ us) vs = ts ++ replaced us vs := by
  induction ts with
  | nil => rfl
  | cons t ts ih => exact congrArg (t :: ·) ih

theorem replaced_map_some (ts : List Token) (vs : List Value) :
    replaced (ts.map some) vs = ts := by
  have h := replaced_append ts [] vs
  rwa [List.append_nil, replaced, List.append_nil] at h

/-- Behind a placeholder there is its border, or a literal in the place of the next one. -/
theorem follows_fillIn {cs : List Char} (hcs : ∀ c ∈ cs.head?, isBorder c = true)
    (vs : List Value) : Follows (fillIn cs vs) := by
  cases cs with
  | nil => simp [Follows, fillIn_nil]
  | cons c cs =>
    by_cases hc : c = '?'
    · subst hc
      rw [fillIn_placeholder]
      exact ((literalText (vs.headD .null)).begins _).follows
    · intro d hd
      rw [fillIn_cons hc] at hd
      exact .inl (hcs d hd)

/-- Where no literal runs together with what is next to it, the tokens of the filled template are
those of the template with the placeholders replaced. -/
theorem tokens_fillIn {cs : List Char} {ts : List (Option Token)} (h : ReadsAs cs ts)
    {vs : List Value} (hvs : ¬ Exposed cs vs) : tokens (fillIn cs vs) = some (replaced ts vs) := by
  induction h generalizing vs with
  | @last p ts hp h =>
    have hfill := fillIn_append hp [] vs
    rw [List.append_nil, fillIn_nil, List.append_nil] at hfill
    rw [hfill, replaced_map_some, h]
  | @placeholder p cs ts us hp h hleft hright hrest ih =>
    have hbegins := (literalText (vs.headD .null)).begins (fillIn cs vs.tail)
    have hfront := (h.change hleft hbegins fun h => hvs (.before hp h)).tokens
    have hliteral := standsApart_literal (vs.headD .null) _ (follows_fillIn hright vs.tail)
      fun h => hvs (.behind hp h)
    rw [fillIn_append hp, fillIn_placeholder, hfront, hliteral, ih fun h => hvs (.later hp h),
      replaced_append, replaced]
    rfl

/-! ## Templates that are safe for all values -/

/-- What may stand next to a placeholder whatever the value is: a blank, a bracket or a comma. -/
def isOpen (c : Char) : Bool := (isSpace c && !isLineEnd c) || c == '(' || c == ')' || c == ','

/-- Whether a template is one line, and has nothing but blanks, brackets and commas next to its
placeholders, where this stands in front of it. -/
def isSpaced : Char → List Char → Bool
  | _, [] => true
  | front, c :: cs =>
    if c = '?' then isOpen front && cs.head?.all isOpen && isSpaced c cs
    else !isLineEnd c && isSpaced c cs

theorem isBorder_of_isOpen {c : Char} (h : isOpen c = true) : isBorder c = true := by
  simp only [isOpen, Bool.or_eq_true, Bool.and_eq_true] at h
  simp only [isBorder, Bool.or_eq_true]
  tauto

theorem isOperatorChar_of_isOpen {c : Char} (h : isOpen c = true) : isOperatorChar c = false :=
  contains_eq_false (by rfl) h

theorem isSpaced_append {front : Char} {p cs : List Char} (hp : '?' ∉ p)
    (h : isSpaced front (p ++ '?' :: cs) = true) :
    (∀ c ∈ p, isLineEnd c = false) ∧ (∀ c ∈ (front :: p).getLast?, isOpen c = true)
      ∧ (∀ c ∈ cs.head?, isOpen c = true) ∧ isSpaced '?' cs = true := by
  induction p generalizing front with
  | nil =>
    simp only [List.nil_append, isSpaced, if_true, Bool.and_eq_true, Option.all_eq_true] at h
    simpa [and_assoc] using h
  | cons c p ih =>
    have hc : c ≠ '?' := (List.ne_of_not_mem_cons hp).symm
    rw [List.cons_append, isSpaced, if_neg hc, Bool.and_eq_true] at h
    obtain ⟨hline, hp', hrest⟩ := ih (List.not_mem_of_not_mem_cons hp) h.2
    refine ⟨List.forall_mem_cons.mpr ⟨by simpa using h.1, hline⟩, ?_, hrest⟩
    simpa [List.getLast?_cons] using hp'

theorem mem_of_operatorRun_eq {v : List Char} (h : operatorRun v = v) :
    ∀ c ∈ v, isOperatorChar c = true := by
  induction v with
  | nil => simp
  | cons c v ih =>
    rw [operatorRun_cons_eq] at h
    split at h
    · cases h
    split at h
    · next hc => exact List.forall_mem_cons.mpr ⟨hc, ih (List.cons.inj h).2⟩
    · cases h

/-- No constant goes on on the same line. -/
theorem gap_eq_none_of_line {g : Gap} (hg : g ≠ .newLine) {cs : List Char}
    (hcs : ∀ c ∈ cs, isLineEnd c = false) : gap g cs = none := by
  fun_induction gap g cs with
  | case1 => rfl
  | case2 c cs ih =>
    obtain ⟨hc, hcs⟩ := List.forall_mem_cons.mp hcs
    exact ih (by simp [hc]) hcs
  | case3 g cs _ ih =>
    exact ih (by decide) (List.forall_mem_cons.mp (List.forall_mem_cons.mp hcs).2).2
  | case4 g c cs _ _ hc ih =>
    rw [hcs c List.mem_cons_self] at hc
    cases hc
  | case5 g c cs _ _ _ _ ih => exact ih hg (List.forall_mem_cons.mp hcs).2
  | case6 g c cs _ _ _ _ hquote => exact absurd hquote.2 hg
  | case7 => rfl

theorem not_runsInto_of_isOpen {v y : List Char} (hlast : ∀ c ∈ v.getLast?, isOpen c = true)
    (hline : ∀ c ∈ v, isLineEnd c = false) : ¬ RunsInto v y := by
  intro h
  induction h with
  | comment hv => exact absurd (hlast _ hv) (by decide)
  | @operator v y hv hl =>
    have hne : v ≠ [] := by
      rintro rfl
      cases hl
    have hchar := mem_of_operatorRun_eq hv _ (List.getLast_mem hne)
    have hopen := hlast _ (List.getLast?_eq_some_getLast hne)
    rw [isOperatorChar_of_isOpen hopen] at hchar
    cases hchar
  | @constant u x y s h hx =>
    refine hx (gap_eq_none_of_line (by decide) fun c hc => ?_)
    rcases List.mem_append.mp hc with hc | hc
    · exact hline c (List.mem_append_right u hc)
    · rw [List.mem_singleton.mp hc]
      decide
  | lettered => exact absurd (hlast '&' rfl) (by decide)
  | @later u w y t hu h hw ih =>
    exact ih (fun c hc => hlast c (List.mem_getLast?_append_of_mem_getLast? hc)) fun c hc =>
      hline c (List.mem_append_right u hc)

theorem isLineEnd_of_isSpaced {front : Char} {cs : List Char} (h : isSpaced front cs = true) :
    ∀ c ∈ cs, isLineEnd c = false := by
  induction cs generalizing front with
  | nil => simp
  | cons c cs ih =>
    rw [isSpaced] at h
    split at h
    · next hc =>
      rw [Bool.and_eq_true] at h
      exact List.forall_mem_cons.mpr ⟨by rw [hc]; decide, ih h.2⟩
    · rw [Bool.and_eq_true] at h
      exact List.forall_mem_cons.mpr ⟨by simpa using h.1, ih h.2⟩

theorem isLineEnd_fillIn {cs : List Char} (hcs : ∀ c ∈ cs, isLineEnd c = false) (vs : List Value) :
    ∀ c ∈ fillIn cs vs, isLineEnd c = false := by
  induction cs generalizing vs with
  | nil => simp [fillIn_nil]
  | cons c cs ih =>
    obtain ⟨hc, htail⟩ := List.forall_mem_cons.mp hcs
    intro d hd
    by_cases hmark : c = '?'
    · subst hmark
      rw [fillIn_placeholder] at hd
      rcases List.mem_append.mp hd with hd | hd
      · exact (literalText _).isLineEnd_eq_false d hd
      · exact ih htail vs.tail d hd
    · rw [fillIn_cons hmark] at hd
      rcases List.mem_cons.mp hd with rfl | hd
      · exact hc
      · exact ih htail vs d hd

theorem not_exposed_of_isSpaced {front : Char} {cs : List Char} (h : isSpaced front cs = true)
    (vs : List Value) : ¬ Exposed cs vs := by
  intro hexposed
  induction hexposed generalizing front with
  | @before p cs vs hp hruns =>
    obtain ⟨hline, hlast, -, -⟩ := isSpaced_append hp h
    exact not_runsInto_of_isOpen (fun c hc => hlast c (List.mem_getLast?_cons hc)) hline hruns
  | @behind p cs vs hp hruns =>
    obtain ⟨-, -, hhead, hrest⟩ := isSpaced_append hp h
    have hline := isLineEnd_fillIn (isLineEnd_of_isSpaced hrest) vs.tail
    have hopen : ∀ c ∈ (fillIn cs vs.tail).head?, isOpen c = true := by
      cases cs with
      | nil => simp [fillIn_nil]
      | cons c cs =>
        have hc : c ≠ '?' := by
          rintro rfl
          exact absurd (hhead '?' rfl) (by decide)
        rwa [fillIn_cons hc]
    -- On the same line, a blank, a bracket or a comma goes on with no literal.
    cases hruns with
    | word _ hr hc =>
      have h := (of_isBorder (isBorder_of_isOpen (hopen _ hr))).1
      rw [hc] at h
      cases h
    | quote _ hr => exact absurd (hopen _ hr) (by decide)
    | constant _ hr => exact hr (gap_eq_none_of_line (by decide) hline)
  | later hp _ ih => exact ih (isSpaced_append hp h).2.2.2

/-- A template of one line with blanks, brackets and commas around its placeholders keeps its tokens
for all values. -/
theorem spaced_template_keeps_its_tokens (e : Entity) {sql : String} {ts : List (Option Token)}
    (h : ReadsAs sql.toList ts) (hs : isSpaced ' ' sql.toList = true) (vs : List Value) :
    ∃ text, clauses e (.template sql vs) = .ok [text]
      ∧ tokens text.toList = some (replaced ts vs) := by
  refine ⟨String.ofList (fillIn sql.toList vs), ?_, ?_⟩
  · rw [clauses]
  · rw [String.toList_ofList, tokens_fillIn h (not_exposed_of_isSpaced hs vs)]

/-! ## The tokens of a filled template -/

/-- A template's text has the template's tokens, with the tokens of each literal at its placeholder,
unless a literal runs together with what is next to it. The tokens of a literal are those that it has
alone, and they read as the value. -/
theorem template_keeps_its_tokens (e : Entity) {sql : String} {ts : List (Option Token)}
    (h : ReadsAs sql.toList ts) {vs : List Value} (hvs : ¬ Exposed sql.toList vs) :
    (∃ text, clauses e (.template sql vs) = .ok [text]
      ∧ tokens text.toList = some (replaced ts vs))
    ∧ ∀ v, tokens (literal v).toList = some (literalTokens v)
      ∧ constant? (literalTokens v) = some (Constant.ofValue v, []) := by
  refine ⟨⟨String.ofList (fillIn sql.toList vs), ?_, ?_⟩, fun v => ?_⟩
  · rw [clauses]
  · rw [String.toList_ofList, tokens_fillIn h hvs]
  · exact ⟨tokens_literal v, constant?_literalTokens v⟩

/-- With blanks around the placeholders neither the sign nor anything in a text does any harm. -/
theorem blanks_around_keep_tokens :
    let note : Entity := .declare "note" none [.plain "title" .string] []
    let vs : List Value := [.int (-1), .text "' OR 1 = 1 -- ?"]
    ∃ text, clauses note (.template "score - ? = ?" vs) = .ok [text]
      ∧ tokens text.toList = some [.word "score", .operator "-", .operator "-", .numeral ['1'] [],
        .operator "=", .constant "' OR 1 = 1 -- ?"] := by
  intro note vs
  have hsql : "score - ? = ?".toList = "score - ".toList ++ '?' :: (" = ".toList ++ ['?']) := by
    decide
  have hreads : ReadsAs "score - ? = ?".toList
      [some (.word "score"), some (.operator "-"), none, some (.operator "="), none] := by
    have hfirst : Reaches [','] "score - ".toList [.word "score", .operator "-"] := by
      refine .token (u := "score".toList) (t := some (.word "score")) (by decide) (by rfl) (by simp) ?_
      refine .token (u := [' ']) (t := none) (by decide) (by rfl) (by simp) ?_
      refine .token (u := ['-']) (t := some (.operator "-")) (by decide) (by rfl) (by simp) ?_
      exact .token (u := [' ']) (t := none) (by decide) (by rfl) (by simp) .here
    have hsecond : Reaches [','] " = ".toList [.operator "="] := by
      refine .token (u := [' ']) (t := none) (by decide) (by rfl) (by simp) ?_
      refine .token (u := ['=']) (t := some (.operator "=")) (by decide) (by rfl) (by simp) ?_
      exact .token (u := [' ']) (t := none) (by decide) (by rfl) (by simp) .here
    have hlast : ReadsAs [] [] := .last (by decide) tokens_nil
    rw [hsql]
    exact .placeholder (by decide) hfirst (isBorder_of_all (by rfl)) (isBorder_of_all (by rfl))
      (.placeholder (by decide) hsecond (isBorder_of_all (by rfl)) (isBorder_of_all (by rfl)) hlast)
  have hspaced : isSpaced ' ' "score - ? = ?".toList = true := by decide
  obtain ⟨⟨text, htext, htokens⟩, -⟩ :=
    template_keeps_its_tokens note hreads (not_exposed_of_isSpaced hspaced _)
  have hreplaced : replaced [some (.word "score"), some (.operator "-"), none, some (.operator "="),
      none] vs = [.word "score", .operator "-", .operator "-",
        .numeral ['1'] [], .operator "=", .constant "' OR 1 = 1 -- ?"] := by decide +kernel
  exact ⟨text, htext, by rw [htokens, hreplaced]⟩

/-- Behind a minus sign, whatever is written with one takes the rest of the line away. -/
theorem rest_of_line_is_lost {u cs : List Char} {ts : List Token} {v : Value}
    (hv : (literal v).toList.head? = some '-') (vs : List Value) (hu : '?' ∉ u)
    (h : Reaches [','] u ts) (hlast : ∀ c ∈ u.getLast?, isOpen c = true)
    (hline : ∀ c ∈ u ++ cs, isLineEnd c = false) :
    tokens (fillIn (u ++ '-' :: '?' :: cs) (v :: vs)) = some ts := by
  obtain ⟨l, hl⟩ := List.head?_eq_some_iff.mp hv
  have hfill : fillIn (u ++ '-' :: '?' :: cs) (v :: vs) = u ++ '-' :: '-' :: (l ++ fillIn cs vs) := by
    rw [fillIn_append hu, fillIn_cons (by decide), fillIn_placeholder, List.headD_cons, hl,
      List.tail_cons, List.cons_append]
  have hcomment : ∀ c ∈ l ++ fillIn cs vs, isLineEnd c = false := by
    intro c hc
    rcases List.mem_append.mp hc with hc | hc
    · exact (literalText v).isLineEnd_eq_false c (by rw [hl]; exact List.mem_cons_of_mem _ hc)
    · exact isLineEnd_fillIn (fun d hd => hline d (List.mem_append_right u hd)) vs c hc
  have hborder : ∀ c ∈ u.getLast?, isBorder c = true := fun c hc => isBorder_of_isOpen (hlast c hc)
  have hruns : ¬ RunsInto u ('-' :: '-' :: (l ++ fillIn cs vs)) :=
    not_runsInto_of_isOpen hlast fun c hc => hline c (List.mem_append_left cs hc)
  have hreaches := h.change hborder (.comment (gap_eq_none_of_line (by decide) hcomment)) hruns
  -- The comment is all that is left, and it is no token.
  have hlexeme : lexeme ('-' :: '-' :: (l ++ fillIn cs vs)) = some (none, []) := by
    have hdrop : (l ++ fillIn cs vs).dropWhile (!isLineEnd ·) = [] :=
      List.dropWhile_eq_nil_iff.mpr fun c hc => by rw [hcomment c hc]; rfl
    rw [← hdrop]
    rfl
  rw [hfill, hreaches.tokens, tokens_of_lexeme hlexeme (by simp), tokens_nil]
  simp

/-- A negative number behind a minus sign begins a comment, and the condition behind it is gone. -/
theorem minus_behind_minus_comments_out :
    let note : Entity := .declare "note" none [.plain "title" .string] []
    let sql := "score = 5 -? AND title = 'x'"
    let ts := [some (.word "score"), some (.operator "="), some (.numeral ['5'] []),
      some (.operator "-"), none, some (.word "and"), some (.word "title"), some (.operator "="),
      some (.constant "x")]
    ReadsAs sql.toList ts
      ∧ clauses note (.template sql [.int (-1)]) = .ok ["score = 5 --1 AND title = 'x'"]
      ∧ tokens "score = 5 --1 AND title = 'x'".toList
        = some [.word "score", .operator "=", .numeral ['5'] []]
      ∧ ¬ ∀ (e : Entity) (sql : String) (ts : List (Option Token)) (vs : List Value),
        ReadsAs sql.toList ts → ∃ text, clauses e (.template sql vs) = .ok [text]
          ∧ tokens text.toList = some (replaced ts vs) := by
  intro note sql ts
  have hreads : ReadsAs sql.toList ts := by
    have hsql : sql.toList = "score = 5 -".toList ++ '?' :: " AND title = 'x'".toList := by decide
    -- The template is read with a comma where the placeholder stands, token by token.
    have hfront : Reaches [','] "score = 5 -".toList
        [.word "score", .operator "=", .numeral ['5'] [], .operator "-"] := by
      refine .token (u := "score".toList) (t := some (.word "score")) (by decide) (by rfl) (by simp) ?_
      refine .token (u := [' ']) (t := none) (by decide) (by rfl) (by simp) ?_
      refine .token (u := ['=']) (t := some (.operator "=")) (by decide) (by rfl) (by simp) ?_
      refine .token (u := [' ']) (t := none) (by decide) (by rfl) (by simp) ?_
      refine .token (u := ['5']) (t := some (.numeral ['5'] [])) (by decide) (by rfl) (by simp) ?_
      refine .token (u := [' ']) (t := none) (by decide) (by rfl) (by simp) ?_
      exact .token (u := ['-']) (t := some (.operator "-")) (by decide) (by rfl) (by simp) .here
    have hlast : ReadsAs " AND title = 'x'".toList
        ([.word "and", .word "title", .operator "=", .constant "x"].map some) :=
      .last (by decide) (by decide +kernel)
    rw [hsql]
    exact .placeholder (by decide) hfront (isBorder_of_all (by rfl)) (isBorder_of_all (by rfl)) hlast
  have htext : clauses note (.template sql [.int (-1)]) = .ok ["score = 5 --1 AND title = 'x'"] := by
    rw [clauses]
    exact congrArg (fun text => Except.ok [text]) (by decide +kernel)
  have htokens : tokens "score = 5 --1 AND title = 'x'".toList
      = some [.word "score", .operator "=", .numeral ['5'] []] := by decide +kernel
  refine ⟨hreads, htext, htokens, fun h => ?_⟩
  obtain ⟨text, hok, hkept⟩ := h note sql ts [.int (-1)] hreads
  rw [htext] at hok
  cases hok
  rw [htokens] at hkept
  exact absurd hkept (by decide +kernel)

/-! An operator takes a sign, a constant takes a constant behind a line break or right behind it, and a
numeral takes digits. -/

example : tokens (fillIn "a @?".toList [.int (-1)])
    = some [.word "a", .operator "@-", .numeral ['1'] []] := by decide +kernel

example : tokens (fillIn "'a'\n?".toList [.float .nan]) = some [.constant "aNaN"] := by decide +kernel

example : tokens (fillIn "??".toList [.text "a", .float .nan]) = some [.constant "a'NaN"] := by
  decide +kernel

example : tokens (fillIn "??".toList [.int 1, .int 2]) = some [.numeral ['1', '2'] []] := by
  decide +kernel

end Sql

end EntityStore
