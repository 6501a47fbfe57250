import EntityStore.Filter.Compiled
import EntityStore.Proofs.Ddl.Reading
import Mathlib

/-!
# An order keeps its words

An order is a text from the host, and it is not trusted: its words become names in quotes, and only `asc`
and `desc`, behind another word, become words of the query. So the text that an order is compiled to can be
cut into tokens and read as a list of columns with directions, and what is read are the words of the order,
all of them and in their order, whatever quotes and comment marks there are in them
(`order_reads_as_its_words`).

What the words of a text are is said by `Text.Words`, without cutting the text anywhere: a word goes from
one separator to the next.
-/

set_option autoImplicit false

namespace EntityStore

/-! ## The words of a text -/

namespace Text

/-- A text and its words, if some characters separate words. A word ends where the next separator is, or
the text ends, and another word comes only behind that separator. -/
inductive Words (separates : Char → Bool) : List Char → List (List Char) → Prop
  | nothing : Words separates [] []
  | separator {c : Char} {cs : List Char} {words : List (List Char)} (hc : separates c = true)
    (h : Words separates cs words) : Words separates (c :: cs) words
  | word {word rest : List Char} {words : List (List Char)} (hne : word ≠ [])
    (hword : ∀ c ∈ word, separates c = false) (hrest : ∀ c ∈ rest.head?, separates c = true)
    (h : Words separates rest words) : Words separates (word ++ rest) (word :: words)

variable {separates : Char → Bool} {cs : List Char} {words : List (List Char)}

/-- The words are what is left of the pieces between separators without the empty ones. -/
theorem Words.eq (h : Words separates cs words) :
    words = (cs.splitOnP separates).filter (!·.isEmpty) := by
  induction h with
  | nothing => rfl
  | separator hc h ih =>
    rw [List.splitOnP_cons_eq_if_modifyHead, if_pos hc, ih]
    rfl
  | @word word rest words hne hword hrest h ih =>
    have hkept : word.isEmpty = false := by simpa using hne
    cases rest with
    | nil =>
      rw [List.append_nil, List.splitOnP_eq_singleton hword, ih]
      simp [hkept]
    | cons c rest =>
      have hc : separates c = true := hrest c rfl
      rw [List.splitOnP_append_cons _ _ hc, List.splitOnP_eq_singleton hword, ih,
        List.splitOnP_cons_eq_if_modifyHead, if_pos hc]
      simp [hkept]

theorem exists_words (separates : Char → Bool) (cs : List Char) :
    ∃ words, Words separates cs words := by
  induction hn : cs.length using Nat.strong_induction_on generalizing cs with
  | _ n ih =>
    cases cs with
    | nil => exact ⟨[], .nothing⟩
    | cons c cs =>
      subst hn
      cases hc : separates c with
      | true =>
        obtain ⟨words, hwords⟩ := ih cs.length (by simp) cs rfl
        exact ⟨words, .separator hc hwords⟩
      | false =>
        -- The first word is as long as it can be, so a separator stands behind it.
        have hall := List.takeWhile_append_dropWhile (p := fun d => !separates d) (l := c :: cs)
        have hfirst : (c :: cs).takeWhile (fun d => !separates d) ≠ [] := by simp [hc]
        have hlt : ((c :: cs).dropWhile fun d => !separates d).length < (c :: cs).length := by
          have hlength := congrArg List.length hall
          have hpos := List.length_pos_iff.mpr hfirst
          rw [List.length_append] at hlength
          omega
        have hword : ∀ d ∈ (c :: cs).takeWhile (fun d => !separates d), separates d = false := by
          intro d hd
          simpa using List.mem_takeWhile_imp hd
        have hrest : ∀ d ∈ ((c :: cs).dropWhile fun d => !separates d).head?,
            separates d = true := by
          intro d hd
          have hnot := List.head?_dropWhile_not (fun d => !separates d) (c :: cs)
          rw [Option.mem_def.mp hd] at hnot
          simpa using hnot
        obtain ⟨words, hwords⟩ := ih _ hlt _ rfl
        exact ⟨_, hall ▸ Words.word hfirst hword hrest hwords⟩

/-- A text has its words and no others. -/
theorem words_iff : Words separates cs words ↔ words = (cs.splitOnP separates).filter (!·.isEmpty) := by
  refine ⟨Words.eq, ?_⟩
  rintro rfl
  obtain ⟨words, hwords⟩ := exists_words separates cs
  exact hwords.eq ▸ hwords

end Text

namespace Sql

open Ddl (items? IsItem items?_of_forall₂)

/-! ## Columns with directions -/

/-- Which of two rows comes first. -/
inductive Direction where
  | ascending
  | descending
  deriving DecidableEq

namespace Direction

/-- The word for a direction as it is written. -/
def keyword : Direction → String
  | .ascending => "ASC"
  | .descending => "DESC"

/-- The word for a direction as it is read. -/
def word : Direction → String
  | .ascending => "asc"
  | .descending => "desc"

/-- The direction that a word of an order names, in any letter case. -/
def ofWord? (word : String) : Option Direction :=
  if Text.sameLetters word "asc" then some .ascending
  else if Text.sameLetters word "desc" then some .descending
  else none

theorem isKeyword (d : Direction) : isKeyword d.keyword d.word = true := by
  cases d <;> decide

theorem isDirection_eq (word : String) : isDirection word = (ofWord? word).isSome := by
  rw [isDirection, ofWord?]
  cases Text.sameLetters word "asc" <;> cases Text.sameLetters word "desc" <;> rfl

end Direction

/-- A column that rows are ordered by, with the directions behind it. -/
structure OrderTerm where
  column : String
  directions : List Direction

/-- What a word of an order is: a column or a direction. -/
inductive OrderItem where
  | column (name : String)
  | direction (d : Direction)

/-- What a word is that is not the first. -/
def OrderItem.ofWord (word : String) : OrderItem :=
  match Direction.ofWord? word with
  | some d => .direction d
  | none => .column word

/-- What the words of an order are. The first is a column whatever it says. -/
def orderItems : List String → List OrderItem
  | [] => []
  | word :: words => .column word :: words.map .ofWord

namespace OrderTerm

/-- How a column with directions is written. -/
def text (t : OrderTerm) : String :=
  t.directions.foldl (fun text d => text ++ " " ++ d.keyword) (quoteIdentifier t.column)

/-- The words that a column with directions is written for. -/
def items (t : OrderTerm) : List OrderItem := .column t.column :: t.directions.map .direction

end OrderTerm

/-! ## Reading an order -/

def direction? : Token → Option Direction
  | .word "asc" => some .ascending
  | .word "desc" => some .descending
  | _ => none

def orderTerm? : List Token → Option OrderTerm
  | .identifier name :: ts => (ts.mapM direction?).map (⟨name, ·⟩)
  | _ => none

/-- An order as the database reads it. -/
def readOrder (text : String) : Option (List OrderTerm) := (tokens text.toList).bind (items? orderTerm?)

theorem lexes_orderTerm (column : String) (directions : List Direction) :
    Lexes (OrderTerm.text ⟨column, directions⟩).toList
      (.identifier column :: directions.map fun d => .word d.word) := by
  induction directions using List.reverseRecOn with
  | nil => exact lexes_quoteIdentifier column
  | append_singleton directions d ih =>
    have hmore := Lexes.blank ih (lexes_keyword d.isKeyword) (opens_keyword d.isKeyword)
    have htext : OrderTerm.text ⟨column, directions ++ [d]⟩
        = OrderTerm.text ⟨column, directions⟩ ++ " " ++ d.keyword := List.foldl_concat ..
    rw [htext]
    simpa using hmore

theorem isItem_orderTerm (t : OrderTerm) : IsItem orderTerm? t.text t := by
  obtain ⟨column, directions⟩ := t
  refine ⟨_, lexes_orderTerm column directions, ?_, by simp⟩
  have hread : (directions.map fun d => Token.word d.word).mapM direction? = some directions := by
    induction directions with
    | nil => rfl
    | cons d directions ih =>
      rw [List.map_cons, List.mapM_cons, ih]
      cases d <;> rfl
  rw [orderTerm?, hread]
  rfl

/-- Whatever the columns are called, what is read is what was written. -/
theorem readOrder_intercalate {terms : List OrderTerm} (hne : terms ≠ []) :
    readOrder (",".intercalate (terms.map OrderTerm.text)) = some terms := by
  have hitems : List.Forall₂ (IsItem orderTerm?) (terms.map OrderTerm.text) terms := by
    rw [List.forall₂_map_left_iff, List.forall₂_same]
    exact fun t _ => isItem_orderTerm t
  obtain ⟨ts, hlex, hread⟩ := items?_of_forall₂ "," [] rfl nofun hitems hne
  rw [readOrder, hlex.tokens_eq]
  exact hread

/-! ## Writing an order -/

/-- A direction is written in upper case, however the host writes it. -/
theorem upper_of_ofWord? {word : String} {d : Direction} (h : Direction.ofWord? word = some d) :
    Text.upper word = d.keyword := by
  -- Only the letters count, and letters that are the same in lower case are the same in upper case.
  have hupper : ∀ {s : String}, Text.sameLetters word s = true → Text.upper word = Text.upper s := by
    intro s hs
    have hletters := congrArg (List.map Char.toUpper) (eq_of_beq hs)
    simp only [List.map_map, Function.comp_def, Char.toUpper_toLower_eq_toUpper] at hletters
    exact congrArg String.ofList hletters
  unfold Direction.ofWord? at h
  split at h
  · next hasc =>
    cases h
    exact hupper hasc
  · split at h
    · next hdesc =>
      cases h
      exact hupper hdesc
    · cases h

theorem orderTerms_cons {terms : List String} (hne : terms ≠ []) (word : String)
    (words : List String) : orderTerms terms (word :: words)
      = if isDirection word then
          orderTerms (terms.dropLast ++ [terms.getLastD "" ++ " " ++ Text.upper word]) words
        else orderTerms (terms ++ [quoteIdentifier word]) words := by
  obtain ⟨term, terms, rfl⟩ := List.exists_cons_of_ne_nil hne
  rw [orderTerms]
  · exact nofun

/-- One word more is one item more, of the last term or of a new one. -/
theorem orderTerms_step {terms : List OrderTerm} (hne : terms ≠ []) (word : String)
    (words : List String) : ∃ next, next ≠ []
      ∧ orderTerms (terms.map OrderTerm.text) (word :: words)
        = orderTerms (next.map OrderTerm.text) words
      ∧ next.flatMap OrderTerm.items = terms.flatMap OrderTerm.items ++ [.ofWord word] := by
  rw [orderTerms_cons (by simpa using hne), Direction.isDirection_eq]
  cases hword : Direction.ofWord? word with
  | none =>
    refine ⟨terms ++ [⟨word, []⟩], by simp, ?_, ?_⟩
    · rw [List.map_append]
      rfl
    · rw [List.flatMap_append, OrderItem.ofWord, hword]
      rfl
  | some d =>
    obtain ⟨front, ⟨column, directions⟩, rfl⟩ := (List.eq_nil_or_concat' terms).resolve_left hne
    refine ⟨front ++ [⟨column, directions ++ [d]⟩], by simp, ?_, ?_⟩
    · have htext : OrderTerm.text ⟨column, directions ++ [d]⟩
          = OrderTerm.text ⟨column, directions⟩ ++ " " ++ d.keyword := List.foldl_concat ..
      rw [Option.isSome_some, if_pos rfl, List.map_append, List.map_append, List.map_singleton,
        List.map_singleton, List.dropLast_concat, List.getLastD_concat, upper_of_ofWord? hword, htext]
    · simp [OrderTerm.items, OrderItem.ofWord, hword]

/-- All words are items, of the terms that are there or of new ones. -/
theorem orderTerms_run {terms : List OrderTerm} (hne : terms ≠ []) (words : List String) :
    ∃ all, all ≠ [] ∧ orderTerms (terms.map OrderTerm.text) words = all.map OrderTerm.text
      ∧ all.flatMap OrderTerm.items = terms.flatMap OrderTerm.items ++ words.map .ofWord := by
  induction words generalizing terms with
  | nil =>
    refine ⟨terms, hne, ?_, by simp⟩
    rw [orderTerms]
  | cons word words ih =>
    obtain ⟨next, hnext, hstep, hitems⟩ := orderTerms_step hne word words
    obtain ⟨all, hall, hrun, hmore⟩ := ih hnext
    refine ⟨all, hall, hstep.trans hrun, ?_⟩
    rw [hmore, hitems, List.append_assoc, List.map_cons, List.singleton_append]

theorem orderTerms_first (word : String) (words : List String) :
    ∃ terms, terms ≠ [] ∧ orderTerms [] (word :: words) = terms.map OrderTerm.text
      ∧ terms.flatMap OrderTerm.items = orderItems (word :: words) := by
  have hfirst : [OrderTerm.mk word []] ≠ [] := List.cons_ne_nil _ _
  obtain ⟨terms, hne, hrun, hitems⟩ := orderTerms_run hfirst words
  exact ⟨terms, hne, hrun, hitems⟩

/-- Words of an order are separated by blanks and commas. An order without words is none. Any other is written as a list of columns with directions, the
directions in upper case, and is read as that list by the database. The list has the words of the order and
nothing else, in their order: a direction for `asc` and `desc` in any letter case, unless it is the first
word, and a column of its own name for everything else. -/
theorem order_reads_as_its_words (order : String) :
    ∃ words : List String,
      (∀ found, Text.Words (fun c => Text.isBlank c || c == ',') order.toList found
        ↔ found = words.map String.toList)
      ∧ (order? order = none ↔ words = [])
      ∧ (words = [] ∨ ∃ terms, order? order = some (",".intercalate (terms.map OrderTerm.text))
        ∧ readOrder (",".intercalate (terms.map OrderTerm.text)) = some terms
        ∧ terms.flatMap OrderTerm.items = orderItems words) := by
  refine ⟨(orderWords order.toList).map String.ofList, fun found => ?_, ?_⟩
  · rw [Text.words_iff, List.map_map, String.toList_comp_ofList, List.map_id]
    rfl
  · unfold order?
    cases (orderWords order.toList).map String.ofList with
    | nil => simp [orderTerms]
    | cons word words =>
      obtain ⟨terms, hne, hterms, hitems⟩ := orderTerms_first word words
      have hread := readOrder_intercalate hne
      obtain ⟨term, terms, rfl⟩ := List.exists_cons_of_ne_nil hne
      rw [hterms]
      exact ⟨by simp, .inr ⟨term :: terms, rfl, hread, hitems⟩⟩

/-- The first word is a column, and so are comment marks and what looks like the end of a name. -/
example : order? " desc Asc,--  a\",b" = some "\"desc\" ASC,\"--\",\"a\"\"\",\"b\"" := by
  decide +kernel

end Sql

end EntityStore
