import EntityStore.Proofs.Filter.Meaning

/-!
# Compiled predicates are read as what they mean

The text of a predicate without trusted text, cut into tokens and read with `AND` binding tighter
than `OR`, is the formula the predicate stands for. Nothing is assumed about names and values, so
none of them can end its quotes early, open or close a bracket, or bring in a connective.

The clause texts are put together like the formulas, so it is shown clause by clause that a text is
read as a formula wherever an operand may stand (`Reads`), and then that joining texts and
bracketing them is putting formulas together.
-/

set_option autoImplicit false

namespace EntityStore

open Sql

/-! ## The reader, one token at a time -/

namespace Formula

variable {outer : List Level} {level : Level}

theorem beforeOperand_atom {ts rest : List Token} {a : Atom} (h : atom? ts = some (a, rest))
    (hlt : rest.length < ts.length) :
    beforeOperand outer level ts = behindOperand outer (level.push (.atom a)) rest := by
  rw [beforeOperand, h]
  · exact if_pos hlt
  · rintro more rfl
    cases h

theorem beforeOperand_open (rest : List Token) :
    beforeOperand outer level (.mark '(' :: rest) = beforeOperand (level :: outer) .start rest := by
  rw [beforeOperand]
  rfl

theorem behindOperand_nil : behindOperand [] level [] = some level.formula := by
  rw [behindOperand]
  rfl

theorem behindOperand_and (rest : List Token) :
    behindOperand outer level (.word "and" :: rest) = beforeOperand outer level rest := by
  rw [behindOperand]

theorem behindOperand_or (rest : List Token) :
    behindOperand outer level (.word "or" :: rest)
      = beforeOperand outer level.alternative rest := by
  rw [behindOperand]

theorem behindOperand_close {enclosing : Level} (rest : List Token) :
    behindOperand (enclosing :: outer) level (.mark ')' :: rest)
      = behindOperand outer (enclosing.push level.formula) rest := by
  rw [behindOperand]

/-- Tokens that are read as a formula wherever an operand must come. -/
def Operand (ts : List Token) (f : Formula Atom) : Prop :=
  ∀ outer level rest,
    beforeOperand outer level (ts ++ rest) = behindOperand outer (level.push f) rest

theorem operand_atom {ts : List Token} {a : Atom}
    (h : ∀ rest, atom? (ts ++ rest) = some (a, rest)) : Operand ts (.atom a) := by
  intro outer level rest
  refine beforeOperand_atom (h rest) ?_
  have hne : ts ≠ [] := by
    rintro rfl
    have hnil := h []
    cases hnil
  have hpos := List.length_pos_iff.mpr hne
  rw [List.length_append]
  omega

theorem operand_parens {ts : List Token} {f : Formula Atom}
    (h : ∀ outer rest, ∃ level : Level, level.formula = f
      ∧ beforeOperand outer .start (ts ++ rest) = behindOperand outer level rest) :
    Operand (.mark '(' :: (ts ++ [.mark ')'])) f := by
  intro outer level rest
  obtain ⟨inner, rfl, hinner⟩ := h (level :: outer) (.mark ')' :: rest)
  rw [List.cons_append, List.append_assoc, beforeOperand_open, List.singleton_append, hinner,
    behindOperand_close]

end Formula

open Formula

/-- A text that is read as a formula, and may stand behind a blank. -/
structure Reads (text : String) (f : Formula Atom) : Prop where
  operand : ∃ ts, Lexes text.toList ts ∧ Operand ts f
  opens : Opens text.toList

/-- A text that is read as an atom, and may stand behind a blank. -/
structure ReadsAtom (text : String) (a : Atom) : Prop where
  tokens : ∃ ts, Lexes text.toList ts ∧ ∀ rest, atom? (ts ++ rest) = some (a, rest)
  opens : Opens text.toList

theorem ReadsAtom.reads {text : String} {a : Atom} (h : ReadsAtom text a) : Reads text (.atom a) := by
  obtain ⟨ts, hlex, ha⟩ := h.tokens
  exact ⟨⟨ts, hlex, operand_atom ha⟩, h.opens⟩

/-! ## Texts joined and in brackets -/

/-- A text with a word between its parts. -/
theorem lexes_between {separator word read : String} {v w : List Char} {ts us : List Token}
    (hs : separator.toList = ' ' :: (word.toList ++ [' '])) (hk : isKeyword word read = true)
    (hv : Lexes v ts) (hw : Lexes w us) (ho : Opens w) :
    Lexes (v ++ separator.toList ++ w) (ts ++ .word read :: us) := by
  have h := Lexes.blank hv (Lexes.keyword hk hw ho) ((opens_keyword hk).append _)
  rw [hs]
  simpa using h

theorem opens_parens (s : String) : Opens ("(" ++ s ++ ")").toList := by
  simp only [String.toList_append]
  exact opens_cons _ (by decide) (by decide)

theorem lexes_parens {s : String} {ts : List Token} (h : Lexes s.toList ts) :
    Lexes ("(" ++ s ++ ")").toList (.mark '(' :: (ts ++ [.mark ')'])) := by
  have hp := h.parens
  simpa using hp

/-- A text for each formula, joined with `AND`: the factors are read in their order, whatever
conjunction they go on with. -/
theorem reads_factors {texts : List String} {fs : List (Formula Atom)}
    (h : List.Forall₂ Reads texts fs) (hne : texts ≠ []) :
    Opens (conjunction texts).toList ∧ ∃ ts, Lexes (conjunction texts).toList ts
      ∧ ∀ outer level rest, beforeOperand outer level (ts ++ rest)
        = behindOperand outer ⟨level.alternatives, level.factors ++ fs⟩ rest := by
  induction h with
  | nil => exact absurd rfl hne
  | @cons text f texts fs hfirst hrest ih =>
    obtain ⟨ts, hlex, hread⟩ := hfirst.operand
    cases hrest with
    | nil =>
      rw [conjunction, String.intercalate_singleton]
      exact ⟨hfirst.opens, ts, hlex, hread⟩
    | cons hnext hrest =>
      obtain ⟨hopens, us, hlex', hread'⟩ := ih (List.cons_ne_nil _ _)
      rw [conjunction, String.intercalate_cons_cons]
      simp only [String.toList_append]
      have hand : isKeyword "AND" "and" = true := by decide
      refine ⟨(hfirst.opens.append _).append _, _, lexes_between rfl hand hlex hlex' hopens,
        fun outer level rest => ?_⟩
      rw [List.append_assoc, List.cons_append, hread, behindOperand_and, hread']
      simp [Level.push]

/-- A text for each formula, joined with `OR`: the formulas become alternatives, the last one still
open. -/
theorem reads_alternatives {texts : List String} {fs : List (Formula Atom)}
    (h : List.Forall₂ Reads texts fs) (hne : texts ≠ []) :
    ∃ ts, Lexes (" OR ".intercalate texts).toList ts ∧ Opens (" OR ".intercalate texts).toList
      ∧ ∀ outer before rest, ∃ level : Level, level.formula = .any (before ++ fs)
        ∧ beforeOperand outer ⟨before, []⟩ (ts ++ rest) = behindOperand outer level rest := by
  induction h with
  | nil => exact absurd rfl hne
  | @cons text f texts fs hfirst hrest ih =>
    obtain ⟨ts, hlex, hread⟩ := hfirst.operand
    cases hrest with
    | nil =>
      rw [String.intercalate_singleton]
      exact ⟨ts, hlex, hfirst.opens, fun outer before rest => ⟨_, rfl, hread outer _ rest⟩⟩
    | cons hnext hrest =>
      obtain ⟨us, hlex', hopens, hread'⟩ := ih (List.cons_ne_nil _ _)
      rw [String.intercalate_cons_cons]
      simp only [String.toList_append]
      have hor : isKeyword "OR" "or" = true := by decide
      refine ⟨_, lexes_between rfl hor hlex hlex' hopens, (hfirst.opens.append _).append _,
        fun outer before rest => ?_⟩
      obtain ⟨level, hlevel, hlast⟩ := hread' outer (before ++ [f]) rest
      refine ⟨level, by rw [hlevel, List.append_assoc]; rfl, ?_⟩
      rw [List.append_assoc, List.cons_append, hread, behindOperand_or, ← hlast]
      rfl

theorem reads_branch {texts : List String} {fs : List (Formula Atom)}
    (h : List.Forall₂ Reads texts fs) :
    List.Forall₂ Reads (branchText texts) (branchFormula fs) := by
  cases h with
  | nil => exact .nil
  | cons hfirst hrest =>
    cases hrest with
    | nil => exact .cons hfirst .nil
    | cons hnext hrest =>
      obtain ⟨-, ts, hlex, hread⟩ :=
        reads_factors (.cons hfirst (.cons hnext hrest)) (List.cons_ne_nil _ _)
      refine .cons ⟨⟨_, lexes_parens hlex, operand_parens fun outer rest => ?_⟩, opens_parens _⟩ .nil
      exact ⟨_, rfl, hread outer .start rest⟩

theorem reads_choice {texts : List String} {fs : List (Formula Atom)}
    (h : List.Forall₂ Reads texts fs) :
    List.Forall₂ Reads (choiceText texts) (choiceFormula fs) := by
  cases h with
  | nil => exact .nil
  | cons hfirst hrest =>
    obtain ⟨ts, hlex, -, hread⟩ := reads_alternatives (.cons hfirst hrest) (List.cons_ne_nil _ _)
    exact .cons ⟨⟨_, lexes_parens hlex, operand_parens fun outer rest => hread outer [] rest⟩,
      opens_parens _⟩ .nil

/-! ## Conditions -/

section Condition

variable {name : String} {c : Constant} {value : String}

/-- What is said about a column behind its name. -/
theorem reads_column (name : String) {w : List Char} {text : String} {us : List Token} {atom : Atom}
    (htext : text.toList = (quoteIdentifier name).toList ++ ' ' :: w) (hw : Lexes w us)
    (ho : Opens w) (ha : ∀ rest, columnAtom? name (us ++ rest) = some (atom, rest)) :
    ReadsAtom text atom := by
  have hname : (quoteIdentifier name).toList = identifierChars name.toList := by
    rw [quoteIdentifier, String.toList_ofList]
  have hlex := Lexes.blank (lexes_identifierChars name.toList) hw ho
  rw [String.ofList_toList] at hlex
  rw [hname] at htext
  rw [← htext] at hlex
  refine ⟨⟨_, hlex, ha⟩, ?_⟩
  rw [htext, identifierChars]
  exact opens_cons _ (by decide) (by decide)

/-- A column compared by an operator. -/
theorem reads_comparison (op : String) {separator : String} {comparison : Comparison}
    (hs : separator.toList = ' ' :: (op.toList ++ [' ']))
    (hop : Comparison.ofOperator? op = some comparison)
    (hlex : ∀ cs, lexeme (op.toList ++ ' ' :: cs) = some (some (.operator op), ' ' :: cs))
    (hne : op.toList ≠ []) (hopens : Opens op.toList) (hv : Written c value) :
    ReadsAtom (quoteIdentifier name ++ separator ++ value) (.compare comparison name c) := by
  obtain ⟨ts, hts, hread⟩ := hv.reads
  refine reads_column name (w := op.toList ++ ' ' :: value.toList) ?_ (lexes_operator hlex hne hts)
    (hopens.append _) fun rest => ?_
  · simp [hs]
  · simp [columnAtom?, hop, hread]

theorem reads_like (hv : Written c value) :
    ReadsAtom (quoteIdentifier name ++ " LIKE " ++ value) (.compare .like name c) := by
  obtain ⟨ts, hts, hread⟩ := hv.reads
  have hlike : isKeyword "LIKE" "like" = true := by decide
  refine reads_column name (w := "LIKE".toList ++ ' ' :: value.toList) ?_
    (Lexes.keyword hlike hts hv.opens) ((opens_keyword hlike).append _) fun rest => ?_
  · simp
  · simp [columnAtom?, hread]

theorem reads_notLike (hv : Written c value) :
    ReadsAtom (quoteIdentifier name ++ " NOT LIKE " ++ value) (.compare .notLike name c) := by
  obtain ⟨ts, hts, hread⟩ := hv.reads
  have hnot : isKeyword "NOT" "not" = true := by decide
  have hlike : isKeyword "LIKE" "like" = true := by decide
  refine reads_column name (w := "NOT".toList ++ ' ' :: ("LIKE".toList ++ ' ' :: value.toList)) ?_
    (Lexes.keyword hnot (Lexes.keyword hlike hts hv.opens) ((opens_keyword hlike).append _))
    ((opens_keyword hnot).append _) fun rest => ?_
  · simp
  · simp [columnAtom?, hread]

/-- A range keeps its own `AND`. -/
theorem reads_between {d : Constant} {value' : String} (hv : Written c value)
    (hv' : Written d value') :
    ReadsAtom (quoteIdentifier name ++ " BETWEEN " ++ (value ++ " AND " ++ value'))
      (.between name c d) := by
  obtain ⟨ts, hts, hread⟩ := hv.reads
  obtain ⟨us, hus, hread'⟩ := hv'.reads
  have hbetween : isKeyword "BETWEEN" "between" = true := by decide
  have hand : isKeyword "AND" "and" = true := by decide
  have hrange : Lexes (value.toList ++ " AND ".toList ++ value'.toList) (ts ++ .word "and" :: us) :=
    lexes_between rfl hand hts hus hv'.opens
  refine reads_column name (w := "BETWEEN".toList ++ ' ' :: (value ++ " AND " ++ value').toList) ?_
    (Lexes.keyword hbetween (by simpa using hrange) ?_) ((opens_keyword hbetween).append _)
    fun rest => ?_
  · simp
  · simpa using hv.opens.append (" AND ".toList ++ value'.toList)
  · simp [columnAtom?, hread, hread']

theorem reads_isNull : ReadsAtom (quoteIdentifier name ++ " IS NULL") (.isNull name) := by
  have his : isKeyword "IS" "is" = true := by decide
  have hnull : isKeyword "NULL" "null" = true := by decide
  refine reads_column name (w := "IS".toList ++ ' ' :: "NULL".toList) ?_
    (Lexes.keyword his (lexes_keyword hnull) (opens_keyword hnull))
    ((opens_keyword his).append _) fun rest => rfl
  simp

theorem reads_isNotNull :
    ReadsAtom (quoteIdentifier name ++ " IS NOT NULL") (.isNotNull name) := by
  have his : isKeyword "IS" "is" = true := by decide
  have hnot : isKeyword "NOT" "not" = true := by decide
  have hnull : isKeyword "NULL" "null" = true := by decide
  refine reads_column name (w := "IS".toList ++ ' ' :: ("NOT".toList ++ ' ' :: "NULL".toList)) ?_
    (Lexes.keyword his (Lexes.keyword hnot (lexes_keyword hnull) (opens_keyword hnull))
      ((opens_keyword hnot).append _)) ((opens_keyword his).append _) fun rest => rfl
  simp

theorem Atom.equals_of_ne_null (h : c ≠ .null) :
    Atom.equals name c = .compare .equal name c := by
  cases c with
  | null => exact absurd rfl h
  | _ => rfl

theorem Atom.differs_of_ne_null (h : c ≠ .null) :
    Atom.differs name c = .compare .notEqual name c := by
  cases c with
  | null => exact absurd rfl h
  | _ => rfl

/-- Equality asks for absence exactly where the constant is nothing. -/
theorem reads_equals (hv : Written c value) :
    ReadsAtom (if value = null then quoteIdentifier name ++ " IS NULL"
      else quoteIdentifier name ++ " = " ++ value) (.equals name c) := by
  split
  · next hnull =>
    obtain rfl := hv.eq_null_iff.mp hnull
    exact reads_isNull
  · next hnull =>
    rw [Atom.equals_of_ne_null (mt hv.eq_null_iff.mpr hnull)]
    exact reads_comparison "=" rfl rfl (fun _ => rfl) (by decide)
      (opens_cons _ (by decide) (by decide)) hv

theorem reads_differs (hv : Written c value) :
    ReadsAtom (if value = null then quoteIdentifier name ++ " IS NOT NULL"
      else quoteIdentifier name ++ " != " ++ value) (.differs name c) := by
  split
  · next hnull =>
    obtain rfl := hv.eq_null_iff.mp hnull
    exact reads_isNotNull
  · next hnull =>
    rw [Atom.differs_of_ne_null (mt hv.eq_null_iff.mpr hnull)]
    exact reads_comparison "!=" rfl rfl (fun _ => rfl) (by decide)
      (opens_cons _ (by decide) (by decide)) hv

theorem members?_last {ts rest : List Token} (h : constant? ts = some (c, .mark ')' :: rest)) :
    members? ts = some ([c], rest) := by
  rw [members?, h]
  rfl

theorem members?_more {ts rest : List Token} (h : constant? ts = some (c, .mark ',' :: rest))
    (hlt : rest.length < ts.length) :
    members? ts = (members? rest).map fun found => (c :: found.1, found.2) := by
  rw [members?, h]
  exact if_pos hlt

theorem reads_members {vs : List Value} (hne : vs ≠ []) :
    ∃ ts, Lexes (",".intercalate (vs.map literal)).toList ts
      ∧ ∀ rest, members? (ts ++ .mark ')' :: rest) = some (vs.map Constant.ofValue, rest) := by
  induction vs with
  | nil => exact absurd rfl hne
  | cons v vs ih =>
    obtain ⟨ts, hlex, hread⟩ := (written_literal v).reads
    cases vs with
    | nil => exact ⟨ts, by simpa using hlex, fun rest => members?_last (hread _)⟩
    | cons v' vs =>
      obtain ⟨us, hlex', hread'⟩ := ih (List.cons_ne_nil _ _)
      have hlist : Lexes (",".intercalate ((v :: v' :: vs).map literal)).toList
          (ts ++ .mark ',' :: us) := by
        simp only [List.map_cons, String.intercalate_cons_cons, String.toList_append,
          List.append_assoc]
        exact Lexes.mark (Or.inl rfl) hlex hlex'
      refine ⟨_, hlist, fun rest => ?_⟩
      rw [List.append_assoc, List.cons_append, members?_more (hread _) ?_, hread']
      · rfl
      · simp only [List.length_append, List.length_cons]
        omega

theorem reads_oneOf {vs : List Value} (hne : vs ≠ []) :
    ReadsAtom (quoteIdentifier name ++ " IN (" ++ ",".intercalate (vs.map literal) ++ ")")
      (.oneOf name (vs.map Constant.ofValue)) := by
  obtain ⟨ts, hts, hread⟩ := reads_members hne
  have hin : isKeyword "IN" "in" = true := by decide
  refine reads_column name
    (w := "IN".toList ++ ' ' :: ("(" ++ ",".intercalate (vs.map literal) ++ ")").toList) ?_
    (Lexes.keyword hin (lexes_parens hts) (opens_parens _)) ((opens_keyword hin).append _)
    fun rest => ?_
  · simp
  · simp [columnAtom?, hread]

theorem reads_noneOf {vs : List Value} (hne : vs ≠ []) :
    ReadsAtom (quoteIdentifier name ++ " NOT IN (" ++ ",".intercalate (vs.map literal) ++ ")")
      (.noneOf name (vs.map Constant.ofValue)) := by
  obtain ⟨ts, hts, hread⟩ := reads_members hne
  have hnot : isKeyword "NOT" "not" = true := by decide
  have hin : isKeyword "IN" "in" = true := by decide
  refine reads_column name (w := "NOT".toList ++ ' ' :: ("IN".toList ++ ' ' ::
      ("(" ++ ",".intercalate (vs.map literal) ++ ")").toList)) ?_
    (Lexes.keyword hnot (Lexes.keyword hin (lexes_parens hts) (opens_parens _))
      ((opens_keyword hin).append _)) ((opens_keyword hnot).append _) fun rest => ?_
  · simp
  · simp [columnAtom?, hread]

theorem reads_fixed {text : String} {b : Bool}
    (h : isKeyword text (if b then "true" else "false") = true) : ReadsAtom text (.fixed b) := by
  refine ⟨⟨_, lexes_keyword h, fun rest => ?_⟩, opens_keyword h⟩
  cases b <;> rfl

end Condition

section Clause

variable {e : Entity} {a : Attribute}

/-- A text that is made from a comparand is read as what is made of the constant. -/
theorem reads_compared {v : Value} {text : String} {m : String → String} {f : Constant → Atom}
    (h : (do let value ← compared a v; pure (m value)) = Except.ok text)
    (hm : ∀ {c : Constant} {value : String}, Written c value → ReadsAtom (m value) (f c)) :
    ∃ atom, (comparand a v).map (fun c => [f c]) = .ok [atom] ∧ ReadsAtom text atom := by
  obtain ⟨value, hvalue, htext⟩ := bind_eq_ok_iff.mp h
  obtain ⟨c, hc, hwritten⟩ := written_compared hvalue
  cases htext
  rw [hc]
  exact ⟨f c, rfl, hm hwritten⟩

/-- A clause by a known operator is read as what the operator says about the attribute. -/
theorem reads_operatorClause {op : Operator} {text : String} (hs : op.structured = true)
    (h : operatorClause a op = .ok text) :
    ∃ atom, op.meaning a = .ok [atom] ∧ ReadsAtom text atom := by
  cases op with
  | verbatim token v => cases hs
  | greater v =>
    exact reads_compared h fun hv => reads_comparison ">" rfl rfl (fun _ => rfl)
      (by decide) (opens_cons _ (by decide) (by decide)) hv
  | greaterOrEqual v =>
    exact reads_compared h fun hv => reads_comparison ">=" rfl rfl (fun _ => rfl)
      (by decide) (opens_cons _ (by decide) (by decide)) hv
  | less v =>
    exact reads_compared h fun hv => reads_comparison "<" rfl rfl (fun _ => rfl)
      (by decide) (opens_cons _ (by decide) (by decide)) hv
  | lessOrEqual v =>
    exact reads_compared h fun hv => reads_comparison "<=" rfl rfl (fun _ => rfl)
      (by decide) (opens_cons _ (by decide) (by decide)) hv
  | like v => exact reads_compared h reads_like
  | notLike v => exact reads_compared h reads_notLike
  | notEqual v => exact reads_compared h reads_differs
  -- Two operands are compared here, and `reads_compared` is about one.
  | between low high =>
    simp only [operatorClause, operand, bind_eq_ok_iff] at h
    obtain ⟨value, ⟨low', hlow, high', hhigh, hvalue⟩, htext⟩ := h
    obtain ⟨c, hc, hwritten⟩ := written_compared hlow
    obtain ⟨d, hd, hwritten'⟩ := written_compared hhigh
    cases hvalue
    cases htext
    refine ⟨.between a.name c d, ?_, reads_between hwritten hwritten'⟩
    rw [Operator.meaning, hc, hd]
    rfl
  -- Membership in no set at all is written as a truth value, without the column.
  | oneOf vs =>
    cases vs with
    | nil =>
      cases h
      exact ⟨.fixed false, rfl, reads_fixed (by decide)⟩
    | cons v vs =>
      cases h
      exact ⟨_, rfl, reads_oneOf (List.cons_ne_nil _ _)⟩
  | noneOf vs =>
    cases vs with
    | nil =>
      cases h
      exact ⟨.fixed true, rfl, reads_fixed (by decide)⟩
    | cons v vs =>
      cases h
      exact ⟨_, rfl, reads_noneOf (List.cons_ne_nil _ _)⟩

theorem reads_conditionClause {condition : Condition} {text : String}
    (hs : condition.structured = true) (h : conditionClause a condition = .ok text) :
    ∃ atom, condition.meaning a = .ok [atom] ∧ ReadsAtom text atom := by
  cases condition with
  | pattern p => cases hs
  | operator op => exact reads_operatorClause hs h
  | equals v => exact reads_compared h reads_equals

/-- A condition that compares values only is written down for a declared attribute only. -/
theorem attributeClause_of_structured {condition : Condition} (hs : condition.structured = true)
    (e : Entity) (name : String) : attributeClause e name condition
      = (e.attribute? name).elim (.ok []) fun a =>
          (conditionClause a condition).map fun text => [text] := by
  cases condition with
  | pattern p => cases hs
  | _ => unfold attributeClause; cases e.attribute? name <;> rfl

/-- The clause on an attribute of a name is read as what the condition says about the attribute,
and neither is there for a name that is not declared. -/
theorem reads_attributeClause {name : String} {condition : Condition} {texts : List String}
    (hs : condition.structured = true) (h : attributeClause e name condition = .ok texts) :
    ∃ fs, formulasOf e (.attribute name condition) = .ok fs ∧ List.Forall₂ Reads texts fs := by
  rw [attributeClause_of_structured hs] at h
  rw [formulasOf]
  cases ha : e.attribute? name with
  | none =>
    rw [ha] at h
    cases h
    exact ⟨[], rfl, .nil⟩
  | some a =>
    rw [ha, Option.elim_some, map_eq_ok_iff] at h
    obtain ⟨text, htext, rfl⟩ := h
    obtain ⟨atom, hatom, hread⟩ := reads_conditionClause hs htext
    refine ⟨[.atom atom], ?_, .cons hread.reads .nil⟩
    simp only [hatom]
    rfl

-- Texts and formulas are made along the same recursion, so there is one case for each way a
-- predicate is put together. The list of texts and the list of formulas grow by the same pieces.
mutual

/-- Every clause text of a predicate without trusted text is read as the formula in its place. -/
theorem reads_clauses : (p : Predicate) → {texts : List String} → p.structured = true →
    clauses e p = .ok texts → ∃ fs, formulas e p = .ok fs ∧ List.Forall₂ Reads texts fs
  | .all cs, _, hs, h => reads_clausesOfAll cs hs h

theorem reads_clausesOfAll : (cs : List Clause) → {texts : List String} →
    Clause.allStructured cs = true → clausesOfAll e cs = .ok texts →
    ∃ fs, formulasOfAll e cs = .ok fs ∧ List.Forall₂ Reads texts fs
  | [], _, _, h => by
    cases h
    exact ⟨[], rfl, .nil⟩
  | c :: cs, _, hs, h => by
    rw [Clause.allStructured, Bool.and_eq_true] at hs
    simp only [clausesOfAll, bind_eq_ok_iff] at h
    obtain ⟨first, hfirst, rest, hrest, h⟩ := h
    obtain ⟨fs, hfs, hread⟩ := reads_clause c hs.1 hfirst
    obtain ⟨gs, hgs, hreads⟩ := reads_clausesOfAll cs hs.2 hrest
    cases h
    refine ⟨fs ++ gs, ?_, List.rel_append hread hreads⟩
    rw [formulasOfAll, hfs, hgs]
    rfl

theorem reads_clause : (c : Clause) → {texts : List String} → c.structured = true →
    clause e c = .ok texts → ∃ fs, formulasOf e c = .ok fs ∧ List.Forall₂ Reads texts fs
  | .attribute _ _, _, hs, h => reads_attributeClause hs h
  | .any branches, _, hs, h => by
    simp only [clause, map_eq_ok_iff] at h
    obtain ⟨found, hfound, rfl⟩ := h
    obtain ⟨fs, hfs, hread⟩ := reads_branchTexts branches hs hfound
    refine ⟨choiceFormula fs, ?_, reads_choice hread⟩
    rw [formulasOf, hfs]
    rfl

theorem reads_branchTexts : (bs : List Predicate) → {texts : List String} →
    Predicate.allStructured bs = true → branchTexts e bs = .ok texts →
    ∃ fs, alternatives e bs = .ok fs ∧ List.Forall₂ Reads texts fs
  | [], _, _, h => by
    cases h
    exact ⟨[], rfl, .nil⟩
  | b :: bs, _, hs, h => by
    rw [Predicate.allStructured, Bool.and_eq_true] at hs
    simp only [branchTexts, bind_eq_ok_iff] at h
    obtain ⟨first, hfirst, rest, hrest, h⟩ := h
    obtain ⟨fs, hfs, hread⟩ := reads_clauses b hs.1 hfirst
    obtain ⟨gs, hgs, hreads⟩ := reads_branchTexts bs hs.2 hrest
    cases h
    refine ⟨branchFormula fs ++ gs, ?_, List.rel_append (reads_branch hread) hreads⟩
    rw [alternatives, hfs, hgs]
    rfl

end

end Clause

/-! ## The text of a whole predicate -/

/-- Texts that are read as formulas are, joined with `AND`, read as the conjunction. -/
theorem read_conjunction {texts : List String} {fs : List (Formula Atom)}
    (h : List.Forall₂ Reads texts fs) (hne : texts ≠ []) :
    Formula.read (conjunction texts).toList = some (.all fs) := by
  obtain ⟨-, ts, hlex, hread⟩ := reads_factors h hne
  have hend := hread [] .start []
  rw [List.append_nil] at hend
  rw [Formula.read, hlex.tokens_eq]
  exact hend.trans behindOperand_nil

/-- A predicate without trusted text that compiles to any text is read as the conjunction of its
formulas, whatever its names and values are; and the values have no say in the shape of these. -/
theorem read_clauses_eq_formulas (e : Entity) (p : Predicate) (texts : List String)
    (hs : p.structured = true) (h : clauses e p = .ok texts) (hne : texts ≠ []) :
    ∃ fs, formulas e p = .ok fs ∧ Formula.read (conjunction texts).toList = some (.all fs)
      ∧ ∀ (g : Value → Value) (fs' : List (Formula Atom)),
        formulas e (p.mapValues g) = .ok fs' → fs'.map Formula.shape = fs.map Formula.shape := by
  obtain ⟨fs, hfs, hreads⟩ := reads_clauses p hs h
  exact ⟨fs, hfs, read_conjunction hreads hne, fun g fs' hfs' => shape_mapValues p hfs hfs'⟩

/-- Quotes, brackets and connectives in a text, a range inside a branch, a branch on an attribute
that is not declared. -/
theorem read_clauses_of_note :
    ∃ texts, clauses (.declare "note" none [.plain "title" .string, .plain "size" .text] [])
        (.all [.attribute "title" (.equals (.text "' OR '1'='1")),
          .any [.all [.attribute "title" (.equals .null),
              .attribute "size" (.operator (.between (.int 5) (.text ") AND (")))],
            .all [.attribute "gone" (.equals .null)],
            .all [.attribute "size" (.operator (.oneOf [.bool true, .text "a,b"]))]]]) = .ok texts
      ∧ Formula.read (conjunction texts).toList
        = some (.and [.atom (.compare .equal "title" (.text "' OR '1'='1")),
          .or [.and [.atom (.isNull "title"),
              .atom (.between "size" (.number 5) (.text ") AND ("))],
            .atom (.oneOf "size" [.boolean true, .text "a,b"])]]) := by
  refine ⟨["\"title\" = E'\\' OR \\'1\\'=\\'1'", "((\"title\" IS NULL AND "
    ++ "\"size\" BETWEEN 5 AND E') AND (') OR \"size\" IN (true,E'a,b'))"], rfl, ?_⟩
  obtain ⟨fs, hfs, hread, -⟩ := read_clauses_eq_formulas
    (.declare "note" none [.plain "title" .string, .plain "size" .text] [])
    (.all [.attribute "title" (.equals (.text "' OR '1'='1")),
      .any [.all [.attribute "title" (.equals .null),
          .attribute "size" (.operator (.between (.int 5) (.text ") AND (")))],
        .all [.attribute "gone" (.equals .null)],
        .all [.attribute "size" (.operator (.oneOf [.bool true, .text "a,b"]))]]])
    _ (by decide) rfl (List.cons_ne_nil _ _)
  cases hfs
  exact hread

end EntityStore
