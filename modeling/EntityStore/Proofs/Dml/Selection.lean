import EntityStore.Statement
import Mathlib.Data.List.Forall2

/-!
# No condition is lost

Rows are selected, counted and deleted by the same predicate, and they should be the same rows. The three
statements differ in their beginnings only: what follows is one text, or all three fail with one error. It
is no text at all only if nothing was asked for, so a deletion by a predicate becomes the deletion of every
row only if the predicate says nothing (`same_rows_and_none_lost`).

What a predicate asks for is said without any text: `Predicate.asked` goes through the groups of a
predicate, however deep they are, and lists what the entity understands. Each entry is a predicate of its
own with one text, and all these texts stand in the statement, one behind the other in their order.
-/

set_option autoImplicit false

namespace EntityStore

/-! ## What a predicate asks for -/

mutual

/-- The conditions of a predicate at any depth, each as a predicate of its own: comparisons of declared
attributes, patterns, and trusted text. -/
def Predicate.asked (e : Entity) : Predicate → List Predicate
  | .raw sql => [.raw sql]
  | .template sql params => [.template sql params]
  | .all cs => Clause.askedByAll e cs

def Clause.askedByAll (e : Entity) : List Clause → List Predicate
  | [] => []
  | c :: cs => c.asked e ++ Clause.askedByAll e cs

def Clause.asked (e : Entity) : Clause → List Predicate
  | .attribute name (.pattern p) => [.all [.attribute name (.pattern p)]]
  | .attribute name condition =>
    if (e.attribute? name).isSome then [.all [.attribute name condition]] else []
  | .any branches => Predicate.askedByAny e branches
  | .arbitrary sql => [.all [.arbitrary sql]]

def Predicate.askedByAny (e : Entity) : List Predicate → List Predicate
  | [] => []
  | b :: bs => b.asked e ++ Predicate.askedByAny e bs

end

/-! ## Texts within a text -/

/-- Whether texts stand in another one, one behind the other. -/
def InOrder : List String → List Char → Prop
  | [], _ => True
  | text :: texts, cs => ∃ front back, cs = front ++ (text.toList ++ back) ∧ InOrder texts back

namespace InOrder

variable {texts others : List String} {cs ds : List Char}

theorem behind (h : InOrder texts cs) (front : List Char) : InOrder texts (front ++ cs) := by
  cases texts with
  | nil => exact trivial
  | cons text texts =>
    obtain ⟨before, back, rfl, hback⟩ := h
    exact ⟨front ++ before, back, (List.append_assoc ..).symm, hback⟩

theorem append (h : InOrder texts cs) (h' : InOrder others ds) :
    InOrder (texts ++ others) (cs ++ ds) := by
  induction texts generalizing cs with
  | nil => exact h'.behind cs
  | cons text texts ih =>
    obtain ⟨front, back, rfl, hback⟩ := h
    refine ⟨front, back ++ ds, ?_, ih hback⟩
    simp only [List.append_assoc]

theorem before (h : InOrder texts cs) (back : List Char) : InOrder texts (cs ++ back) := by
  have hnone : InOrder [] back := trivial
  have happend := h.append hnone
  rwa [List.append_nil] at happend

end InOrder

namespace Sql

variable {e : Entity}

/-! ## What becomes of it -/

/-- Some texts say what was asked for: there are none only if nothing was, and however they are joined,
the own text of each condition stands in them, in order. -/
structure Keeps (e : Entity) (asked : List Predicate) (texts : List String) : Prop where
  nil_iff : texts = [] ↔ asked = []
  inOrder : ∃ own, List.Forall₂ (fun p text => clauses e p = .ok [text]) asked own
    ∧ ∀ separator : String, InOrder own (separator.intercalate texts).toList

namespace Keeps

variable {asked others : List Predicate} {texts more : List String}

theorem nothing : Keeps e [] [] := ⟨by simp, [], .nil, fun _ => trivial⟩

theorem single {p : Predicate} {text : String} (h : clauses e p = .ok [text]) :
    Keeps e [p] [text] := by
  refine ⟨by simp, [text], .cons h .nil, fun separator => ⟨[], [], ?_, trivial⟩⟩
  rw [String.intercalate_singleton, List.append_nil, List.nil_append]

theorem append (h : Keeps e asked texts) (h' : Keeps e others more) :
    Keeps e (asked ++ others) (texts ++ more) := by
  obtain ⟨own, hown, htexts⟩ := h.inOrder
  obtain ⟨own', hown', hmore⟩ := h'.inOrder
  constructor
  case nil_iff => rw [List.append_eq_nil_iff, List.append_eq_nil_iff, h.nil_iff, h'.nil_iff]
  case inOrder =>
    refine ⟨own ++ own', List.rel_append hown hown', fun separator => ?_⟩
    -- Only between two texts there is a separator.
    by_cases hfirst : texts = []
    · cases hfirst
      cases h.nil_iff.mp rfl
      cases hown
      exact hmore separator
    by_cases hlast : more = []
    · cases hlast
      cases h'.nil_iff.mp rfl
      cases hown'
      rw [List.append_nil, List.append_nil]
      exact htexts separator
    · rw [String.intercalate_append_of_ne_nil hfirst hlast, String.toList_append,
        String.toList_append]
      exact ((htexts separator).before _).append (hmore separator)

/-- Texts that are put together as one text with brackets around it. -/
theorem bracketed {separator : String} (h : Keeps e asked texts) (hne : texts ≠ []) :
    Keeps e asked ["(" ++ separator.intercalate texts ++ ")"] := by
  obtain ⟨own, hown, htexts⟩ := h.inOrder
  refine ⟨⟨fun hnil => absurd hnil (List.cons_ne_nil _ _), fun hnil => absurd (h.nil_iff.mpr hnil) hne⟩,
    own, hown, fun _ => ?_⟩
  rw [String.intercalate_singleton, String.toList_append, String.toList_append]
  exact ((htexts separator).behind _).before _

theorem branch (h : Keeps e asked texts) : Keeps e asked (branchText texts) := by
  rcases texts with _ | ⟨text, _ | ⟨next, texts⟩⟩
  · exact h
  · exact h
  · exact h.bracketed (List.cons_ne_nil _ _)

theorem choice (h : Keeps e asked texts) : Keeps e asked (choiceText texts) := by
  cases texts with
  | nil => exact h
  | cons text texts => exact h.bracketed (List.cons_ne_nil _ _)

end Keeps

theorem clauses_single {c : Clause} {text : String} (h : clause e c = .ok [text]) :
    clauses e (.all [c]) = .ok [text] := by
  rw [clauses, clausesOfAll, h]
  rfl

theorem keeps_attribute {name : String} {condition : Condition} {texts : List String}
    (h : attributeClause e name condition = .ok texts) :
    Keeps e ((Clause.attribute name condition).asked e) texts := by
  cases condition with
  | pattern p =>
    cases h
    exact .single (clauses_single rfl)
  | equals v | operator op =>
    unfold Clause.asked
    cases ha : e.attribute? name with
    | none =>
      simp only [attributeClause, ha] at h
      cases h
      exact .nothing
    | some a =>
      have htext := h
      simp only [attributeClause, ha, map_eq_ok_iff] at htext
      obtain ⟨text, -, rfl⟩ := htext
      exact .single (clauses_single h)

-- One case for each way a predicate is put together, as the clauses are compiled.
mutual

/-- What a predicate compiles to says all that it asks for. -/
theorem keeps_clauses : (p : Predicate) → {texts : List String} → clauses e p = .ok texts →
    Keeps e (p.asked e) texts
  | .raw _, _, h | .template .., _, h => by
    cases h
    exact .single rfl
  | .all cs, _, h => keeps_clausesOfAll cs h

theorem keeps_clausesOfAll : (cs : List Clause) → {texts : List String} →
    clausesOfAll e cs = .ok texts → Keeps e (Clause.askedByAll e cs) texts
  | [], _, h => by
    cases h
    exact .nothing
  | c :: cs, _, h => by
    simp only [clausesOfAll, bind_eq_ok_iff] at h
    obtain ⟨first, hfirst, rest, hrest, h⟩ := h
    cases h
    exact (keeps_clause c hfirst).append (keeps_clausesOfAll cs hrest)

theorem keeps_clause : (c : Clause) → {texts : List String} → clause e c = .ok texts →
    Keeps e (c.asked e) texts
  | .attribute _ _, _, h => keeps_attribute h
  | .any branches, _, h => by
    simp only [clause, map_eq_ok_iff] at h
    obtain ⟨found, hfound, rfl⟩ := h
    exact (keeps_branchTexts branches hfound).choice
  | .arbitrary _, _, h => by
    cases h
    exact .single rfl

theorem keeps_branchTexts : (bs : List Predicate) → {texts : List String} →
    branchTexts e bs = .ok texts → Keeps e (Predicate.askedByAny e bs) texts
  | [], _, h => by
    cases h
    exact .nothing
  | b :: bs, _, h => by
    simp only [branchTexts, bind_eq_ok_iff] at h
    obtain ⟨first, hfirst, rest, hrest, h⟩ := h
    cases h
    exact (keeps_clauses b hfirst).branch.append (keeps_branchTexts bs hrest)

end

theorem attributeClause_of_asked_eq_nil {name : String} {condition : Condition}
    (h : (Clause.attribute name condition).asked e = []) :
    attributeClause e name condition = .ok [] := by
  cases condition with
  | pattern p => exact absurd h (List.cons_ne_nil _ _)
  | equals v | operator op =>
    cases ha : e.attribute? name with
    | none => simp only [attributeClause, ha]
    | some a => simp [Clause.asked, ha] at h

-- A predicate that asks for nothing compares nothing either, so it cannot be refused.
mutual

theorem clauses_of_asked_eq_nil : (p : Predicate) → p.asked e = [] → clauses e p = .ok []
  | .raw _, h | .template .., h => absurd h (List.cons_ne_nil _ _)
  | .all cs, h => clausesOfAll_of_asked_eq_nil cs h

theorem clausesOfAll_of_asked_eq_nil : (cs : List Clause) → Clause.askedByAll e cs = [] →
    clausesOfAll e cs = .ok []
  | [], _ => rfl
  | c :: cs, h => by
    obtain ⟨hfirst, hrest⟩ := List.append_eq_nil_iff.mp h
    rw [clausesOfAll, clause_of_asked_eq_nil c hfirst, clausesOfAll_of_asked_eq_nil cs hrest]
    rfl

theorem clause_of_asked_eq_nil : (c : Clause) → c.asked e = [] → clause e c = .ok []
  | .attribute _ _, h => attributeClause_of_asked_eq_nil h
  | .arbitrary _, h => absurd h (List.cons_ne_nil _ _)
  | .any branches, h => by
    rw [clause, branchTexts_of_asked_eq_nil branches h]
    rfl

theorem branchTexts_of_asked_eq_nil : (bs : List Predicate) → Predicate.askedByAny e bs = [] →
    branchTexts e bs = .ok []
  | [], _ => rfl
  | b :: bs, h => by
    obtain ⟨hfirst, hrest⟩ := List.append_eq_nil_iff.mp h
    rw [branchTexts, clauses_of_asked_eq_nil b hfirst, branchTexts_of_asked_eq_nil bs hrest]
    rfl

end

/-! ## Three statements -/

/-- What a statement says behind the table: nothing if nothing is asked for, and else a condition, in
which the text of everything that is asked for stands in its order. -/
structure Restricts (e : Entity) (p : Predicate) (tail : String) : Prop where
  eq_empty_iff : tail = "" ↔ p.asked e = []
  empty_or_condition : tail = "" ∨ ∃ condition, tail = " WHERE " ++ condition
  inOrder : ∃ own, List.Forall₂ (fun q text => clauses e q = .ok [text]) (p.asked e) own
    ∧ InOrder own tail.toList

theorem restricts_whereTail {p : Predicate} {texts : List String} (h : clauses e p = .ok texts) :
    Restricts e p (whereTail texts) := by
  have hkeeps := keeps_clauses p h
  obtain ⟨own, hown, htexts⟩ := hkeeps.inOrder
  cases texts with
  | nil => exact ⟨by simp [whereTail, hkeeps.nil_iff.mp], .inl rfl, own, hown, htexts ""⟩
  | cons text texts =>
    have hne : whereTail (text :: texts) ≠ "" := by simp [whereTail, ← String.toList_inj]
    have hasked := mt hkeeps.nil_iff.mpr (List.cons_ne_nil text texts)
    have hcondition := (htexts " AND ").behind " WHERE ".toList
    rw [← String.toList_append] at hcondition
    exact ⟨iff_of_false hne hasked, .inr ⟨_, rfl⟩, own, hown, hcondition⟩

theorem restricts_of_predicateTail {p : Predicate} {tail : String}
    (h : predicateTail e (some p) = .ok tail) : Restricts e p tail := by
  obtain ⟨texts, htexts, rfl⟩ := map_eq_ok_iff.mp h
  exact restricts_whereTail htexts

/-- Without an order and a number of rows there is nothing behind the condition of a filter. -/
theorem filterTail_matching (e : Entity) (p : Predicate) :
    filterTail e (.matching p) = predicateTail e (some p) := by
  have hbind : filterTail e (.matching p)
      = clauses e p >>= fun texts => .ok (whereTail texts ++ "" ++ "") := rfl
  rw [hbind, predicateTail]
  cases clauses e p with
  | error err => rfl
  | ok texts => simp [bind, Except.bind, Except.map]

/-- Rows are selected, counted and deleted by one text, or refused for one reason. The text is empty only if
the predicate asks for nothing at any depth, and only such a predicate deletes as if there were none. -/
theorem same_rows_and_none_lost (e : Entity) (p : Predicate) :
    ((∃ err, select e (.matching p) = .error err ∧ count e (some p) = .error err
        ∧ delete e (some p) = .error err)
      ∨ ∃ tail, Restricts e p tail
        ∧ select e (.matching p)
          = .ok ("SELECT " ++ quoteColumns e.columnNames ++ " FROM " ++ e.quotedTable ++ tail)
        ∧ count e (some p) = .ok ("SELECT count(" ++ quoteIdentifier identifier ++ ") as "
          ++ countColumn ++ " FROM " ++ e.quotedTable ++ tail)
        ∧ delete e (some p) = .ok ("DELETE FROM " ++ e.quotedTable ++ tail))
    ∧ (delete e (some p) = delete e none ↔ p.asked e = []) := by
  have hselect := filterTail_matching e p
  constructor
  -- The three statements are written around one tail, and fail only where it does.
  · cases htail : predicateTail e (some p) with
    | error err =>
      refine .inl ⟨err, ?_, ?_, ?_⟩
      · rw [select, hselect, htail]
        rfl
      · rw [count, htail]
        rfl
      · rw [delete, htail]
        rfl
    | ok tail =>
      refine .inr ⟨tail, restricts_of_predicateTail htail, ?_, ?_, ?_⟩
      · rw [select, hselect, htail]
        rfl
      · rw [count, htail]
        rfl
      · rw [delete, htail]
        rfl
  · have hnone : delete e none = .ok ("DELETE FROM " ++ e.quotedTable ++ "") := rfl
    constructor
    · intro hall
      rw [hnone, delete, bind_eq_ok_iff] at hall
      obtain ⟨tail, htail, hall⟩ := hall
      -- Both texts begin alike, so what is behind the table is equal.
      have hempty : tail = "" := (String.append_right_inj _).mp (Except.ok.inj hall)
      exact (restricts_of_predicateTail htail).eq_empty_iff.mp hempty
    · intro hasked
      rw [delete, predicateTail, clauses_of_asked_eq_nil p hasked]
      rfl

end Sql

end EntityStore
