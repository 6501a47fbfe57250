import EntityStore.Filter.Compiled
import EntityStore.Proofs.Sql.Values

/-!
# When a filter is refused

A filter is compiled unless a declared attribute refuses a value that it is compared with. Everything
else in a filter can be written down as it is: trusted text, patterns, the members of a set, and
clauses on names that nobody declared. So a filter fails for the first comparand that is refused, in
the order in which the clauses are written (`error?_clauses`), and what is around the comparand makes
no difference.
-/

set_option autoImplicit false

namespace EntityStore

/-! ## The values that attributes are compared with -/

/-- The operands that are compared as values of the attribute, the lower bound of a range first. The
members of a set are literals of their own and are not among them. -/
def Operator.operands : Operator → List Value
  | .between low high => [low, high]
  | .oneOf _ | .noneOf _ => []
  | .greater v | .greaterOrEqual v | .less v | .lessOrEqual v | .notEqual v | .like v | .notLike v
  | .verbatim _ v => [v]

/-- The values that a condition compares an attribute with. -/
def Condition.operands : Condition → List Value
  | .equals v => [v]
  | .operator op => op.operands
  | .pattern _ => []

mutual

/-- The declared attributes of a predicate, each with a value that it is compared with, in the order
of the clauses. -/
def Predicate.comparands (e : Entity) : Predicate → List (Attribute × Value)
  | .raw _ | .template .. => []
  | .all cs => Clause.comparandsOfAll e cs

def Clause.comparandsOfAll (e : Entity) : List Clause → List (Attribute × Value)
  | [] => []
  | c :: cs => c.comparands e ++ Clause.comparandsOfAll e cs

def Clause.comparands (e : Entity) : Clause → List (Attribute × Value)
  | .attribute name condition =>
    match e.attribute? name with
    | some a => condition.operands.map (a, ·)
    | none => []
  | .any branches => Predicate.comparandsOfAny e branches
  | .arbitrary _ => []

def Predicate.comparandsOfAny (e : Entity) : List Predicate → List (Attribute × Value)
  | [] => []
  | b :: bs => b.comparands e ++ Predicate.comparandsOfAny e bs

end

/-- The comparands of a filter. Finished text has none. -/
def Filter.comparands (e : Entity) (f : Filter) : List (Attribute × Value) :=
  match f.prebuilt, f.predicate with
  | none, some p => p.comparands e
  | _, _ => []

namespace Sql

/-! ## Conditions -/

theorem firstRefusal?_single (a : Attribute) (v : Value) :
    firstRefusal? [(a, v)] = v.refusal? a.type := by
  rw [firstRefusal?, List.findSome?_cons]
  cases v.refusal? a.type <;> rfl

/-- What is made of one compared value fails if the value is refused. -/
theorem error?_bind_compared {β : Type} (a : Attribute) (v : Value) (f : String → β) :
    error? (compared a v >>= fun text => .ok (f text)) = firstRefusal? [(a, v)] := by
  rw [firstRefusal?_single, ← error?_compared]
  exact error?_bind_ok fun _ _ => rfl

theorem error?_operand (a : Attribute) (op : Operator) :
    error? (operand a op) = firstRefusal? (op.operands.map (a, ·)) := by
  cases op with
  | between low high =>
    rw [Operator.operands, List.map_cons, ← List.singleton_append, firstRefusal?_append,
      firstRefusal?_single, ← error?_compared]
    exact error?_bind fun _ _ => error?_bind_compared a high _
  | oneOf vs | noneOf vs => rfl
  | greater v | greaterOrEqual v | less v | lessOrEqual v | notEqual v | like v | notLike v
  | verbatim token v => exact (error?_compared a v).trans (firstRefusal?_single a v).symm

theorem error?_operatorClause (a : Attribute) (op : Operator) :
    error? (operatorClause a op) = firstRefusal? (op.operands.map (a, ·)) := by
  unfold operatorClause
  split
  · rfl
  · rfl
  · exact (error?_bind_ok fun _ _ => rfl).trans (error?_operand a _)

theorem error?_conditionClause (a : Attribute) (condition : Condition) :
    error? (conditionClause a condition) = firstRefusal? (condition.operands.map (a, ·)) := by
  cases condition with
  | equals v => exact error?_bind_compared a v _
  | operator op => exact error?_operatorClause a op
  | pattern p => rfl

theorem error?_attributeClause (e : Entity) (name : String) (condition : Condition) :
    error? (attributeClause e name condition)
      = firstRefusal? ((Clause.attribute name condition).comparands e) := by
  have hdeclared : error? (match e.attribute? name with
      | some a => (conditionClause a condition).map fun text => [text]
      | none => .ok []) = firstRefusal? ((Clause.attribute name condition).comparands e) := by
    rw [Clause.comparands]
    cases e.attribute? name with
    | none => rfl
    | some a => exact (error?_map _ _).trans (error?_conditionClause a condition)
  cases condition with
  | equals v | operator op => exact hdeclared
  | pattern p =>
    rw [Clause.comparands]
    cases e.attribute? name <;> rfl

/-! ## Predicates -/

variable {e : Entity}

-- One case for each way a predicate is put together, as the clauses are compiled.
mutual

/-- A predicate fails for the first of its comparands that is refused, and for nothing else. -/
theorem error?_clauses : (p : Predicate) →
    error? (clauses e p) = firstRefusal? (p.comparands e)
  | .raw _ | .template .. => rfl
  | .all cs => error?_clausesOfAll cs

theorem error?_clausesOfAll : (cs : List Clause) →
    error? (clausesOfAll e cs) = firstRefusal? (Clause.comparandsOfAll e cs)
  | [] => rfl
  | c :: cs => by
    rw [clausesOfAll, Clause.comparandsOfAll, firstRefusal?_append, ← error?_clause c,
      ← error?_clausesOfAll cs]
    exact error?_bind fun _ _ => error?_bind_ok fun _ _ => rfl

theorem error?_clause : (c : Clause) → error? (clause e c) = firstRefusal? (c.comparands e)
  | .attribute name condition => error?_attributeClause e name condition
  | .any branches => (error?_map _ _).trans (error?_branchTexts branches)
  | .arbitrary _ => rfl

theorem error?_branchTexts : (bs : List Predicate) →
    error? (branchTexts e bs) = firstRefusal? (Predicate.comparandsOfAny e bs)
  | [] => rfl
  | b :: bs => by
    rw [branchTexts, Predicate.comparandsOfAny, firstRefusal?_append, ← error?_clauses b,
      ← error?_branchTexts bs]
    exact error?_bind fun _ _ => error?_bind_ok fun _ _ => rfl

end

/-! ## Filters -/

theorem error?_filterTail (e : Entity) (f : Filter) :
    error? (filterTail e f) = firstRefusal? (f.comparands e) := by
  unfold filterTail Filter.comparands
  cases f.prebuilt with
  | some sql => rfl
  | none =>
    cases f.predicate with
    | none => rfl
    | some p => exact (error?_bind_ok fun _ _ => rfl).trans (error?_clauses p)

end Sql

end EntityStore
