import EntityStore.Proofs.Sql.Constant

/-!
# Formulas and their text

A condition as the database understands it: atoms about columns, put together with `AND` and `OR`.
Brackets leave no trace, and neither does a conjunction or a choice of a single formula, so the
text of a formula can be bracketed in many ways but a formula is one thing.

The reader goes over the tokens once. It keeps the formulas it has read at the current level of
brackets, the conjunction it is in apart from the finished alternatives before it, since `AND`
binds tighter than `OR`, and the unfinished levels outside. At each token it is either before an
operand or behind one. The `AND` inside a range belongs to the atom and is never seen here.
-/

set_option autoImplicit false

namespace EntityStore

open Sql (Token Constant constant?)

/-! ## What a condition says -/

/-- How a column is compared with one operand. -/
inductive Comparison where
  | equal
  | notEqual
  | greater
  | greaterOrEqual
  | less
  | lessOrEqual
  | like
  | notLike
  deriving DecidableEq

/-- What is said about one column, or about none. -/
inductive Atom where
  | isNull (column : String)
  | isNotNull (column : String)
  | compare (comparison : Comparison) (column : String) (operand : Constant)
  | between (column : String) (low high : Constant)
  | oneOf (column : String) (members : List Constant)
  | noneOf (column : String) (members : List Constant)
  | fixed (b : Bool)

namespace Atom

/-- The column that an atom is about. -/
def column? : Atom → Option String
  | isNull column | isNotNull column | compare _ column _ | between column _ _ | oneOf column _
  | noneOf column _ => some column
  | fixed _ => none

end Atom

inductive Formula (α : Type) where
  | atom (a : α)
  | and (fs : List (Formula α))
  | or (fs : List (Formula α))

namespace Formula

variable {α β : Type}

/-- The conjunction of some formulas, which of a single one is itself. -/
def all : List (Formula α) → Formula α
  | [f] => f
  | fs => .and fs

/-- The choice between some formulas, which of a single one is itself. -/
def any : List (Formula α) → Formula α
  | [f] => f
  | fs => .or fs

mutual

def map (g : α → β) : Formula α → Formula β
  | .atom a => .atom (g a)
  | .and fs => .and (mapEach g fs)
  | .or fs => .or (mapEach g fs)

def mapEach (g : α → β) : List (Formula α) → List (Formula β)
  | [] => []
  | f :: fs => f.map g :: mapEach g fs

end

theorem mapEach_eq_map (g : α → β) (fs : List (Formula α)) : mapEach g fs = fs.map (map g) := by
  induction fs with
  | nil => rfl
  | cons f fs ih => rw [mapEach, ih, List.map_cons]

theorem map_all (g : α → β) (fs : List (Formula α)) : (all fs).map g = all (fs.map (map g)) := by
  rcases fs with _ | ⟨f, _ | ⟨f', fs⟩⟩
  · rfl
  · rfl
  · simp only [all, map, mapEach_eq_map, List.map_cons]

theorem map_any (g : α → β) (fs : List (Formula α)) : (any fs).map g = any (fs.map (map g)) := by
  rcases fs with _ | ⟨f, _ | ⟨f', fs⟩⟩
  · rfl
  · rfl
  · simp only [any, map, mapEach_eq_map, List.map_cons]

end Formula

/-! ## Reading atoms -/

/-- The comparison that an operator stands for. -/
def Comparison.ofOperator? : String → Option Comparison
  | "=" => some .equal
  | "!=" | "<>" => some .notEqual
  | ">" => some .greater
  | ">=" => some .greaterOrEqual
  | "<" => some .less
  | "<=" => some .lessOrEqual
  | _ => none

/-- The members of a set behind its opening bracket, and what follows the closing one. -/
def members? (ts : List Token) : Option (List Constant × List Token) :=
  match constant? ts with
  | some (c, .mark ',' :: rest) =>
    if rest.length < ts.length then (members? rest).map fun found => (c :: found.1, found.2)
    else none
  | some (c, .mark ')' :: rest) => some ([c], rest)
  | _ => none
termination_by ts.length

/-- What is said about a column whose name has been read. -/
def columnAtom? (column : String) : List Token → Option (Atom × List Token)
  | .word "is" :: .word "null" :: ts => some (.isNull column, ts)
  | .word "is" :: .word "not" :: .word "null" :: ts => some (.isNotNull column, ts)
  | .word "between" :: ts =>
    match constant? ts with
    | some (low, .word "and" :: ts) =>
      (constant? ts).map fun found => (.between column low found.1, found.2)
    | _ => none
  | .word "in" :: .mark '(' :: ts =>
    (members? ts).map fun found => (.oneOf column found.1, found.2)
  | .word "not" :: .word "in" :: .mark '(' :: ts =>
    (members? ts).map fun found => (.noneOf column found.1, found.2)
  | .word "like" :: ts => (constant? ts).map fun found => (.compare .like column found.1, found.2)
  | .word "not" :: .word "like" :: ts =>
    (constant? ts).map fun found => (.compare .notLike column found.1, found.2)
  | .operator op :: ts =>
    match Comparison.ofOperator? op with
    | some comparison =>
      (constant? ts).map fun found => (.compare comparison column found.1, found.2)
    | none => none
  | _ => none

def atom? : List Token → Option (Atom × List Token)
  | .word "true" :: ts => some (.fixed true, ts)
  | .word "false" :: ts => some (.fixed false, ts)
  | .identifier column :: ts => columnAtom? column ts
  | _ => none

/-! ## Reading formulas -/

namespace Formula

/-- What has been read between one opening bracket and here: the alternatives that are finished,
and the factors of the conjunction that is not. -/
structure Level where
  alternatives : List (Formula Atom)
  factors : List (Formula Atom)

namespace Level

def start : Level := ⟨[], []⟩

def push (level : Level) (f : Formula Atom) : Level :=
  { level with factors := level.factors ++ [f] }

/-- A level after an `OR`. -/
def alternative (level : Level) : Level := ⟨level.alternatives ++ [.all level.factors], []⟩

def formula (level : Level) : Formula Atom := .any level.alternative.alternatives

end Level

mutual

/-- Reads on where an operand must come: an atom or an opening bracket. -/
def beforeOperand (outer : List Level) (level : Level) (ts : List Token) :
    Option (Formula Atom) :=
  match atom? ts with
  | some (a, rest) =>
    if rest.length < ts.length then behindOperand outer (level.push (.atom a)) rest else none
  | none =>
    match ts with
    | .mark '(' :: rest => beforeOperand (level :: outer) .start rest
    | _ => none
termination_by ts.length

/-- Reads on where an operand has ended: a connective, a closing bracket, or nothing more. -/
def behindOperand (outer : List Level) (level : Level) (ts : List Token) :
    Option (Formula Atom) :=
  match ts with
  | [] => if outer.isEmpty then some level.formula else none
  | .word "and" :: rest => beforeOperand outer level rest
  | .word "or" :: rest => beforeOperand outer level.alternative rest
  | .mark ')' :: rest =>
    match outer with
    | [] => none
    | enclosing :: outer => behindOperand outer (enclosing.push level.formula) rest
  | _ => none
termination_by ts.length

end

def read (cs : List Char) : Option (Formula Atom) :=
  match Sql.tokens cs with
  | some ts => beforeOperand [] .start ts
  | none => none

end Formula

end EntityStore
