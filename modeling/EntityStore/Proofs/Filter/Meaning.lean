import EntityStore.Filter.Compiled
import EntityStore.Proofs.Filter.Formula

/-!
# What a predicate means

The formula that a predicate stands for, said without any text. A clause on a declared attribute is
an atom, with what its values denote for that attribute; a choice is a choice between its branches,
those apart that ask for nothing; and everything that asks for nothing is left out.

Trusted text means what it says, so nothing is said about it: `Predicate.structured` is the
predicates without any. In those the values decide what the atoms are but never how many there are,
which columns they are about, or how they are put together (`shape_mapValues`).
-/

set_option autoImplicit false

namespace EntityStore

open Sql (Constant comparand)

/-! ## Predicates without trusted text -/

/-- Whether an operator is one of the known ones. -/
def Operator.structured : Operator → Bool
  | .verbatim .. => false
  | _ => true

/-- Whether a condition compares values only. -/
def Condition.structured : Condition → Bool
  | .equals _ => true
  | .operator op => op.structured
  | .pattern _ => false

mutual

/-- Whether a predicate holds no trusted text. -/
def Predicate.structured : Predicate → Bool
  | .raw _ | .template .. => false
  | .all cs => Clause.allStructured cs

def Clause.allStructured : List Clause → Bool
  | [] => true
  | c :: cs => c.structured && Clause.allStructured cs

/-- Whether a clause holds no trusted text. -/
def Clause.structured : Clause → Bool
  | .attribute _ condition => condition.structured
  | .any branches => Predicate.allStructured branches
  | .arbitrary _ => false

def Predicate.allStructured : List Predicate → Bool
  | [] => true
  | b :: bs => b.structured && Predicate.allStructured bs

end

/-! ## The formula of a predicate -/

/-- To equal nothing is to be absent. -/
def Atom.equals (column : String) : Constant → Atom
  | .null => .isNull column
  | c => .compare .equal column c

/-- To differ from nothing is to be there. -/
def Atom.differs (column : String) : Constant → Atom
  | .null => .isNotNull column
  | c => .compare .notEqual column c

/-- What an operator says about an attribute. Membership in no set at all is the same for every
column. -/
def Operator.meaning (a : Attribute) : Operator → Except Error (List Atom)
  | .greater v => (comparand a v).map fun c => [.compare .greater a.name c]
  | .greaterOrEqual v => (comparand a v).map fun c => [.compare .greaterOrEqual a.name c]
  | .less v => (comparand a v).map fun c => [.compare .less a.name c]
  | .lessOrEqual v => (comparand a v).map fun c => [.compare .lessOrEqual a.name c]
  | .like v => (comparand a v).map fun c => [.compare .like a.name c]
  | .notLike v => (comparand a v).map fun c => [.compare .notLike a.name c]
  | .between low high => do
    let low ← comparand a low
    let high ← comparand a high
    return [.between a.name low high]
  | .oneOf [] => .ok [.fixed false]
  | .oneOf vs => .ok [.oneOf a.name (vs.map Constant.ofValue)]
  | .noneOf [] => .ok [.fixed true]
  | .noneOf vs => .ok [.noneOf a.name (vs.map Constant.ofValue)]
  | .notEqual v => (comparand a v).map fun c => [.differs a.name c]
  | .verbatim .. => .ok []

/-- What a condition says about an attribute. -/
def Condition.meaning (a : Attribute) : Condition → Except Error (List Atom)
  | .equals v => (comparand a v).map fun c => [.equals a.name c]
  | .operator op => op.meaning a
  | .pattern _ => .ok []

/-- The formulas of a branch as one, if there are any. -/
def branchFormula {α : Type} : List (Formula α) → List (Formula α)
  | [] => []
  | fs => [.all fs]

/-- The formulas of the branches as one, if there are any. -/
def choiceFormula {α : Type} : List (Formula α) → List (Formula α)
  | [] => []
  | fs => [.any fs]

mutual

/-- The formulas that a predicate asks for, all of which must hold. -/
def formulas (e : Entity) : Predicate → Except Error (List (Formula Atom))
  | .raw _ | .template .. => .ok []
  | .all cs => formulasOfAll e cs

def formulasOfAll (e : Entity) : List Clause → Except Error (List (Formula Atom))
  | [] => .ok []
  | c :: cs => do
    let first ← formulasOf e c
    let rest ← formulasOfAll e cs
    return first ++ rest

def formulasOf (e : Entity) : Clause → Except Error (List (Formula Atom))
  | .attribute name condition =>
    match e.attribute? name with
    | some a => (condition.meaning a).map fun atoms => atoms.map .atom
    | none => .ok []
  | .any branches => (alternatives e branches).map choiceFormula
  | .arbitrary _ => .ok []

/-- What the branches ask for that ask for anything. -/
def alternatives (e : Entity) : List Predicate → Except Error (List (Formula Atom))
  | [] => .ok []
  | b :: bs => do
    let first ← formulas e b
    let rest ← alternatives e bs
    return branchFormula first ++ rest

end

/-! ## Other values in the same places -/

/-- An operator with other operands. A set keeps its size. -/
def Operator.mapValues (g : Value → Value) : Operator → Operator
  | .greater v => .greater (g v)
  | .greaterOrEqual v => .greaterOrEqual (g v)
  | .less v => .less (g v)
  | .lessOrEqual v => .lessOrEqual (g v)
  | .between low high => .between (g low) (g high)
  | .oneOf vs => .oneOf (vs.map g)
  | .noneOf vs => .noneOf (vs.map g)
  | .notEqual v => .notEqual (g v)
  | .like v => .like (g v)
  | .notLike v => .notLike (g v)
  | .verbatim token v => .verbatim token (g v)

def Condition.mapValues (g : Value → Value) : Condition → Condition
  | .equals v => .equals (g v)
  | .operator op => .operator (op.mapValues g)
  | .pattern p => .pattern p

mutual

def Predicate.mapValues (g : Value → Value) : Predicate → Predicate
  | .raw sql => .raw sql
  | .template sql params => .template sql (params.map g)
  | .all cs => .all (Clause.mapAllValues g cs)

def Clause.mapAllValues (g : Value → Value) : List Clause → List Clause
  | [] => []
  | c :: cs => c.mapValues g :: Clause.mapAllValues g cs

def Clause.mapValues (g : Value → Value) : Clause → Clause
  | .attribute name condition => .attribute name (condition.mapValues g)
  | .any branches => .any (Predicate.mapAllValues g branches)
  | .arbitrary sql => .arbitrary sql

def Predicate.mapAllValues (g : Value → Value) : List Predicate → List Predicate
  | [] => []
  | b :: bs => b.mapValues g :: Predicate.mapAllValues g bs

end

/-- A formula with nothing left of its atoms but the columns. -/
def Formula.shape (f : Formula Atom) : Formula (Option String) := f.map Atom.column?

namespace Formula

theorem shape_all (fs : List (Formula Atom)) : (all fs).shape = all (fs.map shape) := map_all _ fs

theorem shape_any (fs : List (Formula Atom)) : (any fs).shape = any (fs.map shape) := map_any _ fs

end Formula

theorem shape_atoms (atoms : List Atom) :
    (atoms.map .atom).map Formula.shape = (atoms.map Atom.column?).map .atom := by
  rw [List.map_map, List.map_map]
  rfl

theorem shape_branchFormula (fs : List (Formula Atom)) :
    (branchFormula fs).map Formula.shape = branchFormula (fs.map Formula.shape) := by
  cases fs with
  | nil => rfl
  | cons f fs => simp only [branchFormula, List.map_cons, List.map_nil, Formula.shape_all]

theorem shape_choiceFormula (fs : List (Formula Atom)) :
    (choiceFormula fs).map Formula.shape = choiceFormula (fs.map Formula.shape) := by
  cases fs with
  | nil => rfl
  | cons f fs => simp only [choiceFormula, List.map_cons, List.map_nil, Formula.shape_any]

section Shape

variable {e : Entity} {a : Attribute} {g : Value → Value}

/-- Other operands may be absent where there was a value, but the column is the same. -/
theorem Operator.column_mapValues {op : Operator} {atoms atoms' : List Atom}
    (h : op.meaning a = .ok atoms) (h' : (op.mapValues g).meaning a = .ok atoms') :
    atoms'.map Atom.column? = atoms.map Atom.column? := by
  cases op with
  | between low high =>
    simp only [meaning, bind_eq_ok_iff] at h
    simp only [mapValues, meaning, bind_eq_ok_iff] at h'
    obtain ⟨c, -, d, -, h⟩ := h
    obtain ⟨c', -, d', -, h'⟩ := h'
    cases h
    cases h'
    rfl
  | oneOf vs | noneOf vs =>
    cases vs <;> (cases h; cases h'; rfl)
  | verbatim token v =>
    cases h
    cases h'
    rfl
  -- A value may become nothing, which makes another atom about the same column.
  | notEqual v =>
    simp only [meaning, map_eq_ok_iff] at h
    simp only [mapValues, meaning, map_eq_ok_iff] at h'
    obtain ⟨c, -, rfl⟩ := h
    obtain ⟨c', -, rfl⟩ := h'
    cases c <;> cases c' <;> rfl
  | greater v | greaterOrEqual v | less v | lessOrEqual v | like v | notLike v =>
    simp only [meaning, map_eq_ok_iff] at h
    simp only [mapValues, meaning, map_eq_ok_iff] at h'
    obtain ⟨c, -, rfl⟩ := h
    obtain ⟨c', -, rfl⟩ := h'
    rfl

theorem Condition.column_mapValues {condition : Condition} {atoms atoms' : List Atom}
    (h : condition.meaning a = .ok atoms) (h' : (condition.mapValues g).meaning a = .ok atoms') :
    atoms'.map Atom.column? = atoms.map Atom.column? := by
  cases condition with
  | equals v =>
    simp only [meaning, map_eq_ok_iff] at h
    simp only [mapValues, meaning, map_eq_ok_iff] at h'
    obtain ⟨c, -, rfl⟩ := h
    obtain ⟨c', -, rfl⟩ := h'
    cases c <;> cases c' <;> rfl
  | operator op => exact Operator.column_mapValues h h'
  | pattern p =>
    cases h
    cases h'
    rfl

-- One case for each way a predicate is put together; the values matter in the atoms only.
mutual

/-- Values decide what the atoms say and nothing else: with other values in the same places the
formulas have the same shape. -/
theorem shape_mapValues : (p : Predicate) → {fs fs' : List (Formula Atom)} →
    formulas e p = .ok fs → formulas e (p.mapValues g) = .ok fs' →
    fs'.map Formula.shape = fs.map Formula.shape
  | .raw _, _, _, h, h' | .template .., _, _, h, h' => by
    cases h
    cases h'
    rfl
  | .all cs, _, _, h, h' => shape_mapAllValues cs h h'

theorem shape_mapAllValues : (cs : List Clause) → {fs fs' : List (Formula Atom)} →
    formulasOfAll e cs = .ok fs → formulasOfAll e (Clause.mapAllValues g cs) = .ok fs' →
    fs'.map Formula.shape = fs.map Formula.shape
  | [], _, _, h, h' => by
    cases h
    cases h'
    rfl
  | c :: cs, _, _, h, h' => by
    simp only [formulasOfAll, bind_eq_ok_iff] at h
    simp only [Clause.mapAllValues, formulasOfAll, bind_eq_ok_iff] at h'
    obtain ⟨first, hfirst, rest, hrest, h⟩ := h
    obtain ⟨first', hfirst', rest', hrest', h'⟩ := h'
    cases h
    cases h'
    rw [List.map_append, List.map_append, shape_mapValuesOf c hfirst hfirst',
      shape_mapAllValues cs hrest hrest']

theorem shape_mapValuesOf : (c : Clause) → {fs fs' : List (Formula Atom)} →
    formulasOf e c = .ok fs → formulasOf e (c.mapValues g) = .ok fs' →
    fs'.map Formula.shape = fs.map Formula.shape
  | .attribute name condition, _, _, h, h' => by
    simp only [formulasOf] at h
    simp only [Clause.mapValues, formulasOf] at h'
    cases ha : e.attribute? name with
    | none =>
      rw [ha] at h h'
      cases h
      cases h'
      rfl
    | some a =>
      simp only [ha, map_eq_ok_iff] at h h'
      obtain ⟨atoms, hatoms, rfl⟩ := h
      obtain ⟨atoms', hatoms', rfl⟩ := h'
      rw [shape_atoms, shape_atoms, Condition.column_mapValues hatoms hatoms']
  | .any branches, _, _, h, h' => by
    simp only [formulasOf, map_eq_ok_iff] at h
    simp only [Clause.mapValues, formulasOf, map_eq_ok_iff] at h'
    obtain ⟨found, hfound, rfl⟩ := h
    obtain ⟨found', hfound', rfl⟩ := h'
    rw [shape_choiceFormula, shape_choiceFormula, shape_alternatives branches hfound hfound']
  | .arbitrary _, _, _, h, h' => by
    cases h
    cases h'
    rfl

theorem shape_alternatives : (bs : List Predicate) → {fs fs' : List (Formula Atom)} →
    alternatives e bs = .ok fs → alternatives e (Predicate.mapAllValues g bs) = .ok fs' →
    fs'.map Formula.shape = fs.map Formula.shape
  | [], _, _, h, h' => by
    cases h
    cases h'
    rfl
  | b :: bs, _, _, h, h' => by
    simp only [alternatives, bind_eq_ok_iff] at h
    simp only [Predicate.mapAllValues, alternatives, bind_eq_ok_iff] at h'
    obtain ⟨first, hfirst, rest, hrest, h⟩ := h
    obtain ⟨first', hfirst', rest', hrest', h'⟩ := h'
    cases h
    cases h'
    rw [List.map_append, List.map_append, shape_branchFormula, shape_branchFormula,
      shape_mapValues b hfirst hfirst', shape_alternatives bs hrest hrest']

end

end Shape

end EntityStore
