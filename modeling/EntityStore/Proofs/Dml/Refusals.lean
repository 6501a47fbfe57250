import EntityStore.Proofs.Dml.Reading
import EntityStore.Proofs.Filter.Refusals

/-!
# When a statement about rows is refused

A statement about rows is put together from parts, and only three of them can fail: a filter, for a
value that it compares with; the fields of a record, for a value that is stored; and the identifier
of a row, for what it is itself. Each statement is refused for the first of its parts that is, in the
order in which it is written, and for nothing else.

One statement is not always written: an update of a row without a field to set is none at all.
-/

set_option autoImplicit false

namespace EntityStore

/-- Why a value cannot name a row of an entity, if it cannot. The entity may have no identifier, the
value may be refused, or it may count as nothing, which no row is named by. -/
def Entity.keyRefusal? (e : Entity) (id : Value) : Option Error :=
  match e.attribute? identifier with
  | none => some (.unknownEntity e.name)
  | some a => (id.refusal? a.type).or
    (if id.absentFor a.type then some (.nullIdentifier e.name) else none)

theorem Entity.keyRefusal?_eq_none_iff {e : Entity} {id : Value} :
    e.keyRefusal? id = none ↔ ∃ a, e.attribute? identifier = some a
      ∧ id.refusal? a.type = none ∧ id.absentFor a.type = false := by
  unfold Entity.keyRefusal?
  cases e.attribute? identifier <;> simp

namespace Sql

open Dml (declared)

variable {e : Entity}

/-! ## The identifier -/

theorem error?_identifierLiteral (e : Entity) (id : Value) :
    error? (identifierLiteral e id) = e.keyRefusal? id := by
  unfold identifierLiteral Entity.keyRefusal?
  cases e.attribute? identifier with
  | none => rfl
  | some a =>
    simp only [← error?_stored a id]
    refine error?_bind fun text htext => ?_
    -- The literal is a word for absence exactly if the identifier counts as nothing.
    have habsent := stored_eq_absent_iff htext
    cases hid : id.absentFor a.type with
    | true =>
      have hword := habsent.mpr hid
      rw [if_pos (by simpa using hword)]
      rfl
    | false =>
      have hword := mt habsent.mp (Bool.eq_false_iff.mp hid)
      rw [if_neg (by simpa using hword)]
      rfl

theorem error?_identifierTail (e : Entity) (id : Value) :
    error? (identifierTail e id) = e.keyRefusal? id :=
  (error?_bind_ok fun _ _ => rfl).trans (error?_identifierLiteral e id)

/-- What is written behind the condition that names a row cannot fail. -/
theorem error?_bind_identifierTail {α : Type} (id : Value) (f : String → α) :
    error? (identifierTail e id >>= fun tail => .ok (f tail)) = e.keyRefusal? id :=
  (error?_bind_ok fun _ _ => rfl).trans (error?_identifierTail e id)

/-! ## The fields of a record -/

theorem declared_cons (name : String) (v : Value) (rest : List (String × Value)) :
    declared e ((name, v) :: rest) = match e.attribute? name with
      | none => declared e rest
      | some a => if a.isIdentifier then declared e rest else (a, v) :: declared e rest := by
  cases ha : e.attribute? name with
  | none => simp [declared, ha]
  | some a => cases h : a.isIdentifier <;> simp [declared, ha, h]

theorem error?_fieldsOf (e : Entity) (fields : List (String × Value)) :
    error? (fieldsOf e fields) = firstRefusal? (declared e fields) := by
  induction fields with
  | nil => rfl
  | cons field rest ih =>
    obtain ⟨name, v⟩ := field
    rw [fieldsOf, declared_cons]
    cases e.attribute? name with
    | none => exact ih
    | some a =>
      simp only
      split
      · exact ih
      · rw [← List.singleton_append, firstRefusal?_append, firstRefusal?_single, ← error?_stored,
          ← ih]
        exact error?_bind fun _ _ => error?_bind_ok fun _ _ => rfl

/-- There is a field in a statement exactly if one of the record is declared. -/
theorem isEmpty_of_fieldsOf {fields : List (String × Value)} {written : List Field}
    (h : fieldsOf e fields = .ok written) : written.isEmpty = (declared e fields).isEmpty := by
  obtain ⟨entries, hcarried, hfields⟩ := Dml.carries_of_fieldsOf h
  rw [Dml.isEmpty_of_isField hfields]
  generalize declared e fields = values at hcarried
  cases hcarried <;> rfl

/-! ## Statements -/

theorem error?_predicateTail (e : Entity) (p : Option Predicate) :
    error? (predicateTail e p) = firstRefusal? (p.elim [] (·.comparands e)) := by
  cases p with
  | none => rfl
  | some p => exact (error?_map _ _).trans (error?_clauses p)

theorem error?_count (e : Entity) (p : Option Predicate) :
    error? (count e p) = firstRefusal? (p.elim [] (·.comparands e)) :=
  (error?_bind_ok fun _ _ => rfl).trans (error?_predicateTail e p)

theorem error?_delete (e : Entity) (p : Option Predicate) :
    error? (delete e p) = firstRefusal? (p.elim [] (·.comparands e)) :=
  (error?_bind_ok fun _ _ => rfl).trans (error?_predicateTail e p)

theorem error?_select (e : Entity) (f : Filter) :
    error? (select e f) = firstRefusal? (f.comparands e) :=
  (error?_bind_ok fun _ _ => rfl).trans (error?_filterTail e f)

theorem error?_insert (e : Entity) (r : Record) :
    error? (insert e r) = firstRefusal? (declared e r.fields) :=
  (error?_bind_ok fun _ _ => rfl).trans (error?_fieldsOf e r.fields)

theorem error?_deleteRow (e : Entity) (id : Value) :
    error? (deleteRow e id) = e.keyRefusal? id := error?_bind_identifierTail id _

theorem error?_find (e : Entity) (id : Value) : error? (find e id) = e.keyRefusal? id :=
  error?_bind_identifierTail id _

theorem error?_rowExists (e : Entity) (id : Value) : error? (rowExists e id) = e.keyRefusal? id :=
  error?_bind_identifierTail id _

/-- The row that is updated or inserted is named before anything is put into it. -/
theorem error?_upsert {r : Record} {id : Value} (hid : r.id? = some id) :
    error? (upsert e r) = (e.keyRefusal? id).or (firstRefusal? (declared e r.fields)) := by
  rw [upsert, hid, ← error?_identifierTail e id]
  refine (error?_bind fun tail htail => ?_ :
    error? (identifierTail e id >>= _) = _)
  refine (error?_bind_ok fun fields _ => ?_).trans (error?_fieldsOf e r.fields)
  -- The identifier is written a second time, and as it could be the first time, it can be again.
  obtain ⟨text, htext, -⟩ := bind_eq_ok_iff.mp htail
  rw [htext]
  rfl

/-- The row of an update is named after the fields are, and only if there are any. -/
theorem error?_update? (e : Entity) (id : Value) (r : Record) : error? (update? e id r)
    = (firstRefusal? (declared e r.fields)).or
      (if (declared e r.fields).isEmpty then none else e.keyRefusal? id) := by
  rw [← error?_fieldsOf]
  refine error?_bind fun written hwritten => ?_
  rw [isEmpty_of_fieldsOf hwritten]
  split
  · rfl
  · exact error?_bind_identifierTail id _

theorem update?_eq_none_iff {id : Value} {r : Record} :
    update? e id r = .ok none ↔ declared e r.fields = [] := by
  constructor
  · intro h
    obtain ⟨written, hwritten, h⟩ := bind_eq_ok_iff.mp h
    rw [isEmpty_of_fieldsOf hwritten] at h
    split at h
    · next hempty => exact List.isEmpty_iff.mp hempty
    · obtain ⟨tail, -, h⟩ := bind_eq_ok_iff.mp h
      cases h
  · intro h
    obtain ⟨written, hwritten⟩ := error?_eq_none_iff.mp
      ((error?_fieldsOf e r.fields).trans (congrArg firstRefusal? h))
    have hempty : written.isEmpty = true := by rw [isEmpty_of_fieldsOf hwritten, h]; rfl
    rw [update?, hwritten]
    exact if_pos hempty

end Sql

end EntityStore
