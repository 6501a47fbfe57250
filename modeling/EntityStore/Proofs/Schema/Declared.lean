import EntityStore.Proofs.Keyed
import EntityStore.Schema.Registry

/-!
# What a declaration settles

An entity that has been declared has every attribute and every index once, whatever the declaration
repeated. Everything that looks for an attribute or an index by name relies on that.
-/

set_option autoImplicit false

namespace EntityStore

namespace Entity

/-- An entity that came about by a declaration. -/
def Declared (e : Entity) : Prop :=
  ∃ name table attributes indexes, e = declare name table attributes indexes

/-- Setting an attribute keeps the names and their order, or adds the name at the end. -/
theorem names_setAttribute (a : Attribute) (as : List Attribute) :
    (setAttribute a as).map (·.name)
      = if a.name ∈ as.map (·.name) then as.map (·.name) else as.map (·.name) ++ [a.name] := by
  induction as with
  | nil => rfl
  | cons b as ih =>
    rw [setAttribute]
    by_cases hb : b.name = a.name
    · rw [if_pos hb]
      simp [hb]
    · rw [if_neg hb, List.map_cons, ih, List.map_cons]
      have hmem : a.name ∈ b.name :: as.map (·.name) ↔ a.name ∈ as.map (·.name) := by
        rw [List.mem_cons]
        exact ⟨fun h => h.resolve_left fun h => hb h.symm, Or.inr⟩
      simp only [hmem]
      split <;> rfl

theorem nodup_setAttribute {a : Attribute} {as : List Attribute} (h : (as.map (·.name)).Nodup) :
    ((setAttribute a as).map (·.name)).Nodup := by
  rw [names_setAttribute]
  split
  · exact h
  · next ha => exact List.nodup_append.mpr ⟨h, List.nodup_singleton _, by simpa using ha⟩

theorem nodup_attributesOf (declared : List Attribute) :
    ((attributesOf declared).map (·.name)).Nodup := by
  unfold attributesOf
  have hfold : ∀ as : List Attribute, (as.map (·.name)).Nodup →
      ((declared.foldl (fun as a => if a.isIdentifier then as else setAttribute a as) as).map
        (·.name)).Nodup := by
    induction declared with
    | nil => exact fun as h => h
    | cons a declared ih =>
      intro as h
      refine ih _ ?_
      simp only
      split
      · exact h
      · exact nodup_setAttribute h
  exact hfold _ (List.nodup_singleton _)

theorem nodup_addIndex {i : Index} {is : List Index} (h : (is.map (·.name)).Nodup) :
    ((addIndex is i).map (·.name)).Nodup := by
  unfold addIndex
  split
  · exact h
  · next hi =>
    have hnew : i.name ∉ is.map (·.name) := by simpa using hi
    rw [List.map_append]
    exact List.nodup_append.mpr ⟨h, List.nodup_singleton _, by simpa using hnew⟩

theorem nodup_foldl_addIndex (js : List Index) {is : List Index} (h : (is.map (·.name)).Nodup) :
    ((js.foldl addIndex is).map (·.name)).Nodup := by
  induction js generalizing is with
  | nil => exact h
  | cons j js ih => exact ih (nodup_addIndex h)

namespace Declared

variable {e : Entity} (he : e.Declared)

include he

theorem nodup_attributes : (e.attributes.map (·.name)).Nodup := by
  obtain ⟨name, table, attributes, indexes, rfl⟩ := he
  exact nodup_attributesOf attributes

theorem nodup_indexes : (e.indexes.map (·.name)).Nodup := by
  obtain ⟨name, table, attributes, indexes, rfl⟩ := he
  exact nodup_foldl_addIndex _ List.nodup_nil

theorem nodup_columns : (e.columns.map (·.name)).Nodup :=
  he.nodup_attributes.sublist (List.filter_sublist.map _)

end Declared

theorem find?_columns (e : Entity) (n : String) :
    e.columns.find? (·.name == n) = if n = identifier then none else e.attribute? n := by
  unfold columns attribute?
  rw [List.find?_filter]
  split
  · next hn =>
    rw [List.find?_eq_none]
    intro a _
    simp [Attribute.isIdentifier, hn]
  · next hn =>
    congr 1
    funext a
    by_cases ha : a.name = n
    · simp [Attribute.isIdentifier, ha, hn]
    · simp [ha]

end Entity

end EntityStore
