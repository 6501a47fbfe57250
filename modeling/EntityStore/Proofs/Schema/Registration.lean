import EntityStore.Proofs.Schema.Declared
import Mathlib.Data.List.Induction

/-!
# What a registry holds

A registry comes about by registrations, one after the other, and each of them may repeat names: of
entities, of attributes, of indexes, and of indexes that the flags of an attribute ask for. What is
left of the repetitions is said here, for any sequence of registrations (`registered_settled`).

An entity is what the last registration of its name makes of it. Of attributes with one name the last
one stands, in the place of the first, and the identifier stands before them all. Of indexes with one
name the first one stands, and those that flags ask for come last, so that an explicit index takes
the place of one that is asked for.
-/

set_option autoImplicit false

namespace EntityStore

/-- What an entity is registered with. -/
structure Registration where
  name : String
  table : Option String
  attributes : List Attribute
  indexes : List Index

def Registration.entity (d : Registration) : Entity :=
  .declare d.name d.table d.attributes d.indexes

/-- The registry after registrations, one after the other. -/
def Registry.registered (ds : List Registration) : Registry :=
  ds.foldl (fun r d => r.register d.entity) .empty

theorem eraseDups_concat {α : Type} [DecidableEq α] (as : List α) (a : α) :
    (as ++ [a]).eraseDups = if a ∈ as then as.eraseDups else as.eraseDups ++ [a] := by
  rw [List.eraseDups_append]
  by_cases ha : a ∈ as <;> simp [List.removeAll, List.eraseDups_cons, ha]

namespace Entity

/-! ## Attributes -/

/-- The last attribute that is set under a name is the one that is found. -/
theorem find?_setAttribute (a : Attribute) (as : List Attribute) (n : String) :
    (setAttribute a as).find? (·.name == n)
      = if a.name = n then some a else as.find? (·.name == n) := by
  induction as with
  | nil => rw [setAttribute, Keyed.find?_cons]
  | cons b as ih =>
    rw [setAttribute]
    by_cases hb : b.name = a.name
    · rw [if_pos hb, Keyed.find?_cons, Keyed.find?_cons, hb]
      split <;> rfl
    · rw [if_neg hb, Keyed.find?_cons, Keyed.find?_cons, ih]
      by_cases hn : b.name = n
      · have ha : a.name ≠ n := fun h => hb (hn.trans h.symm)
        rw [if_pos hn, if_neg ha, if_pos hn]
      · rw [if_neg hn, if_neg hn]

theorem attributesOf_concat (declared : List Attribute) (a : Attribute) :
    attributesOf (declared ++ [a])
      = if a.isIdentifier then attributesOf declared else setAttribute a (attributesOf declared) := by
  rw [attributesOf, List.foldl_concat]
  rfl

/-- A declaration is found under its name unless a later one has the name too. -/
theorem find?_attributesOf (declared : List Attribute) {n : String} (hn : n ≠ identifier) :
    (attributesOf declared).find? (·.name == n) = declared.reverse.find? (·.name == n) := by
  induction declared using List.reverseRecOn with
  | nil =>
    rw [attributesOf, List.foldl_nil, Keyed.find?_cons]
    exact if_neg hn.symm
  | append_singleton declared a ih =>
    rw [attributesOf_concat, List.reverse_concat, Keyed.find?_cons]
    split
    · next ha =>
      have hother : a.name ≠ n := by
        rintro rfl
        exact hn (by simpa [Attribute.isIdentifier] using ha)
      rw [if_neg hother, ih]
    · rw [find?_setAttribute, ih]

/-- The names are in the order in which they were declared first. -/
theorem names_attributesOf (declared : List Attribute) : (attributesOf declared).map (·.name)
    = identifier :: ((declared.map (·.name)).filter (· != identifier)).eraseDups := by
  induction declared using List.reverseRecOn with
  | nil => rfl
  | append_singleton declared a ih =>
    rw [attributesOf_concat, List.map_append, List.filter_append]
    by_cases ha : a.name = identifier
    · simpa [Attribute.isIdentifier, ha] using ih
    · have hsingle : ([a].map (·.name)).filter (· != identifier) = [a.name] := by simp [ha]
      rw [if_neg (by simpa [Attribute.isIdentifier] using ha), names_setAttribute, ih,
        hsingle, eraseDups_concat]
      generalize (declared.map (·.name)).filter (· != identifier) = names
      by_cases hmem : a.name ∈ names <;> simp [hmem, ha]

/-- The identifier comes first, and there is no other one. -/
theorem exists_attributesOf (declared : List Attribute) :
    ∃ others, attributesOf declared = .ofIdentifier :: others ∧ ∀ a ∈ others, a.name ≠ identifier := by
  obtain ⟨others, hothers⟩ : ∃ others, attributesOf declared = .ofIdentifier :: others := by
    induction declared using List.reverseRecOn with
    | nil => exact ⟨[], rfl⟩
    | append_singleton declared a ih =>
      obtain ⟨others, hothers⟩ := ih
      rw [attributesOf_concat, hothers]
      split
      · exact ⟨others, rfl⟩
      · next ha =>
        have hne : identifier ≠ a.name := by
          intro h
          exact ha (by simp [Attribute.isIdentifier, ← h])
        exact ⟨setAttribute a others, if_neg hne⟩
  refine ⟨others, hothers, fun a ha hname => ?_⟩
  have hnodup := nodup_attributesOf declared
  rw [hothers, List.map_cons, List.nodup_cons] at hnodup
  exact hnodup.1 (List.mem_map.mpr ⟨a, ha, hname⟩)

/-! ## Indexes -/

theorem find?_addIndex (is : List Index) (i : Index) (n : String) :
    (addIndex is i).find? (·.name == n)
      = (is.find? (·.name == n)).or ([i].find? (·.name == n)) := by
  unfold addIndex
  split
  · next hi =>
    obtain ⟨j, hj, hname⟩ := List.any_eq_true.mp hi
    rw [Keyed.find?_cons]
    split
    · next hn =>
      have htaken := Keyed.find?_isSome_iff.mpr ⟨j, hj, (beq_iff_eq.mp hname).trans hn⟩
      exact (Option.or_of_isSome htaken).symm
    · exact Option.or_none.symm
  · rw [List.find?_append]

/-- The first index under a name is the one that is found. -/
theorem find?_foldl_addIndex (js is : List Index) (n : String) :
    (js.foldl addIndex is).find? (·.name == n)
      = (is.find? (·.name == n)).or (js.find? (·.name == n)) := by
  induction js generalizing is with
  | nil => exact Option.or_none.symm
  | cons j js ih =>
    rw [List.foldl_cons, ih, find?_addIndex, Option.or_assoc, ← List.find?_append,
      List.singleton_append]

theorem names_addIndex (is : List Index) (i : Index) : (addIndex is i).map (·.name)
    = if i.name ∈ is.map (·.name) then is.map (·.name) else is.map (·.name) ++ [i.name] := by
  unfold addIndex
  by_cases hi : i.name ∈ is.map (·.name)
  · rw [if_pos hi, if_pos (by simpa using hi)]
  · rw [if_neg hi, if_neg (by simpa using hi), List.map_append]
    rfl

/-- The names are in the order in which they are used first. -/
theorem names_foldl_addIndex (is : List Index) :
    (is.foldl addIndex []).map (·.name) = (is.map (·.name)).eraseDups := by
  induction is using List.reverseRecOn with
  | nil => rfl
  | append_singleton is i ih =>
    rw [List.foldl_concat, names_addIndex, ih, List.map_append, List.map_singleton,
      eraseDups_concat]
    simp only [List.mem_eraseDups]

/-- Indexes whose names are distinct are added unless their names are taken. -/
theorem foldl_addIndex (is : List Index) {js : List Index} (h : (js.map (·.name)).Nodup) :
    js.foldl addIndex is = is ++ js.filter (·.name ∉ is.map (·.name)) := by
  induction js generalizing is with
  | nil => simp
  | cons j js ih =>
    obtain ⟨hj, hjs⟩ := List.nodup_cons.mp h
    rw [List.foldl_cons, ih _ hjs, names_addIndex]
    by_cases htaken : j.name ∈ is.map (·.name)
    · rw [if_pos htaken, addIndex, if_pos (by simpa using htaken),
        List.filter_cons_of_neg (by simpa using htaken)]
    · rw [if_neg htaken, addIndex, if_neg (by simpa using htaken),
        List.filter_cons_of_pos (by simpa using htaken), List.append_assoc, List.singleton_append]
      -- The name is not used again, so that it is taken now makes no difference.
      congr 2
      refine List.filter_congr fun k hk => ?_
      have hne : k.name ≠ j.name := fun h => hj (List.mem_map.mpr ⟨k, hk, h⟩)
      simp [hne]

/-! ## Indexes that flags ask for -/

/-- The name of the index that the flags of an attribute ask for, if they do. -/
def askedName (entity : String) (a : Attribute) : String :=
  entity ++ "_" ++ a.name ++ if a.unique then "_key" else "_idx"

/-- Whether the flags of an attribute ask for an index. If it is to be unique it does not matter
whether it is to be indexed. -/
structure AsksFor (entity : String) (a : Attribute) (i : Index) : Prop where
  flagged : a.unique = true ∨ a.indexed = true
  index : i = ⟨askedName entity a, if a.unique then .unique else .plain, none, [a.name]⟩

theorem derivedIndex?_eq_some_iff {entity : String} {a : Attribute} {i : Index} :
    derivedIndex? entity a = some i ↔ AsksFor entity a i := by
  have hasks : AsksFor entity a i ↔ (a.unique = true ∨ a.indexed = true)
      ∧ i = ⟨askedName entity a, if a.unique then .unique else .plain, none, [a.name]⟩ :=
    ⟨fun h => ⟨h.flagged, h.index⟩, fun h => ⟨h.1, h.2⟩⟩
  rw [hasks, derivedIndex?, askedName]
  cases a.unique <;> cases a.indexed <;> simp [eq_comm]

/-- Names that are asked for are equal exactly if their endings are and what stands before them. -/
theorem askedName_eq_iff {entity entity' : String} {a b : Attribute} :
    askedName entity a = askedName entity' b
      ↔ a.unique = b.unique ∧ entity ++ "_" ++ a.name = entity' ++ "_" ++ b.name := by
  unfold askedName
  constructor
  · intro h
    rw [← String.toList_inj, String.toList_append, @String.toList_append _ (ite _ _ _)] at h
    -- The endings are equally long, so what stands before them is the same.
    have hends : (if a.unique = true then "_key" else "_idx").toList.length
        = (if b.unique = true then "_key" else "_idx").toList.length := by
      cases a.unique <;> cases b.unique <;> simp
    obtain ⟨hfront, hend⟩ := List.append_inj' h hends
    refine ⟨?_, String.toList_inj.mp hfront⟩
    cases ha : a.unique <;> cases hb : b.unique <;> simp [ha, hb] at hend ⊢
  · rintro ⟨hunique, hfront⟩
    rw [hunique, hfront]

/-- Attributes of different names ask for indexes of different names. -/
theorem name_eq_of_askedName {entity : String} {a b : Attribute}
    (h : askedName entity a = askedName entity b) : a.name = b.name :=
  (String.append_right_inj _).mp (askedName_eq_iff.mp h).2

theorem nodup_derived (entity : String) {as : List Attribute} (h : (as.map (·.name)).Nodup) :
    ((as.filterMap (derivedIndex? entity)).map (·.name)).Nodup := by
  rw [List.Nodup, List.pairwise_map] at h ⊢
  rw [List.pairwise_filterMap]
  refine h.imp fun hne i hi j hj hname => hne ?_
  rw [(derivedIndex?_eq_some_iff.mp hi).index, (derivedIndex?_eq_some_iff.mp hj).index] at hname
  exact name_eq_of_askedName hname

/-! ## One entity -/

/-- What an entity has to be by its registration. -/
structure Settled (d : Registration) (e : Entity) : Prop where
  name : e.name = d.name
  table : e.table = d.table.getD d.name
  /-- The first attribute is the identifier, a whole number that is never null and counted up, and
  there is no other one. -/
  first : ∃ others, e.attributes = ⟨"id", .number .integer, none, false, true, false, false⟩ :: others
    ∧ ∀ a ∈ others, a.name ≠ "id"
  /-- The names of the others are in the order in which they were declared first. -/
  names : e.attributes.map (·.name)
    = identifier :: ((d.attributes.map (·.name)).filter (· != identifier)).eraseDups
  distinct : (e.attributes.map (·.name)).Nodup
  /-- Each of the others is the last one declared under its name. -/
  last : ∀ n, n ≠ identifier → e.attribute? n = d.attributes.reverse.find? (·.name == n)
  distinctIndexes : (e.indexes.map (·.name)).Nodup
  /-- The explicit indexes come first, each the first one under its name. Behind them are those that
  the attributes ask for under other names. -/
  indexes : ∃ explicit asked, e.indexes = explicit ++ asked
    ∧ explicit.map (·.name) = (d.indexes.map (·.name)).eraseDups
    ∧ (∀ i ∈ explicit, d.indexes.find? (·.name == i.name) = some i)
    ∧ ∀ i, i ∈ asked ↔ (∀ j ∈ d.indexes, j.name ≠ i.name) ∧ ∃ a ∈ e.columns, AsksFor d.name a i
  /-- An index that an attribute asks for is there, unless an explicit one is in its place. -/
  asked : ∀ a ∈ e.columns, ∀ i, AsksFor d.name a i →
    e.index? i.name = some ((d.indexes.find? (·.name == i.name)).getD i)

/-- An explicit index that is kept is the first one under its name. -/
theorem find?_of_mem_foldl_addIndex {is : List Index} {i : Index} (hi : i ∈ is.foldl addIndex []) :
    is.find? (·.name == i.name) = some i := by
  have hnodup := @nodup_foldl_addIndex is [] List.nodup_nil
  have hfind := find?_foldl_addIndex is [] i.name
  rw [List.find?_nil, Option.none_or] at hfind
  rw [← hfind]
  exact (Keyed.find?_eq_some_iff hnodup).mpr ⟨hi, rfl⟩

/-- The indexes that the attributes of an entity ask for. -/
def askedIndexes (d : Registration) : List Index :=
  d.entity.columns.filterMap (derivedIndex? d.name)

theorem mem_askedIndexes {d : Registration} {i : Index} :
    i ∈ askedIndexes d ↔ ∃ a ∈ d.entity.columns, AsksFor d.name a i := by
  simp [askedIndexes, derivedIndex?_eq_some_iff]

theorem declared_entity (d : Registration) : d.entity.Declared :=
  ⟨d.name, d.table, d.attributes, d.indexes, rfl⟩

theorem nodup_askedIndexes (d : Registration) : ((askedIndexes d).map (·.name)).Nodup :=
  nodup_derived d.name (declared_entity d).nodup_columns

theorem indexes_entity (d : Registration) :
    d.entity.indexes = (askedIndexes d).foldl addIndex (d.indexes.foldl addIndex []) :=
  List.foldl_append

/-- An explicit index is found before one that is asked for. -/
theorem index?_entity (d : Registration) (n : String) : d.entity.index? n
    = (d.indexes.find? (·.name == n)).or ((askedIndexes d).find? (·.name == n)) := by
  rw [index?, indexes_entity, find?_foldl_addIndex, find?_foldl_addIndex, List.find?_nil,
    Option.none_or]

theorem settled_entity (d : Registration) : Settled d d.entity := by
  have hdeclared := declared_entity d
  have hexplicit := names_foldl_addIndex d.indexes
  refine ⟨rfl, rfl, exists_attributesOf _, names_attributesOf _, hdeclared.nodup_attributes,
    fun n hn => find?_attributesOf _ hn, hdeclared.nodup_indexes, ?_, fun a ha i hi => ?_⟩
  · -- No two attributes ask for one name, so only explicit indexes can be in the way.
    rw [indexes_entity, foldl_addIndex _ (nodup_askedIndexes d)]
    refine ⟨_, _, rfl, hexplicit, fun i hi => find?_of_mem_foldl_addIndex hi, fun i => ?_⟩
    have hfree : i.name ∉ (d.indexes.map (·.name)).eraseDups ↔ ∀ j ∈ d.indexes, j.name ≠ i.name := by
      rw [List.mem_eraseDups, List.mem_map]
      exact ⟨fun h j hj hname => h ⟨j, hj, hname⟩, fun h ⟨j, hj, hname⟩ => h j hj hname⟩
    rw [List.mem_filter, mem_askedIndexes, hexplicit, decide_eq_true_eq, hfree, and_comm]
  · have hself : (askedIndexes d).find? (·.name == i.name) = some i :=
      (Keyed.find?_eq_some_iff (nodup_askedIndexes d)).mpr ⟨mem_askedIndexes.mpr ⟨a, ha, hi⟩, rfl⟩
    rw [index?_entity, hself]
    cases d.indexes.find? (·.name == i.name) <;> rfl

end Entity

/-! ## The registry -/

namespace Registry

theorem find?_insert (e : Entity) (es : List Entity) (n : String) :
    (insert e es).find? (·.name == n) = if e.name = n then some e else es.find? (·.name == n) := by
  induction es with
  | nil => rw [insert, Keyed.find?_cons]
  | cons f es ih =>
    rw [insert]
    split
    · next h =>
      rw [Keyed.find?_cons, Keyed.find?_cons, ← h]
      split <;> rfl
    · next hne =>
      split
      · rw [Keyed.find?_cons]
      · rw [Keyed.find?_cons, Keyed.find?_cons, ih]
        by_cases hf : f.name = n
        · rw [if_pos hf, if_neg fun he => hne (he.trans hf.symm), if_pos hf]
        · rw [if_neg hf, if_neg hf]

theorem get?_register (r : Registry) (e : Entity) (n : String) :
    (r.register e).get? n = if e.name = n then some e else r.get? n :=
  find?_insert e r.entities n

/-- The last registration of a name is all that matters for it. -/
theorem get?_registered (ds : List Registration) (n : String) :
    (registered ds).get? n = (ds.reverse.find? (·.name == n)).map Registration.entity := by
  induction ds using List.reverseRecOn with
  | nil => rfl
  | append_singleton ds d ih =>
    have hlast : registered (ds ++ [d]) = (registered ds).register d.entity := List.foldl_concat ..
    rw [hlast, get?_register, List.reverse_concat, Keyed.find?_cons, ih]
    change (if d.name = n then _ else _) = _
    split <;> rfl

theorem nodup_names (r : Registry) : (r.entities.map (·.name)).Nodup :=
  List.pairwise_map.mpr (r.ordered.imp fun h => String.ne_of_lt h)

theorem get?_of_mem {r : Registry} {e : Entity} (h : e ∈ r.entities) : r.get? e.name = some e :=
  (Keyed.find?_eq_some_iff r.nodup_names).mpr ⟨h, rfl⟩

theorem exists_settled {ds : List Registration} {e : Entity} (he : e ∈ (registered ds).entities) :
    ∃ d, ds.reverse.find? (·.name == e.name) = some d ∧ e.Settled d := by
  have hget := (get?_registered ds e.name).symm.trans (get?_of_mem he)
  obtain ⟨d, hd, rfl⟩ := Option.map_eq_some_iff.mp hget
  exact ⟨d, hd, Entity.settled_entity d⟩

/-- After any registrations each name has the entity of its last registration, every entity is under
its own name, and it is what that registration says. -/
theorem registered_settled (ds : List Registration) :
    (∀ n, (registered ds).get? n = (ds.reverse.find? (·.name == n)).map Registration.entity)
    ∧ ∀ e ∈ (registered ds).entities, (registered ds).get? e.name = some e
      ∧ ∃ d, ds.reverse.find? (·.name == e.name) = some d ∧ e.Settled d := by
  refine ⟨get?_registered ds, fun e he => ?_⟩
  exact ⟨get?_of_mem he, exists_settled he⟩

/-- The second registration replaces the first. It declares a title twice, and an index under the name
of the one that the title asks for. -/
example :
    let title : Attribute := { Attribute.plain "title" .string with unique := true }
    let index : Index := ⟨"note_title_key", .plain, none, ["title", "due"]⟩
    (registered [⟨"note", none, [.plain "body" .text], []⟩,
      ⟨"note", some "notes", [.plain "title" .text, .plain "due" .date, .plain "id" .text, title],
        [index]⟩]).get? "note"
      = some ⟨"note", "notes", [.ofIdentifier, title, .plain "due" .date], [index]⟩ := by
  decide

end Registry

end EntityStore
