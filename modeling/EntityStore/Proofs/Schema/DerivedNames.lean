import EntityStore.Proofs.Schema.Registration

/-!
# When derived index names clash

The flags of an attribute ask for an index whose name is put together from the name of the entity, an
underscore, the name of the attribute and an ending. Within one entity no two of these names are equal.
A database keeps the names of all indexes of a schema together, though, and an underscore may also stand
in the names themselves, so two entities can ask for one name. They do exactly if the name of one entity
goes on, after an underscore, as the name of the other's attribute begins, and the endings are the same
(`derived_clash_iff`).
-/

set_option autoImplicit false

namespace EntityStore

/-- An entity and an attribute whose names, with an underscore between them, can be taken for those of
another entity and its attribute: the name of the other entity takes the beginning of the attribute's
name away. -/
def RunsInto (e : Entity) (a : Attribute) (f : Entity) (b : Attribute) : Prop :=
  ∃ between, f.name = e.name ++ "_" ++ between ∧ a.name = between ++ "_" ++ b.name

/-- Two texts around a mark are told apart by where the mark is. -/
theorem Text.append_mark_eq_iff {mark : Char} {s t u v : List Char} :
    s ++ mark :: t = u ++ mark :: v ↔ (s = u ∧ t = v)
      ∨ (∃ w, u = s ++ mark :: w ∧ t = w ++ mark :: v)
      ∨ ∃ w, s = u ++ mark :: w ∧ v = w ++ mark :: t := by
  constructor
  · intro h
    rcases List.append_eq_append_iff.mp h with ⟨w, rfl, hw⟩ | ⟨w, rfl, hw⟩
    · cases w with
      | nil => exact .inl ⟨by simp, (List.cons.inj hw).2⟩
      | cons c w =>
        obtain ⟨rfl, rfl⟩ := List.cons.inj hw
        exact .inr (.inl ⟨w, rfl, rfl⟩)
    · cases w with
      | nil => exact .inl ⟨by simp, (List.cons.inj hw).2.symm⟩
      | cons c w =>
        obtain ⟨rfl, rfl⟩ := List.cons.inj hw
        exact .inr (.inr ⟨w, rfl, rfl⟩)
  · rintro (⟨rfl, rfl⟩ | ⟨w, rfl, rfl⟩ | ⟨w, rfl, rfl⟩) <;> simp

theorem Text.toList_join (s t : String) : (s ++ "_" ++ t).toList = s.toList ++ '_' :: t.toList := by
  rw [String.toList_append, String.toList_append, List.append_assoc]
  rfl

variable {e f : Entity} {a b : Attribute}

theorem runsInto_iff : RunsInto e a f b ↔
    ∃ w, f.name.toList = e.name.toList ++ '_' :: w ∧ a.name.toList = w ++ '_' :: b.name.toList := by
  unfold RunsInto
  simp only [← String.toList_inj, Text.toList_join]
  constructor
  · rintro ⟨between, hf, ha⟩
    exact ⟨between.toList, hf, ha⟩
  · rintro ⟨w, hf, ha⟩
    exact ⟨String.ofList w, by rwa [String.toList_ofList], by rwa [String.toList_ofList]⟩

namespace Registry

/-- An entity of a registry is found under no name but its own. -/
theorem name_ne_of_ne {r : Registry} (he : e ∈ r.entities) (hf : f ∈ r.entities) (hne : e ≠ f) :
    e.name ≠ f.name := by
  intro hname
  have hget := get?_of_mem he
  rw [hname, get?_of_mem hf] at hget
  exact hne (Option.some.inj hget).symm

/-- The index that the flags of an attribute ask for is there, or another one in its place. -/
theorem isSome_index?_of_derived {ds : List Registration} (he : e ∈ (registered ds).entities)
    (ha : a ∈ e.columns) {i : Index} (hi : Entity.derivedIndex? e.name a = some i) :
    (e.index? i.name).isSome = true := by
  obtain ⟨d, -, hsettled⟩ := exists_settled he
  rw [hsettled.name] at hi
  rw [hsettled.asked a ha i (Entity.derivedIndex?_eq_some_iff.mp hi)]
  rfl

/-- Of two entities of a registry each has the index that the flags of an attribute ask for. The two
indexes have one name exactly if both are unique or both are not, and the names of one entity and its
attribute run into those of the other. -/
theorem derived_clash_iff (ds : List Registration) (e f : Entity) (a b : Attribute) (i j : Index)
    (he : e ∈ (registered ds).entities) (hf : f ∈ (registered ds).entities) (hne : e ≠ f)
    (ha : a ∈ e.columns) (hb : b ∈ f.columns) (hi : Entity.derivedIndex? e.name a = some i)
    (hj : Entity.derivedIndex? f.name b = some j) :
    (e.index? i.name).isSome = true ∧ (f.index? j.name).isSome = true
      ∧ (i.name = j.name ↔ a.unique = b.unique ∧ (RunsInto e a f b ∨ RunsInto f b e a)) := by
  refine ⟨isSome_index?_of_derived he ha hi, isSome_index?_of_derived hf hb hj, ?_⟩
  have hname : e.name.toList ≠ f.name.toList := mt String.toList_inj.mp (name_ne_of_ne he hf hne)
  rw [(Entity.derivedIndex?_eq_some_iff.mp hi).index, (Entity.derivedIndex?_eq_some_iff.mp hj).index,
    Entity.askedName_eq_iff, ← String.toList_inj, Text.toList_join, Text.toList_join,
    Text.append_mark_eq_iff, runsInto_iff, runsInto_iff]
  simp only [hname, false_and, false_or]

/-- An indexed text. -/
def indexedText (name : String) : Attribute := { Attribute.plain name .string with indexed := true }

/-- An entity, and another one that is named as the first one and a part of its attribute. -/
def userRoles : List Registration :=
  [⟨"user", none, [indexedText "role_name"], []⟩, ⟨"user_role", none, [indexedText "name"], []⟩]

/-- Both ask for an index of the same name. -/
theorem userRoles_clash :
    let user : Entity := .declare "user" none [indexedText "role_name"] []
    let role : Entity := .declare "user_role" none [indexedText "name"] []
    (user ∈ (registered userRoles).entities ∧ role ∈ (registered userRoles).entities ∧ user ≠ role)
      ∧ (user.index? "user_role_name_idx").isSome = true
      ∧ (role.index? "user_role_name_idx").isSome = true
      ∧ RunsInto user (indexedText "role_name") role (indexedText "name") := by
  intro user role
  have hmem : user ∈ (registered userRoles).entities ∧ role ∈ (registered userRoles).entities
      ∧ user ≠ role := by decide
  obtain ⟨huser, hrole, hclash⟩ := derived_clash_iff userRoles user role (indexedText "role_name")
    (indexedText "name") ⟨"user_role_name_idx", .plain, none, ["role_name"]⟩
    ⟨"user_role_name_idx", .plain, none, ["name"]⟩ hmem.1 hmem.2.1 hmem.2.2 (by decide) (by decide)
    (by decide) (by decide)
  -- The other way round the name of the user would have to be longer than that of the role.
  have hother : ¬ RunsInto role (indexedText "name") user (indexedText "role_name") := by
    rintro ⟨between, hname, -⟩
    have hlength := congrArg (·.toList.length) hname
    simp [user, role, Entity.declare] at hlength
  exact ⟨hmem, huser, hrole, (hclash.mp rfl).2.resolve_right hother⟩

/-- So derived names can be the same in two entities of a registry. -/
theorem derived_names_not_apart :
    ¬ ∀ (ds : List Registration) (e f : Entity) (a b : Attribute) (i j : Index),
      e ∈ (registered ds).entities → f ∈ (registered ds).entities → e ≠ f → a ∈ e.columns →
      b ∈ f.columns → Entity.derivedIndex? e.name a = some i →
      Entity.derivedIndex? f.name b = some j → i.name ≠ j.name := by
  intro h
  refine h userRoles (.declare "user" none [indexedText "role_name"] [])
    (.declare "user_role" none [indexedText "name"] []) (indexedText "role_name") (indexedText "name")
    ⟨"user_role_name_idx", .plain, none, ["role_name"]⟩ ⟨"user_role_name_idx", .plain, none, ["name"]⟩
    ?_ ?_ ?_ ?_ ?_ ?_ ?_ rfl
  all_goals decide

end Registry

end EntityStore
