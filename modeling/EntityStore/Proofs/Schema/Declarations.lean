import EntityStore.Proofs.Schema.Registration
import EntityStore.Settings.Declaration

/-!
# Registering a list of declarations

Only an index can keep a declaration from being an entity, namely one whose kind is a word that means
none. Declarations are converted and registered in turns, so when the first such index is met everything
before its entity is registered, and nothing takes that back (`registers_up_to_first_refused`). So an
error does not mean that the registry is as it was (`not_all_or_nothing`).
-/

set_option autoImplicit false

namespace EntityStore

/-! ## One declaration -/

namespace IndexDeclaration

/-- The declared index, if its kind is one. -/
def index? (d : IndexDeclaration) : Option Index :=
  (IndexKind.ofName? d.kind).map fun kind => ⟨d.name, kind, d.method, d.columns⟩

/-- What is wrong with an index. -/
def refusal? (d : IndexDeclaration) : Option Error :=
  if IndexKind.ofName? d.kind = none then some (.unknownIndexKind d.name d.kind) else none

/-- The first index that is refused decides. -/
theorem mapM_toIndex (is : List IndexDeclaration) : is.mapM toIndex
    = (is.findSome? (·.refusal?)).elim (.ok (is.filterMap (·.index?))) .error := by
  induction is with
  | nil => rfl
  | cons i is ih =>
    rw [List.mapM_cons, ih]
    cases hkind : IndexKind.ofName? i.kind with
    | none =>
      have htoIndex : i.toIndex = .error (.unknownIndexKind i.name i.kind) := by simp [toIndex, hkind]
      have hrefusal : i.refusal? = some (.unknownIndexKind i.name i.kind) := if_pos hkind
      rw [htoIndex, List.findSome?_cons, hrefusal]
      rfl
    | some kind =>
      have htoIndex : i.toIndex = .ok ⟨i.name, kind, i.method, i.columns⟩ := by simp [toIndex, hkind]
      have hindex : i.index? = some ⟨i.name, kind, i.method, i.columns⟩ := by simp [index?, hkind]
      have hrefusal : i.refusal? = none := if_neg (by simp [hkind])
      rw [htoIndex, List.findSome?_cons, hrefusal, List.filterMap_cons, hindex]
      cases is.findSome? (·.refusal?) <;> rfl

end IndexDeclaration

namespace EntityDeclaration

/-- What is wrong with an entity: what is wrong with its first index that is refused. -/
def refusal? (d : EntityDeclaration) : Option Error := d.indexes.findSome? (·.refusal?)

/-- What a declaration registers. -/
def registration (d : EntityDeclaration) : Registration :=
  ⟨d.name, d.table, d.attributes.map (·.toAttribute), d.indexes.filterMap (·.index?)⟩

theorem toEntity_eq (d : EntityDeclaration) :
    d.toEntity = d.refusal?.elim (.ok d.registration.entity) .error := by
  rw [toEntity, IndexDeclaration.mapM_toIndex, refusal?]
  cases d.indexes.findSome? (·.refusal?) <;> rfl

end EntityDeclaration

/-! ## A list of them -/

namespace Registry

variable {r : Registry} {d : EntityDeclaration} {ds : List EntityDeclaration} {err : Error}

/-- A registry after what some declarations register, one after the other. -/
def withDeclared (r : Registry) (ds : List EntityDeclaration) : Registry :=
  ds.foldl (fun r d => r.register d.registration.entity) r

theorem registerAll_cons (h : d.refusal? = none) :
    r.registerAll (d :: ds) = (r.register d.registration.entity).registerAll ds := by
  rw [registerAll, d.toEntity_eq, h]
  rfl

theorem registerAll_cons_of_refusal (h : d.refusal? = some err) :
    r.registerAll (d :: ds) = (r, some err) := by
  rw [registerAll, d.toEntity_eq, h]
  rfl

theorem registerAll_append {before : List EntityDeclaration} (h : ∀ d ∈ before, d.refusal? = none)
    (r : Registry) (ds : List EntityDeclaration) :
    r.registerAll (before ++ ds) = (r.withDeclared before).registerAll ds := by
  induction before generalizing r with
  | nil => rfl
  | cons d before ih =>
    obtain ⟨hd, hbefore⟩ := List.forall_mem_cons.mp h
    rw [List.cons_append, registerAll_cons hd, ih hbefore]
    rfl

/-- Either every declaration is registered, in order, or the first that is refused ends it: its error is
returned, and exactly those before it are registered. -/
theorem registers_up_to_first_refused (r : Registry) (ds : List EntityDeclaration) :
    ((∀ d ∈ ds, d.refusal? = none) ∧ r.registerAll ds = (r.withDeclared ds, none))
    ∨ ∃ before d after err, ds = before ++ d :: after ∧ (∀ b ∈ before, b.refusal? = none)
      ∧ d.refusal? = some err ∧ r.registerAll ds = (r.withDeclared before, some err) := by
  cases hrefusal : ds.findSome? (·.refusal?) with
  | none =>
    have hall := List.findSome?_eq_none_iff.mp hrefusal
    have hrun := registerAll_append hall r []
    rw [List.append_nil] at hrun
    exact .inl ⟨hall, hrun⟩
  | some err =>
    obtain ⟨before, d, after, rfl, hd, hbefore⟩ := List.findSome?_eq_some_iff.mp hrefusal
    refine .inr ⟨before, d, after, err, rfl, hbefore, hd, ?_⟩
    rw [registerAll_append hbefore, registerAll_cons_of_refusal hd]

/-- An entity without fault. -/
def noteDeclaration : EntityDeclaration :=
  ⟨"note", none, [⟨"title", "string", none, none, true, false, false, false⟩], []⟩

/-- An entity with an index of a kind that there is not. -/
def tagDeclaration : EntityDeclaration :=
  ⟨"tag", none, [], [⟨"tag_label_idx", "weird", none, ["label"]⟩]⟩

/-- So it is not all or nothing: where the second of two declarations is refused the first one stays. -/
theorem not_all_or_nothing : ¬ ∀ (r : Registry) (ds : List EntityDeclaration),
    ((r.registerAll ds).2 ≠ none → (r.registerAll ds).1 = r)
      ∧ ((r.registerAll ds).2 = none → (r.registerAll ds).1 = r.withDeclared ds) := by
  intro h
  have hsame := (h .empty [noteDeclaration, tagDeclaration]).1 (by decide)
  have hsize : (Registry.empty.registerAll [noteDeclaration, tagDeclaration]).1.size = 1 := by decide
  rw [hsame] at hsize
  cases hsize

end Registry

end EntityStore
