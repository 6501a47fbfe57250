import EntityStore.Proofs.Reconcile.Statements
import Mathlib.Data.List.Forall2

/-!
# The three entry points agree

Reconciling, asking whether everything is current, and asking what would be done go through the
tables separately and stop at different places. Against a database that answers a statement by its
text alone, and has an answer to every query, they have the same view of every table: what is sent
is the plan, whether or not the statements succeed, and everything is current exactly if there is
nothing to send.
-/

set_option autoImplicit false

namespace EntityStore

/-! ## Empty plans -/

/-- A plan in which nothing would be done is one without statements. -/
theorem Plan.isEmpty_iff_statements_eq_nil (e : Entity) (columns : List LiveColumn)
    (indexes : List LiveIndex) :
    (Plan.of e columns indexes).isEmpty = true ↔ (Plan.of e columns indexes).statements = [] := by
  unfold Plan.of
  split
  · exact ⟨nofun, nofun⟩
  · simp only [isEmpty, statements, Bool.and_eq_true, List.isEmpty_iff, List.append_eq_nil_iff,
      Option.toList_eq_nil_iff, List.map_eq_nil_iff, Entity.alterTable?_eq_none_iff]

namespace Reconcile

variable {σ : Type} {exec : Executor σ} {answer : String → Answer}

def rowsOf : Answer → List Row
  | .ok rows => rows
  | .error _ => []

/-- The plan for a table as it is described by answers that depend on nothing but the query. -/
def planBy (answer : String → Answer) (e : Entity) : Plan :=
  .of e (LiveColumn.ofRows (rowsOf (answer (Catalog.columnsQuery e))))
    (LiveIndex.ofRows (rowsOf (answer (Catalog.indexesQuery e))))

/-- Whether both queries about a table are answered with rows. -/
structure Described (answer : String → Answer) (e : Entity) : Prop where
  columns : ∃ rows, answer (Catalog.columnsQuery e) = .ok rows
  indexes : ∃ rows, answer (Catalog.indexesQuery e) = .ok rows

section Entity

variable {e : Entity} (hexec : ∀ s sql, (exec s sql).1 = answer sql) (he : Described answer e)

include hexec he

theorem ddl_entity_eq_planBy (s : σ) : ((entity e).run exec s).ddl = sent (planBy answer e) := by
  obtain ⟨⟨rows, hrows⟩, rows', hrows'⟩ := he
  rw [planBy, hrows, hrows']
  exact ddl_entity ((hexec _ _).trans hrows) fun _ => (hexec _ _).trans hrows'

theorem result_entityPlan_eq_planBy (s : σ) :
    ((entityPlan e).run exec s).result = .ok (planBy answer e) := by
  obtain ⟨⟨rows, hrows⟩, rows', hrows'⟩ := he
  rw [planBy, hrows, hrows']
  exact result_entityPlan ((hexec _ _).trans hrows) fun _ => (hexec _ _).trans hrows'

theorem result_entityIsCurrent_eq_planBy (s : σ) :
    ((entityIsCurrent e).run exec s).result = .ok (planBy answer e).isEmpty := by
  obtain ⟨⟨rows, hrows⟩, rows', hrows'⟩ := he
  rw [planBy, hrows, hrows']
  exact result_entityIsCurrent ((hexec _ _).trans hrows) fun _ => (hexec _ _).trans hrows'

end Entity

section Entities

variable {es : List Entity} (hexec : ∀ s sql, (exec s sql).1 = answer sql)

include hexec

theorem ddl_entities (hes : ∀ e ∈ es, Described answer e) (s : σ) :
    ((entities es).run exec s).ddl = es.flatMap fun e => sent (planBy answer e) := by
  induction es generalizing s with
  | nil => rfl
  | cons e es ih =>
    obtain ⟨he, hes⟩ := List.forall_mem_cons.mp hes
    rw [ddl_entities_cons, ddl_entity_eq_planBy hexec he s, ih hes, List.flatMap_cons]

theorem result_entityPlans_eq_planBy (hes : ∀ e ∈ es, Described answer e) (s : σ) :
    ((entityPlans es).run exec s).result = .ok (es.map fun e => (e.name, planBy answer e)) :=
  result_entityPlans (I := fun _ => True)
    (fun e he s _ => ⟨result_entityPlan_eq_planBy hexec (hes e he) s, trivial⟩) trivial

theorem result_entitiesAreCurrent_eq_planBy (hes : ∀ e ∈ es, Described answer e) (s : σ) :
    ((entitiesAreCurrent es).run exec s).result
      = .ok (es.all fun e => (planBy answer e).isEmpty) :=
  result_entitiesAreCurrent (I := fun _ => True)
    (fun e he s _ => ⟨result_entityIsCurrent_eq_planBy hexec (hes e he) s, trivial⟩) trivial

end Entities

/-- For a database that answers by the text of a statement alone and answers every query with rows:
what reconciling sends for each table is its plan, whatever fails; a plan is empty exactly if it has
no statements; and everything is current exactly if every plan is empty, which is exactly if
reconciling sends no change at all. -/
theorem entry_points_agree (hexec : ∀ s sql, (exec s sql).1 = answer sql) (r : Registry)
    (hr : ∀ e ∈ r.entities, Described answer e) (s : σ) :
    ∃ plans, ((plan r).run exec s).result = .ok plans
      ∧ List.Forall₂ (fun e p => p.1 = e.name ∧ ∀ s, ((entity e).run exec s).ddl
          = p.2.statements.map (· ++ ";")) r.entities plans
      ∧ ((all r).run exec s).ddl = plans.flatMap (fun p => p.2.statements.map (· ++ ";"))
      ∧ (∀ p ∈ plans, p.2.isEmpty = true ↔ p.2.statements = [])
      ∧ (((isCurrent r).run exec s).result = .ok true ↔ ∀ p ∈ plans, p.2.isEmpty = true)
      ∧ ((∀ p ∈ plans, p.2.isEmpty = true) ↔ ((all r).run exec s).ddl = []) := by
  have hempty : ∀ e, (planBy answer e).isEmpty = true ↔ sent (planBy answer e) = [] := by
    intro e
    rw [sent, List.map_eq_nil_iff]
    exact Plan.isEmpty_iff_statements_eq_nil _ _ _
  refine ⟨_, result_entityPlans_eq_planBy hexec hr s, ?_, ?_, ?_, ?_, ?_⟩
  · rw [List.forall₂_map_right_iff, List.forall₂_same]
    exact fun e he => ⟨rfl, fun s => ddl_entity_eq_planBy hexec (hr e he) s⟩
  · rw [all, ddl_entities hexec hr, List.flatMap_map]
    rfl
  · intro p hp
    obtain ⟨e, -, rfl⟩ := List.mem_map.mp hp
    exact Plan.isEmpty_iff_statements_eq_nil _ _ _
  · rw [isCurrent, result_entitiesAreCurrent_eq_planBy hexec hr, Except.ok.injEq, List.all_eq_true,
      List.forall_mem_map]
  · rw [all, ddl_entities hexec hr, List.flatMap_eq_nil_iff, List.forall_mem_map]
    exact forall₂_congr fun e _ => hempty e

/-- A database that knows no table and refuses every change: the table is asked for all the same. -/
theorem entry_points_agree_refused :
    let answer : String → Answer := fun sql => if isQuery sql then .ok [] else .error (.database "")
    let r := Registry.empty.register (.declare "note" none [.plain "title" .string] [])
    ((all r).run (fun s sql => (answer sql, s)) ()).ddl
        = ["CREATE TABLE \"note\" (\n  \"id\" SERIAL PRIMARY KEY,\n  \"title\" varchar\n);"]
      ∧ ((isCurrent r).run (fun s sql => (answer sql, s)) ()).result ≠ .ok true := by
  intro answer r
  have hr : ∀ e ∈ r.entities, Described answer e := fun e _ =>
    ⟨⟨[], if_pos (isQuery_columnsQuery e)⟩, [], if_pos (isQuery_indexesQuery e)⟩
  obtain ⟨plans, hplans, -, hddl, -, hcurrent, -⟩ :=
    @entry_points_agree Unit (fun s sql => (answer sql, s)) answer (fun _ _ => rfl) r hr ()
  have hplan : ∀ e, planBy answer e = .of e [] [] := by
    intro e
    simp only [planBy, answer, isQuery_columnsQuery, isQuery_indexesQuery, if_true, rowsOf]
    rfl
  have hall := @result_entityPlans_eq_planBy Unit (fun s sql => (answer sql, s)) answer r.entities
    (fun _ _ => rfl) hr ()
  simp only [hplan] at hall
  cases Except.ok.inj (hall.symm.trans hplans)
  exact ⟨hddl, fun h => absurd (hcurrent.mp h _ List.mem_cons_self) (by decide)⟩

end Reconcile

end EntityStore
