import EntityStore.Proofs.Reconcile.Parts

/-!
# What reconciliation sends

The statements of each part of a reconciliation, whatever answers them. A statement that fails is
followed by the same statements as one that succeeds, so what is sent depends on the answers to the
two queries only: which of two courses is taken, and what there is to change.

Of the statements the queries ask and all others change. `Run.ddl` is the latter.
-/

set_option autoImplicit false

namespace EntityStore

variable {σ α β : Type}

/-! ## The statements of a run -/

/-- Whether a statement only asks. -/
def isQuery (sql : String) : Bool := "SELECT ".toList.isPrefixOf sql.toList

/-- The statements of a run that change the schema, in order. -/
def Run.ddl (r : Run σ α) : List String := r.statements.filter (!isQuery ·)

theorem isQuery_append {s : String} (h : isQuery s = true) (t : String) :
    isQuery (s ++ t) = true := by
  unfold isQuery at *
  rw [List.isPrefixOf_iff_prefix] at *
  rw [String.toList_append]
  exact h.trans (List.prefix_append _ _)

theorem isQuery_columnsQuery (e : Entity) : isQuery (Catalog.columnsQuery e) = true := by
  unfold Catalog.columnsQuery
  repeat apply isQuery_append
  decide

theorem isQuery_indexesQuery (e : Entity) : isQuery (Catalog.indexesQuery e) = true := by
  unfold Catalog.indexesQuery
  repeat apply isQuery_append
  decide

/-- A text that does not begin as queries do. -/
def Changes (sql : String) : Prop := ∃ c cs, sql.toList = c :: cs ∧ c ≠ 'S'

namespace Changes

theorem append {s : String} (h : Changes s) (t : String) : Changes (s ++ t) := by
  obtain ⟨c, cs, hs, hc⟩ := h
  refine ⟨c, cs ++ t.toList, ?_, hc⟩
  rw [String.toList_append, hs, List.cons_append]

theorem isQuery_eq_false {s : String} (h : Changes s) : isQuery s = false := by
  obtain ⟨c, cs, hs, hc⟩ := h
  have hne : ('S' == c) = false := by
    rw [beq_eq_false_iff_ne]
    exact hc.symm
  rw [isQuery, hs]
  simp [List.isPrefixOf, hne]

theorem createTable (e : Entity) : Changes e.createTable := by
  unfold Entity.createTable
  repeat apply append
  exact ⟨_, _, rfl, by decide⟩

theorem alterTable {e : Entity} {changes : List ColumnChange} {sql : String}
    (h : e.alterTable? changes = some sql) : Changes sql := by
  unfold Entity.alterTable? at h
  split at h
  · cases h
  · cases h
    repeat apply append
    exact ⟨_, _, rfl, by decide⟩

theorem indexChange (change : IndexChange) : Changes change.text := by
  cases change with
  | create table index =>
    rw [IndexChange.text]
    by_cases hi : index.isConstraint = true
    · rw [if_pos hi]
      repeat apply append
      exact ⟨_, _, rfl, by decide⟩
    · rw [if_neg hi]
      repeat apply append
      exact ⟨_, _, rfl, by decide⟩
  | drop table name constraint =>
    rw [IndexChange.text]
    cases constraint with
    | true =>
      repeat apply append
      exact ⟨_, _, rfl, by decide⟩
    | false =>
      repeat apply append
      exact ⟨_, _, rfl, by decide⟩

end Changes

theorem Entity.alterTable?_eq_none_iff {e : Entity} {changes : List ColumnChange} :
    e.alterTable? changes = none ↔ changes = [] := by
  unfold Entity.alterTable?
  cases changes <;> simp

theorem Plan.changes_statements {e : Entity} {columns : List LiveColumn} {indexes : List LiveIndex}
    {sql : String} (h : sql ∈ (Plan.of e columns indexes).statements) : Changes sql := by
  unfold Plan.of at h
  split at h
  · rcases List.mem_cons.mp h with rfl | h
    · exact Changes.createTable e
    · obtain ⟨change, -, rfl⟩ := List.mem_map.mp h
      exact Changes.indexChange change
  · rcases List.mem_append.mp h with h | h
    · exact Changes.alterTable (Option.mem_toList.mp h)
    · obtain ⟨change, -, rfl⟩ := List.mem_map.mp h
      exact Changes.indexChange change

namespace Dialogue

variable (exec : Executor σ)

@[simp] theorem statements_run_done (a : α) (s : σ) :
    ((done a).run exec s).statements = [] := rfl

@[simp] theorem statements_run_pure (a : α) (s : σ) :
    ((pure a : Dialogue α).run exec s).statements = [] := rfl

@[simp] theorem statements_run_send (sql : String) (next : Answer → Dialogue α) (s : σ) :
    ((send sql next).run exec s).statements
      = sql :: ((next (exec s sql).1).run exec (exec s sql).2).statements := rfl

@[simp] theorem statements_run_report (e : Error) (next : Dialogue α) (s : σ) :
    ((report e next).run exec s).statements = (next.run exec s).statements := rfl

theorem result_run_send (sql : String) (next : Answer → Dialogue α) (s : σ) :
    ((send sql next).run exec s).result
      = ((next (exec s sql).1).run exec (exec s sql).2).result := rfl

theorem result_run_bind (d : Dialogue α) (f : α → Dialogue β) (s : σ) :
    ((d >>= f).run exec s).result
      = ((f (d.run exec s).result).run exec (d.run exec s).state).result := by
  rw [show d >>= f = d.bind f from rfl, run_bind exec d f s]

theorem statements_run_bind (d : Dialogue α) (f : α → Dialogue β) (s : σ) :
    ((d >>= f).run exec s).statements = (d.run exec s).statements
      ++ ((f (d.run exec s).result).run exec (d.run exec s).state).statements := by
  have h := run_bind exec d f s
  simp only [Run.statements]
  rw [show d >>= f = d.bind f from rfl, h]
  exact List.filterMap_append

/-- The executor is left as the statements leave it, one after the other. -/
theorem state_run (d : Dialogue α) (s : σ) :
    (d.run exec s).state = (d.run exec s).statements.foldl (fun s sql => (exec s sql).2) s := by
  induction d generalizing s with
  | done a => rfl
  | send sql next ih =>
    rw [statements_run_send, List.foldl_cons, ← ih]
    rfl
  | report e next ih =>
    rw [statements_run_report, ← ih]
    rfl

end Dialogue

namespace Reconcile

variable (exec : Executor σ)

/-! ## The parts of a reconciliation -/

theorem statements_attempt (sql : String) (s : σ) :
    ((attempt sql).run exec s).statements = [sql ++ ";"] := by
  rw [Run.statements_eq, (does_attempt (Dialogue.course_run _ s)).sent]

theorem statements_applyColumns (e : Entity) (changes : List ColumnChange) (s : σ) :
    ((applyColumns e changes).run exec s).statements
      = (e.alterTable? changes).toList.map (· ++ ";") := by
  rw [Run.statements_eq, (does_applyColumns (Dialogue.course_run _ s)).sent]

theorem statements_applyIndexes (changes : List IndexChange) (s : σ) :
    ((applyIndexes changes).run exec s).statements
      = changes.map fun change => change.text ++ ";" := by
  rw [Run.statements_eq, (does_applyIndexes (Dialogue.course_run _ s)).sent]

/-- A table without columns is created. -/
theorem statements_entity_of_isEmpty {e : Entity} {s : σ} {rows : List Row}
    (hrows : (exec s (Catalog.columnsQuery e)).1 = .ok rows)
    (hempty : (LiveColumn.ofRows rows).isEmpty = true) :
    ((entity e).run exec s).statements = Catalog.columnsQuery e :: (e.createTable ++ ";")
      :: (IndexChange.between e []).map fun change => change.text ++ ";" := by
  have h : ((entity e).run exec s).statements = Catalog.columnsQuery e :: _ :=
    Dialogue.statements_run_send exec _ _ s
  rw [h]
  simp only [hrows, Dialogue.bind, if_pos hempty]
  rw [Dialogue.statements_run_bind, Dialogue.statements_run_bind, statements_attempt,
    statements_applyIndexes, Dialogue.statements_run_pure, List.append_nil, List.singleton_append]

/-- The state in which the indexes of a table are asked for: its columns have been asked for and
altered. -/
def afterColumns (e : Entity) (rows : List Row) (s : σ) : σ :=
  ((applyColumns e (ColumnChange.between e (LiveColumn.ofRows rows))).run exec
    (exec s (Catalog.columnsQuery e)).2).state

/-- Any other table is altered, and its indexes are asked for in between. -/
theorem statements_entity_of_not_isEmpty {e : Entity} {s : σ} {rows rows' : List Row}
    (hrows : (exec s (Catalog.columnsQuery e)).1 = .ok rows)
    (hempty : (LiveColumn.ofRows rows).isEmpty = false)
    (hrows' : (exec (afterColumns exec e rows s) (Catalog.indexesQuery e)).1 = .ok rows') :
    ((entity e).run exec s).statements = Catalog.columnsQuery e
      :: ((e.alterTable? (ColumnChange.between e (LiveColumn.ofRows rows))).toList.map (· ++ ";")
        ++ Catalog.indexesQuery e
          :: (IndexChange.between e (LiveIndex.ofRows rows')).map fun change => change.text ++ ";") := by
  have h : ((entity e).run exec s).statements = Catalog.columnsQuery e :: _ :=
    Dialogue.statements_run_send exec _ _ s
  rw [h]
  simp only [hrows, Dialogue.bind, hempty, Bool.false_eq_true, if_false]
  rw [Dialogue.statements_run_bind, statements_applyColumns]
  congr 2
  -- The second query finds the executor as the columns have left it.
  refine (Dialogue.statements_run_send exec _ _ _).trans ?_
  rw [afterColumns] at hrows'
  simp only [hrows', Dialogue.bind]
  rw [Dialogue.statements_run_bind, statements_applyIndexes, Dialogue.statements_run_pure,
    List.append_nil]

/-! ## The three ways through one table -/

/-- What a plan says would be sent, as it is sent. -/
def sent (p : Plan) : List String := p.statements.map (· ++ ";")

theorem filter_sent (e : Entity) (columns : List LiveColumn) (indexes : List LiveIndex) :
    (sent (.of e columns indexes)).filter (!isQuery ·) = sent (.of e columns indexes) := by
  rw [List.filter_eq_self]
  intro sql hsql
  obtain ⟨text, htext, rfl⟩ := List.mem_map.mp hsql
  rw [((Plan.changes_statements htext).append ";").isQuery_eq_false]
  rfl

variable {exec}

/-- Reconciling one table sends the plan for the columns it had and the indexes it has after they
have been altered. -/
theorem ddl_entity {e : Entity} {s : σ} {rows rows' : List Row}
    (hrows : (exec s (Catalog.columnsQuery e)).1 = .ok rows)
    (hrows' : (LiveColumn.ofRows rows).isEmpty = false →
      (exec (afterColumns exec e rows s) (Catalog.indexesQuery e)).1 = .ok rows') :
    ((entity e).run exec s).ddl = sent (.of e (LiveColumn.ofRows rows) (LiveIndex.ofRows rows')) := by
  rw [← filter_sent, Run.ddl]
  cases hempty : (LiveColumn.ofRows rows).isEmpty with
  | true =>
    rw [statements_entity_of_isEmpty exec hrows hempty, List.filter_cons_of_neg
      (by rw [isQuery_columnsQuery]; decide)]
    simp only [Plan.of, if_pos hempty, sent, Plan.statements, List.map_cons, List.map_map]
    rfl
  | false =>
    rw [statements_entity_of_not_isEmpty exec hrows hempty (hrows' hempty),
      List.filter_cons_of_neg (by rw [isQuery_columnsQuery]; decide), List.filter_append,
      List.filter_cons_of_neg (by rw [isQuery_indexesQuery]; decide), ← List.filter_append]
    simp only [Plan.of, hempty, Bool.false_eq_true, if_false, sent, Plan.statements,
      List.map_append, List.map_map]
    rfl

/-- Asking what would be done answers with the plan for the columns and the indexes the table
has. -/
theorem result_entityPlan {e : Entity} {s : σ} {rows rows' : List Row}
    (hrows : (exec s (Catalog.columnsQuery e)).1 = .ok rows)
    (hrows' : (LiveColumn.ofRows rows).isEmpty = false →
      (exec (exec s (Catalog.columnsQuery e)).2 (Catalog.indexesQuery e)).1 = .ok rows') :
    ((entityPlan e).run exec s).result
      = .ok (.of e (LiveColumn.ofRows rows) (LiveIndex.ofRows rows')) := by
  have h : ((entityPlan e).run exec s).result = _ := Dialogue.result_run_send exec _ _ s
  rw [h]
  simp only [hrows, Dialogue.bind]
  cases hempty : (LiveColumn.ofRows rows).isEmpty with
  | true =>
    simp only [if_true, Plan.of, hempty]
    rfl
  | false =>
    simp only [Bool.false_eq_true, if_false]
    refine (Dialogue.result_run_send exec _ _ _).trans ?_
    simp only [hrows' hempty, Dialogue.bind]
    rfl

/-- Asking whether a table is current answers whether that plan is empty. -/
theorem result_entityIsCurrent {e : Entity} {s : σ} {rows rows' : List Row}
    (hrows : (exec s (Catalog.columnsQuery e)).1 = .ok rows)
    (hrows' : (LiveColumn.ofRows rows).isEmpty = false →
      (exec (exec s (Catalog.columnsQuery e)).2 (Catalog.indexesQuery e)).1 = .ok rows') :
    ((entityIsCurrent e).run exec s).result
      = .ok (Plan.of e (LiveColumn.ofRows rows) (LiveIndex.ofRows rows')).isEmpty := by
  have h : ((entityIsCurrent e).run exec s).result = _ := Dialogue.result_run_send exec _ _ s
  rw [h]
  simp only [hrows, Dialogue.bind]
  cases hempty : (LiveColumn.ofRows rows).isEmpty with
  | true =>
    simp only [Bool.true_or, if_true, Plan.of, hempty]
    rfl
  | false =>
    cases hchanges : (ColumnChange.between e (LiveColumn.ofRows rows)).isEmpty with
    | false =>
      simp only [Bool.not_false, Bool.or_true, if_true, Plan.of, hempty, Bool.false_eq_true,
        if_false, Plan.isEmpty, hchanges, Bool.false_and]
      rfl
    | true =>
      simp only [Bool.not_true, Bool.or_false, Bool.false_eq_true, if_false]
      refine (Dialogue.result_run_send exec _ _ _).trans ?_
      simp only [hrows' hempty, Dialogue.bind, Plan.of, hempty, Bool.false_eq_true, if_false,
        Plan.isEmpty, hchanges, Bool.true_and]
      rfl

/-! ## All tables -/

section Entities

variable {es : List Entity} {I : σ → Prop} {planOf : Entity → Plan} {s : σ}

/-- What is sent for some tables is what is sent for the first and then for the others. -/
theorem ddl_entities_cons (e : Entity) (es : List Entity) (s : σ) :
    ((entities (e :: es)).run exec s).ddl = ((entity e).run exec s).ddl
      ++ ((entities es).run exec ((entity e).run exec s).state).ddl := by
  rw [entities, Run.ddl, Dialogue.statements_run_bind, Dialogue.statements_run_bind,
    Dialogue.statements_run_pure, List.append_nil, List.filter_append]
  rfl

/-- Asking what would be done to all tables answers with the plan of each, as long as asking about
one leaves to the others what they are asked in. -/
theorem result_entityPlans
    (hes : ∀ e ∈ es, ∀ s, I s → ((entityPlan e).run exec s).result = .ok (planOf e)
      ∧ I ((entityPlan e).run exec s).state)
    (hs : I s) :
    ((entityPlans es).run exec s).result = .ok (es.map fun e => (e.name, planOf e)) := by
  induction es generalizing s with
  | nil => rfl
  | cons e es ih =>
    obtain ⟨he, hes⟩ := List.forall_mem_cons.mp hes
    obtain ⟨hresult, hnext⟩ := he s hs
    rw [entityPlans, Dialogue.result_run_bind, hresult]
    simp only
    rw [Dialogue.result_run_bind, ih hes hnext]
    rfl

/-- Everything is current exactly if every plan is empty. -/
theorem result_entitiesAreCurrent
    (hes : ∀ e ∈ es, ∀ s, I s → ((entityIsCurrent e).run exec s).result = .ok (planOf e).isEmpty
      ∧ I ((entityIsCurrent e).run exec s).state)
    (hs : I s) :
    ((entitiesAreCurrent es).run exec s).result = .ok (es.all fun e => (planOf e).isEmpty) := by
  induction es generalizing s with
  | nil => rfl
  | cons e es ih =>
    obtain ⟨he, hes⟩ := List.forall_mem_cons.mp hes
    obtain ⟨hresult, hnext⟩ := he s hs
    rw [entitiesAreCurrent, Dialogue.result_run_bind, Dialogue.result_run_bind, hresult,
      ih hes hnext]
    rfl

end Entities

end Reconcile

end EntityStore
