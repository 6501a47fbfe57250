import EntityStore.Proofs.Ddl.Reading
import EntityStore.Proofs.Reconcile.Failures

/-!
# The order in which tables are reconciled

The tables are reconciled side by side, and nothing fixes the order in which their statements are
taken. As long as every table is kept by itself it makes no difference: every table gets the
statements, and gives the answers, that it would if the tables were taken one after the other; the
same errors are reported, if in another order, and the same one stands for them all in the end.

That a table is kept by itself is asked only of the statements that are sent for it and only of the
states they are sent in (`Dialogue.ConfinedTo`). A database that finds the table of each statement
and leaves everything else alone keeps all of them by themselves (`Executor.split`).
-/

set_option autoImplicit false

namespace EntityStore

/-! ## Databases that keep their tables apart -/

section Split

variable {α T τ : Type} [DecidableEq T]

/-- The executor in which every table answers its own statements out of a state of its own. -/
def Executor.split (target : String → T) (exec : T → Executor τ) : Executor (T → τ) :=
  fun s sql =>
    let t := target sql
    ((exec t (s t) sql).1, Function.update s t (exec t (s t) sql).2)

variable {target : String → T} {exec : T → Executor τ}

theorem split_eq {sql : String} {t : T} (h : target sql = t) (s : T → τ) :
    Executor.split target exec s sql
      = ((exec t (s t) sql).1, Function.update s t (exec t (s t) sql).2) := by
  subst h
  rfl

theorem confined_split (s : T → τ) (sql : String) :
    Confined (Executor.split target exec) (target sql) s sql where
  answer s' hs := by simp only [Executor.split, hs]
  effect s' hs := by simp only [Executor.split, hs, Function.update_self]
  others s' _ u hu := by simp only [Executor.split, Function.update_of_ne hu]

/-- A dialogue is confined to a table if that is the table of all its statements. -/
theorem confinedTo_split {d : Dialogue α} {t : T} {s : T → τ}
    (h : ∀ sql ∈ (d.run (Executor.split target exec) s).statements, target sql = t) :
    d.ConfinedTo (Executor.split target exec) t s := by
  induction d generalizing s with
  | done a => exact trivial
  | send sql next ih =>
    obtain ⟨rfl, hnext⟩ := List.forall_mem_cons.mp h
    exact ⟨confined_split s sql, ih _ hnext⟩
  | report e next ih => exact ih h

end Split

/-! ## The table of a statement -/

/-- The table that a request is for. Of an index that is dropped by its name it is not said. -/
def Request.table? : Request → Option TableRef
  | .columns t | .indexes t => some t
  | .change (.createTable t _) | .change (.alterTable t _) => some t
  | .change (.createIndex t ..) | .change (.addConstraint t ..) => some t
  | .change (.dropConstraint t _) => some t
  | .change (.dropIndex ..) => none

namespace Ddl

/-- The table that a statement is for. -/
def target (sql : String) : Option TableRef := (read sql).bind Request.table?

section Target

variable {e : Entity} (h : Understands read e)

include h

theorem target_columnsQuery : target (Catalog.columnsQuery e) = some e.tableParts := by
  rw [target, h.columns]
  rfl

theorem target_createTable : target (e.createTable ++ ";") = some e.tableParts := by
  rw [target, h.createTable]
  rfl

theorem target_index {change : IndexChange} (hchange : change ∈ IndexChange.between e []) :
    target (change.text ++ ";") = some e.tableParts := by
  obtain ⟨i, -, rfl⟩ : ∃ i ∈ e.indexes, IndexChange.create e.quotedTable i = change := by
    simpa [IndexChange.between, IndexChange.addition?, IndexChange.replacement, IndexChange.live?]
      using hchange
  rw [target, h.index [] _ hchange, IndexChange.request]
  split <;> rfl

end Target

end Ddl

namespace Reconcile

variable {T τ : Type} {exec : Executor (T → τ)} {tableOf : Entity → T} {es : List Entity} {s : T → τ}

theorem allConfined (hconfined : ∀ e ∈ es, (entity e).ConfinedTo exec (tableOf e) s) :
    AllConfined exec (es.map entity) (es.map tableOf) s := by
  intro i d t hd ht
  rw [List.getElem?_map, Option.map_eq_some_iff] at hd ht
  obtain ⟨e, he, rfl⟩ := hd
  obtain ⟨e', he', rfl⟩ := ht
  cases he.symm.trans he'
  exact hconfined e (List.mem_of_getElem? he)

/-- What is done to some tables, one after the other, leaves any other table as it is. -/
theorem state_entities_of_notMem {t : T} (hdistinct : (es.map tableOf).Nodup)
    (hconfined : ∀ e ∈ es, (entity e).ConfinedTo exec (tableOf e) s) (ht : t ∉ es.map tableOf) :
    ((entities es).run exec s).state t = s t := by
  obtain ⟨events, results, s', h, hrun⟩ := interleaved_entities exec es s
  have halone := h.alone hdistinct (by rw [List.length_map, List.length_map]) (allConfined hconfined)
  rw [hrun]
  exact halone.outside t ht

/-- Where every entity has a table of its own that is kept by itself, the order in which the
statements for different tables are taken makes no difference. In every order each table has the
statements and the answers that it has when the tables are reconciled one after the other; the
database is left in the same state, the same errors are reported and the result is the same. -/
theorem order_is_immaterial {s' : T → τ} {r : Registry} {events : List (Nat × Event)}
    {results : List (Option Error)} (hdistinct : (r.entities.map tableOf).Nodup)
    (hconfined : ∀ e ∈ r.entities, (entity e).ConfinedTo exec (tableOf e) s)
    (h : Interleaved exec (r.entities.map entity) s events results s') :
    (∀ before e after, r.entities = before ++ e :: after →
      own before.length events
        = ((entity e).run exec ((entities before).run exec s).state).events)
    ∧ s' = ((all r).run exec s).state
    ∧ (reports (events.map Prod.snd)).Perm (reports ((all r).run exec s).events)
    ∧ lastError results = ((all r).run exec s).result := by
  have hlength : (r.entities.map entity).length = (r.entities.map tableOf).length := by
    rw [List.length_map, List.length_map]
  refine ⟨fun before e after hsplit => ?_, ?_⟩
  · have halone := h.alone hdistinct hlength (allConfined hconfined)
    have he : r.entities[before.length]? = some e := by
      rw [hsplit, List.getElem?_append_right (Nat.le_refl _), Nat.sub_self, List.getElem?_cons_zero]
    have hown := (halone.each before.length (entity e) (tableOf e)
      (by rw [List.getElem?_map, he, Option.map_some])
      (by rw [List.getElem?_map, he, Option.map_some])).1
    -- The tables that come before are other tables, so this one is still as it was at the start.
    rw [hsplit, List.map_append, List.map_cons, List.nodup_middle, List.nodup_cons,
      List.mem_append, not_or] at hdistinct
    obtain ⟨⟨hother, -⟩, hrest⟩ := hdistinct
    have hbefore : ∀ f ∈ before, (entity f).ConfinedTo exec (tableOf f) s := fun f hf =>
      hconfined f (hsplit ▸ List.mem_append_left _ hf)
    have hstate := state_entities_of_notMem hrest.of_append_left hbefore hother
    obtain ⟨-, hevents, -⟩ := (hconfined e (List.mem_of_getElem? he)).congr hstate
    rw [hown, hevents]
  · -- One after the other is one of the orders, and any two orders agree.
    obtain ⟨events', results', s'', h', hrun⟩ := interleaved_entities exec r.entities s
    obtain ⟨hown, hresults, hstate⟩ := h.agree h' hdistinct hlength (allConfined hconfined)
    rw [all, hrun]
    exact ⟨hstate, (h.perm_of_own h' hown).filterMap Event.report?, congrArg lastError hresults⟩

/-! ## An example -/

/-- A database without any table. For each it counts the statements, and of the tags it says that
there is no such table, but only from the second statement on. -/
def keptApart : Executor (Option TableRef → Nat) :=
  Executor.split Ddl.target fun t n _ =>
    (if t = some (none, "tag") ∧ n ≠ 0 then .error (.database "tag") else .ok [], n + 1)

section KeptApart

variable {e : Entity} (h : Understands Ddl.read e)

include h

/-- All statements for a table that is not there are for this table. -/
theorem confinedTo_keptApart {s : Option TableRef → Nat} (hs : s (some e.tableParts) = 0) :
    (entity e).ConfinedTo keptApart (some e.tableParts) s := by
  have hrows : (keptApart s (Catalog.columnsQuery e)).1 = .ok [] := by
    rw [keptApart, split_eq (Ddl.target_columnsQuery h)]
    simp only [hs, ne_eq, not_true_eq_false, and_false, if_false]
  refine confinedTo_split fun sql hsql => ?_
  have hstatements := statements_entity_of_isEmpty _ hrows rfl
  rw [keptApart] at hstatements
  rw [hstatements] at hsql
  rcases List.mem_cons.mp hsql with rfl | hsql
  · exact Ddl.target_columnsQuery h
  rcases List.mem_cons.mp hsql with rfl | hsql
  · exact Ddl.target_createTable h
  · obtain ⟨change, hchange, rfl⟩ := List.mem_map.mp hsql
    exact Ddl.target_index h hchange

end KeptApart

/-- The table of notes is created in between the two statements that fail for the tags. -/
theorem order_is_immaterial_keptApart :
    ∃ events results s',
      Interleaved keptApart (notesAndTags.entities.map entity) (fun _ => 0) events results s'
      ∧ events.map Prod.fst = [1, 0, 1, 0, 1, 1, 1]
      ∧ s' = ((all notesAndTags).run keptApart fun _ => 0).state
      ∧ lastError results = ((all notesAndTags).run keptApart fun _ => 0).result := by
  have hunderstands : ∀ e ∈ notesAndTags.entities, Understands Ddl.read e := by
    have hmethods : ∀ e ∈ notesAndTags.entities, ∀ i ∈ e.indexes, i.method = none := by
      decide +kernel
    refine fun e he => Ddl.understands fun i hi _ method hmethod => ?_
    rw [hmethods e he i hi] at hmethod
    cases hmethod
  have hconfined : ∀ e ∈ notesAndTags.entities,
      (entity e).ConfinedTo keptApart (some e.tableParts) fun _ => 0 :=
    fun e he => confinedTo_keptApart (hunderstands e he) rfl
  have hdistinct : (notesAndTags.entities.map fun e => some e.tableParts).Nodup := by
    decide +kernel
  have hnote := hunderstands _ List.mem_cons_self
  have htag := hunderstands _ (List.mem_cons_of_mem _ List.mem_cons_self)
  have h : Interleaved keptApart (notesAndTags.entities.map entity) (fun _ => 0) _ _ _ :=
    .answered 1 rfl (split_eq (Ddl.target_columnsQuery htag) _) <|
    .answered 0 rfl (split_eq (Ddl.target_columnsQuery hnote) _) <|
    .answered 1 rfl (split_eq (Ddl.target_createTable htag) _) <|
    .answered 0 rfl (split_eq (Ddl.target_createTable hnote) _) <|
    .report 1 rfl <|
    .answered 1 rfl (split_eq (Ddl.target_index htag List.mem_cons_self) _) <|
    .report 1 rfl <| .done [none, some (Error.database "tag")] _
  obtain ⟨-, hstate, -, hresult⟩ := order_is_immaterial hdistinct hconfined h
  exact ⟨_, _, _, h, rfl, hstate, hresult⟩

end Reconcile

end EntityStore
