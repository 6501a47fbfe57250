import EntityStore.Proofs.Reconcile.Performed

/-!
# Reconciling once is enough

After a reconciliation in which nothing failed there is nothing left to do: everything is current,
every plan is empty, and reconciling again changes nothing. This is so wherever the tables started
from, as long as each has its identifier if it is there at all. It needs no list of what can be
wrong with a table, because one table is settled by what its changes do name by name, and the others
are not touched on the way.
-/

set_option autoImplicit false

namespace EntityStore

/-- What a database must do for an entity that was declared: understand its statements and report
each column under the type that is expected for it. Of the indexes each must cover some columns, and
no name must have a comma in it. -/
structure Database.Hosts (db : Database) (e : Entity) : Prop where
  declared : e.Declared
  understood : Understands db.read e
  reported : ∀ a ∈ e.columns, db.Reports a
  readable : ∀ i ∈ e.indexes, i.Readable

namespace Tables

/-- A table that is missing, or has its identifier and every column once. -/
def Usable (s : Tables) (t : TableName) : Prop :=
  ∀ cs, s.columns t = some cs → (cs.map (·.name)).Nodup ∧ ∃ c ∈ cs, c.name = identifier

/-- A table that is there and has nothing to be changed about it. -/
def Settled (db : Database) (s : Tables) (e : Entity) : Prop :=
  ∃ cs, s.columns (db.tableOf e) = some cs ∧ cs ≠ []
    ∧ ColumnChange.between e (cs.map Column.live) = []
    ∧ IndexChange.between e ((s.indexesOf (db.tableOf e)).map TableIndex.live) = []

variable {db : Database} {e : Entity} {s s' : Tables} {t : TableName}

theorem Usable.of_same (h : s.Usable t) (hsame : Same t s s') : s'.Usable t := by
  intro cs hcs
  rw [hsame.1] at hcs
  exact h cs hcs

theorem Settled.of_same (h : Settled db s e) (hsame : Same (db.tableOf e) s s') :
    Settled db s' e := by
  unfold Settled
  rw [hsame.1, hsame.2]
  exact h

end Tables

/-! ## One table -/

/-- A table whose changes have all been made is settled. -/
theorem Reconciles.settled {db : Database} {e : Entity} {s s' : Tables} {p : Plan}
    (h : Reconciles db e s p s') (he : db.Hosts e) (hs : s.Sound)
    (ht : s.Usable (db.tableOf e)) : Tables.Settled db s' e := by
  cases h with
  | create _ next table indexes =>
    have hcs := Database.columns_of_perform_createTable table
    have hnone := indexesOf_of_createTable hs table
    obtain ⟨hnext, -⟩ := hs.of_createTable table
    rw [← List.map_nil (f := TableIndex.live), ← hnone] at indexes
    obtain ⟨-, hcolumns, -⟩ := IndexChange.of_foldlM_between he.declared hnext.unique indexes
    refine ⟨_, (congrFun hcolumns _).trans hcs, List.cons_ne_nil _ _,
      ColumnChange.between_definitions he.declared he.reported, ?_⟩
    exact IndexChange.between_foldlM he.declared he.readable hnext.unique indexes
  | alter _ next cs found nonempty table indexes =>
    obtain ⟨hnext, -⟩ := hs.of_alterTable table
    obtain ⟨-, hcolumns, -⟩ := IndexChange.of_foldlM_between he.declared hnext.unique indexes
    obtain ⟨cs₀, cs', hcs₀, hfold, hstate⟩ := Database.of_perform_alterTable table
    cases hcs₀.symm.trans found
    obtain ⟨hnames, c, hc, hidentifier⟩ := ht cs found
    obtain ⟨hbetween, hkept⟩ :=
      ColumnChange.between_foldlM he.declared he.reported hnames hfold
    have hcs' : next.columns (db.tableOf e) = some cs' := by
      rw [hstate]
      exact if_pos rfl
    -- The identifier is never dropped, so the table still has a column.
    have hne : cs' ≠ [] := by
      rintro rfl
      have hsome : (Database.column? cs identifier).isSome = true :=
        Keyed.find?_isSome_iff.mpr ⟨c, hc, hidentifier⟩
      rw [← hkept] at hsome
      cases hsome
    exact ⟨cs', (congrFun hcolumns _).trans hcs', hne, hbetween,
      IndexChange.between_foldlM he.declared he.readable hnext.unique indexes⟩

namespace Tables.Settled

variable {db : Database} {e : Entity} {s : Tables} (h : Settled db s e)

include h

theorem isEmpty_planIn : (Reconcile.planIn db s e).isEmpty = true := by
  obtain ⟨cs, hcs, hne, hcolumns, hindexes⟩ := h
  have hlive : (cs.map Column.live).isEmpty = false := by simpa using hne
  rw [Reconcile.planIn, hcs, Option.getD_some, Plan.of, hlive, hcolumns, hindexes]
  rfl

/-- Reconciling a settled table asks two questions. -/
theorem run_entity (he : Understands db.read e) :
    ((Reconcile.entity e).run db.executor s).ddl = []
      ∧ ((Reconcile.entity e).run db.executor s).state = s := by
  obtain ⟨cs, hcs, hne, hcolumns, hindexes⟩ := h
  have hquery := Database.executor_columnsQuery he s
  have hquery' := Database.executor_indexesQuery he hcs
  rw [hcs, Option.getD_some] at hquery
  have hlive : (LiveColumn.ofRows (cs.map Database.columnRow)).isEmpty = false := by
    rw [LiveColumn.ofRows_map_columnRow]
    simpa using hne
  have hafter : Reconcile.afterColumns db.executor e (cs.map Database.columnRow) s = s := by
    rw [Reconcile.afterColumns, LiveColumn.ofRows_map_columnRow, hcolumns, hquery]
    rfl
  have hstatements := Reconcile.statements_entity_of_not_isEmpty db.executor
    (congrArg Prod.fst hquery) hlive
    (by rw [hafter]; exact congrArg Prod.fst hquery')
  rw [LiveColumn.ofRows_map_columnRow, LiveIndex.ofRows_map_indexRow, hcolumns, hindexes]
    at hstatements
  constructor
  · rw [Run.ddl, hstatements]
    simp [Entity.alterTable?, isQuery_columnsQuery, isQuery_indexesQuery]
  · rw [Dialogue.state_run, hstatements]
    simp [Entity.alterTable?, hquery, hquery']

end Tables.Settled

/-! ## All tables -/

namespace Reconcile

variable {db : Database} {es : List Entity} {s : Tables}

/-- Once all tables have been reconciled without a failure, each of them is settled: its own changes
have settled it and those of the others have not touched it. -/
theorem settled_entities (hes : ∀ e ∈ es, db.Hosts e) (hdistinct : (es.map db.tableOf).Nodup)
    (hs : s.Sound) (ht : ∀ e ∈ es, s.Usable (db.tableOf e))
    (h : ((entities es).run db.executor s).Clean) :
    ∀ e ∈ es, Tables.Settled db ((entities es).run db.executor s).state e := by
  induction es generalizing s with
  | nil => exact List.forall_mem_nil _
  | cons e es ih =>
    obtain ⟨he, hes⟩ := List.forall_mem_cons.mp hes
    obtain ⟨hte, ht⟩ := List.forall_mem_cons.mp ht
    obtain ⟨hother, hdistinct⟩ := List.nodup_cons.mp hdistinct
    obtain ⟨hfirst, hrest⟩ := clean_entities_cons.mp h
    obtain ⟨p, hreconciles, -⟩ := reconciles_entity he.understood hfirst
    obtain ⟨hnext, hsame⟩ := hreconciles.sound_and_sameBut he.declared hs
    have husable : ∀ f ∈ es, ((entity e).run db.executor s).state.Usable (db.tableOf f) := by
      intro f hf
      refine (ht f hf).of_same (hsame _ fun heq => hother ?_)
      exact heq ▸ List.mem_map_of_mem hf
    rw [state_entities_cons]
    refine List.forall_mem_cons.mpr ⟨?_, ih hes hdistinct hnext husable hrest⟩
    obtain ⟨-, hothers⟩ := sound_and_same_entities
      (fun f hf => ⟨(hes f hf).declared, (hes f hf).understood⟩) hnext hrest
    exact (hreconciles.settled he hs hte).of_same (hothers _ hother)

/-- Reconciling settled tables changes nothing. -/
theorem ddl_entities_of_settled (hes : ∀ e ∈ es, Understands db.read e)
    (h : ∀ e ∈ es, Tables.Settled db s e) : ((entities es).run db.executor s).ddl = [] := by
  induction es with
  | nil => rfl
  | cons e es ih =>
    obtain ⟨hu, hes⟩ := List.forall_mem_cons.mp hes
    obtain ⟨he, h⟩ := List.forall_mem_cons.mp h
    obtain ⟨hddl, hstate⟩ := he.run_entity hu
    rw [ddl_entities_cons, hddl, hstate, ih hes h]
    rfl

/-- After a reconciliation in which no statement failed, everything is current, every plan is empty,
and reconciling again changes nothing. -/
theorem converges {r : Registry} (hr : ∀ e ∈ r.entities, db.Hosts e)
    (hdistinct : (r.entities.map db.tableOf).Nodup) (hs : s.Sound)
    (ht : ∀ e ∈ r.entities, s.Usable (db.tableOf e)) (h : ((all r).run db.executor s).Clean) :
    ((isCurrent r).run db.executor ((all r).run db.executor s).state).result = .ok true
      ∧ (∃ plans, ((plan r).run db.executor ((all r).run db.executor s).state).result = .ok plans
        ∧ plans.map (·.1) = r.entities.map (·.name) ∧ ∀ p ∈ plans, p.2.isEmpty = true)
      ∧ ((all r).run db.executor ((all r).run db.executor s).state).ddl = [] := by
  have hsettled := settled_entities hr hdistinct hs ht h
  have hread : ∀ e ∈ r.entities, Understands db.read e := fun e he => (hr e he).understood
  refine ⟨?_, ⟨_, result_entityPlans_eq_planIn hread _, ?_, ?_⟩,
    ddl_entities_of_settled hread hsettled⟩
  · refine (result_entitiesAreCurrent_eq_planIn hread _).trans (congrArg Except.ok ?_)
    rw [List.all_eq_true]
    exact fun e he => (hsettled e he).isEmpty_planIn
  · rw [List.map_map]
    rfl
  · rw [List.forall_mem_map]
    exact fun e he => (hsettled e he).isEmpty_planIn

/-- Old notes are brought up to date, and stay so. -/
theorem converges_oldNotes :
    let r := Registry.empty.register Ddl.note
    let after := ((all r).run Ddl.database.executor Ddl.oldNotes).state
    ((isCurrent r).run Ddl.database.executor after).result = .ok true
      ∧ ((all r).run Ddl.database.executor after).ddl = [] := by
  intro r after
  have hhosts : Ddl.database.Hosts Ddl.note := by
    refine ⟨⟨_, _, _, _, rfl⟩, Ddl.understands_note, ?_, List.forall_mem_nil _⟩
    rintro a (_ | ⟨_, ⟨⟩⟩)
    exact Ddl.reports_of_size_eq_none rfl
  have husable : Ddl.oldNotes.Usable (Ddl.database.tableOf Ddl.note) := by
    rintro _ ⟨⟩
    exact ⟨by decide, _, List.mem_cons_self, rfl⟩
  have hr : ∀ e ∈ r.entities, Ddl.database.Hosts e ∧ Ddl.oldNotes.Usable (Ddl.database.tableOf e) := by
    rintro e (_ | ⟨_, ⟨⟩⟩)
    exact ⟨hhosts, husable⟩
  obtain ⟨hcurrent, -, hddl⟩ := converges (fun e he => (hr e he).1) (List.nodup_singleton _)
    Ddl.sound_oldNotes (fun e he => (hr e he).2) Ddl.clean_oldNotes
  exact ⟨hcurrent, hddl⟩

end Reconcile

end EntityStore
