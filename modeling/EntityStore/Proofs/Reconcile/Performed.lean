import EntityStore.Proofs.Change.Indexes
import EntityStore.Proofs.Ddl.Database

/-!
# What a reconciliation without failures performs

Against a database that keeps tables, a reconciliation in which no statement fails has made all of
its changes. Of the state it ends in all there is to know is which changes these are: the table is
created or altered, and then its indexes are changed (`Reconciles`). No other table is touched, so
the tables of a registry can be followed one by one.
-/

set_option autoImplicit false

namespace EntityStore

/-! ## Runs without failures -/

section Clean

variable {σ α β : Type} {exec : Executor σ}

/-- A run in which every statement was answered without an error. -/
def Run.Clean (r : Run σ α) : Prop := ∀ sql err, Event.sent sql (.error err) ∉ r.events

theorem Dialogue.clean_pure (a : α) (s : σ) : ((pure a : Dialogue α).run exec s).Clean :=
  fun _ _ => List.not_mem_nil

/-- Nothing fails in two dialogues one after the other if nothing fails in either. -/
theorem Dialogue.clean_bind_iff {d : Dialogue α} {f : α → Dialogue β} {s : σ} :
    ((d >>= f).run exec s).Clean ↔
      (d.run exec s).Clean ∧ ((f (d.run exec s).result).run exec (d.run exec s).state).Clean := by
  rw [show d >>= f = d.bind f from rfl, run_bind exec d f s]
  simp only [Run.Clean, List.mem_append, not_or, forall_and]

/-- Nothing fails in a statement and what comes after it if the statement is answered with rows and
nothing fails after it. -/
theorem Dialogue.clean_ask_iff {sql : String} {f : Answer → Dialogue α} {s : σ} :
    ((ask sql >>= f).run exec s).Clean ↔
      (∃ rows, (exec s sql).1 = .ok rows)
        ∧ ((f (exec s sql).1).run exec (exec s sql).2).Clean := by
  refine clean_bind_iff.trans (and_congr_left fun _ => ?_)
  have hevents : ((ask sql).run exec s).events = [.sent sql (exec s sql).1] := rfl
  rw [Run.Clean, hevents]
  cases (exec s sql).1 with
  | ok rows => simp
  | error err => simp

theorem Dialogue.state_run_ask (sql : String) (f : Answer → Dialogue α) (s : σ) :
    ((ask sql >>= f).run exec s).state = ((f (exec s sql).1).run exec (exec s sql).2).state := rfl

theorem Dialogue.state_run_bind (d : Dialogue α) (f : α → Dialogue β) (s : σ) :
    ((d >>= f).run exec s).state
      = ((f (d.run exec s).result).run exec (d.run exec s).state).state := by
  rw [show d >>= f = d.bind f from rfl, run_bind exec d f s]

/-- An attempt that did not fail is one statement that succeeded. -/
theorem Reconcile.exec_of_attempt {sql : String} {s : σ}
    (h : ((attempt sql).run exec s).Clean) :
    ∃ rows, exec s (sql ++ ";") = (.ok rows, ((attempt sql).run exec s).state) := by
  obtain ⟨⟨rows, hrows⟩, -⟩ := Dialogue.clean_ask_iff.mp h
  refine ⟨rows, Prod.ext hrows ?_⟩
  rw [attempt, Dialogue.state_run_ask, hrows]
  rfl

end Clean

/-! ## Single changes -/

namespace Database

variable {db : Database} {s s' : Tables} {table : TableRef}

theorem of_perform_createTable {columns : List (String × String)}
    (h : db.perform s (.createTable table columns) = .ok s') :
    s.columns (db.resolve table) = none
      ∧ s' = s.setColumns (db.resolve table) (columns.map fun c => db.columnOf c.1 c.2) := by
  simp only [perform] at h
  split at h
  · cases h
  · next hnone => exact ⟨hnone, (Except.ok.inj h).symm⟩

theorem columns_of_perform_createTable {columns : List (String × String)}
    (h : db.perform s (.createTable table columns) = .ok s') :
    s'.columns (db.resolve table) = some (columns.map fun c => db.columnOf c.1 c.2) := by
  obtain ⟨-, rfl⟩ := of_perform_createTable h
  exact if_pos rfl

/-- What is left of the indexes when some changes drop columns of their table. -/
def keptBy (t : TableName) (changes : List ColumnChange) (i : TableIndex) : Bool :=
  !(i.table == t && i.columns.any (drops changes))

theorem of_perform_alterTable {changes : List ColumnChange}
    (h : db.perform s (.alterTable table changes) = .ok s') :
    ∃ cs cs', s.columns (db.resolve table) = some cs
      ∧ changes.foldlM db.alterColumns cs = .ok cs'
      ∧ s' = { s.setColumns (db.resolve table) cs' with
        indexes := s.indexes.filter (keptBy (db.resolve table) changes) } := by
  simp only [perform] at h
  split at h
  · cases h
  · next cs hcs =>
    obtain ⟨cs', hcs', h⟩ := bind_eq_ok_iff.mp h
    exact ⟨cs, cs', hcs, hcs', (Except.ok.inj h).symm⟩

theorem columns_of_perform_alterTable {changes : List ColumnChange}
    (h : db.perform s (.alterTable table changes) = .ok s') :
    ∃ cs, s'.columns (db.resolve table) = some cs := by
  obtain ⟨cs, cs', -, -, rfl⟩ := of_perform_alterTable h
  exact ⟨cs', if_pos rfl⟩

theorem perform_alterTable_nil {cs : List Column} (hcs : s.columns (db.resolve table) = some cs) :
    db.perform s (.alterTable table []) = .ok s := by
  have hcolumns : (s.setColumns (db.resolve table) cs).columns = s.columns := by
    funext u
    show (if u = db.resolve table then some cs else s.columns u) = s.columns u
    by_cases hu : u = db.resolve table
    · rw [if_pos hu, hu, hcs]
    · rw [if_neg hu]
  have hindexes : s.indexes.filter (keptBy (db.resolve table) []) = s.indexes := by
    rw [List.filter_eq_self]
    intro i _
    simp [keptBy, drops]
  simp only [perform, hcs]
  refine congrArg Except.ok ?_
  show Tables.mk _ (s.indexes.filter (keptBy (db.resolve table) [])) = s
  rw [hcolumns, hindexes]

end Database

/-! ## One table -/

/-- The changes that reconciling one table makes when nothing fails, and the plan that they carry
out. -/
inductive Reconciles (db : Database) (e : Entity) (s : Tables) : Plan → Tables → Prop where
  | create (s' next : Tables)
    (table : db.perform s (.createTable e.tableParts e.definitions) = .ok next)
    (indexes : (IndexChange.between e []).foldlM (fun s c => db.perform s (c.request e)) next
      = .ok s') :
    Reconciles db e s (.of e [] []) s'
  | alter (s' next : Tables) (cs : List Column)
    (found : s.columns (db.tableOf e) = some cs)
    (nonempty : cs ≠ [])
    (table : db.perform s
      (.alterTable e.tableParts (ColumnChange.between e (cs.map Column.live))) = .ok next)
    (indexes : (IndexChange.between e ((next.indexesOf (db.tableOf e)).map TableIndex.live)).foldlM
      (fun s c => db.perform s (c.request e)) next = .ok s') :
    Reconciles db e s
      (.of e (cs.map Column.live) ((next.indexesOf (db.tableOf e)).map TableIndex.live)) s'

/-! ## Nothing else is touched -/

/-- What holds of the tables at any time: index names are unique, and an index is over a table that
is there. -/
structure Tables.Sound (s : Tables) : Prop where
  unique : s.NamesUnique
  covered : ∀ t, s.columns t = none → s.indexesOf t = []

/-- Two states in which one table and its indexes are the same. -/
def Tables.Same (u : TableName) (s s' : Tables) : Prop :=
  s'.columns u = s.columns u ∧ s'.indexesOf u = s.indexesOf u

/-- Two states that differ in one table and its indexes only. -/
def Tables.SameBut (t : TableName) (s s' : Tables) : Prop := ∀ u, u ≠ t → Same u s s'

namespace Tables

variable {db : Database} {e : Entity} {s s' s'' : Tables} {t : TableName}

theorem Same.trans (h : Same t s s') (h' : Same t s' s'') : Same t s s'' :=
  ⟨h'.1.trans h.1, h'.2.trans h.2⟩

theorem SameBut.trans (h : SameBut t s s') (h' : SameBut t s' s'') : SameBut t s s'' :=
  fun u hu => (h u hu).trans (h' u hu)

/-- If only one table has changed and it is there now, every index is still over a table. -/
theorem Sound.of_sameBut (hs : s.Sound) (h : SameBut t s s') (hunique : s'.NamesUnique)
    (ht : s'.columns t ≠ none) : s'.Sound := by
  refine ⟨hunique, fun u hu => ?_⟩
  have hne : u ≠ t := by
    rintro rfl
    exact ht hu
  obtain ⟨hcolumns, hindexes⟩ := h u hne
  rw [hindexes]
  exact hs.covered u (hcolumns.symm.trans hu)

theorem Sound.of_forall (hunique : s.NamesUnique) (h : ∀ i ∈ s.indexes, s.columns i.table ≠ none) :
    s.Sound := by
  refine ⟨hunique, fun t ht => List.filter_eq_nil_iff.mpr fun i hi => ?_⟩
  have hne : i.table ≠ t := by
    rintro rfl
    exact h i hi ht
  simpa using hne

theorem sameBut_setColumns (s : Tables) (t : TableName) (cs : List Column) :
    SameBut t s (s.setColumns t cs) := fun _ hu => ⟨if_neg hu, rfl⟩

/-- Dropping columns takes indexes of their own table only. -/
theorem sameBut_keptBy (s : Tables) (t : TableName) (changes : List ColumnChange) :
    SameBut t s { s with indexes := s.indexes.filter (Database.keptBy t changes) } := by
  refine fun u hu => ⟨rfl, ?_⟩
  unfold indexesOf
  rw [List.filter_filter]
  refine List.filter_congr fun i _ => ?_
  by_cases hi : i.table = u
  · simp [hi, Database.keptBy, hu]
  · simp [hi]

theorem Sound.of_createTable (hs : s.Sound) {columns : List (String × String)}
    (h : db.perform s (.createTable e.tableParts columns) = .ok s') :
    s'.Sound ∧ SameBut (db.tableOf e) s s' := by
  have hcs := Database.columns_of_perform_createTable h
  obtain ⟨-, rfl⟩ := Database.of_perform_createTable h
  have hsame := s.sameBut_setColumns (db.tableOf e) (columns.map fun c => db.columnOf c.1 c.2)
  exact ⟨hs.of_sameBut hsame hs.unique (ne_of_eq_of_ne hcs (Option.some_ne_none _)), hsame⟩

theorem Sound.of_alterTable (hs : s.Sound) {changes : List ColumnChange}
    (h : db.perform s (.alterTable e.tableParts changes) = .ok s') :
    s'.Sound ∧ SameBut (db.tableOf e) s s' := by
  obtain ⟨cs, hcs⟩ := Database.columns_of_perform_alterTable h
  obtain ⟨-, cs', -, -, rfl⟩ := Database.of_perform_alterTable h
  have hsame := (s.sameBut_setColumns (db.tableOf e) cs').trans (sameBut_keptBy _ _ changes)
  refine ⟨hs.of_sameBut hsame (hs.unique.sublist (List.filter_sublist.map _)) ?_, hsame⟩
  exact ne_of_eq_of_ne hcs (Option.some_ne_none _)

theorem Sound.of_indexChanges (hs : s.Sound) (he : e.Declared) (ht : s.columns (db.tableOf e) ≠ none)
    (h : (IndexChange.between e ((s.indexesOf (db.tableOf e)).map TableIndex.live)).foldlM
      (fun s c => db.perform s (c.request e)) s = .ok s') :
    s'.Sound ∧ SameBut (db.tableOf e) s s' := by
  obtain ⟨hunique, hcolumns, -, hothers⟩ := IndexChange.of_foldlM_between he hs.unique h
  have hsame : SameBut (db.tableOf e) s s' := fun u hu => ⟨by rw [hcolumns], hothers u hu⟩
  exact ⟨hs.of_sameBut hsame hunique (by rwa [hcolumns]), hsame⟩

end Tables

namespace Reconciles

variable {db : Database} {e : Entity} {s s' : Tables} {p : Plan}

theorem indexesOf_of_createTable (hs : s.Sound) {columns : List (String × String)}
    (h : db.perform s (.createTable e.tableParts columns) = .ok s') :
    s'.indexesOf (db.tableOf e) = [] := by
  obtain ⟨hnone, rfl⟩ := Database.of_perform_createTable h
  exact hs.covered _ hnone

/-- Reconciling one table keeps the tables sound and leaves all others as they are. -/
theorem sound_and_sameBut (h : Reconciles db e s p s') (he : e.Declared) (hs : s.Sound) :
    s'.Sound ∧ Tables.SameBut (db.tableOf e) s s' := by
  cases h with
  | create _ next table indexes =>
    obtain ⟨hnext, hsame⟩ := hs.of_createTable table
    have hcs := Database.columns_of_perform_createTable table
    have hnone := indexesOf_of_createTable hs table
    obtain ⟨hs', hsame'⟩ := hnext.of_indexChanges he
      (ne_of_eq_of_ne hcs (Option.some_ne_none _)) (by rw [hnone]; exact indexes)
    exact ⟨hs', hsame.trans hsame'⟩
  | alter _ next cs found nonempty table indexes =>
    obtain ⟨hnext, hsame⟩ := hs.of_alterTable table
    obtain ⟨cs', hcs'⟩ := Database.columns_of_perform_alterTable table
    obtain ⟨hs', hsame'⟩ := hnext.of_indexChanges he
      (ne_of_eq_of_ne hcs' (Option.some_ne_none _)) indexes
    exact ⟨hs', hsame.trans hsame'⟩

end Reconciles

namespace Reconcile

variable {db : Database} {e : Entity} {s : Tables}

theorem perform_of_applyColumns (he : Understands db.read e) {cs : List Column}
    (hcs : s.columns (db.tableOf e) = some cs) {live : List LiveColumn}
    (h : ((applyColumns e (ColumnChange.between e live)).run db.executor s).Clean) :
    db.perform s (.alterTable e.tableParts (ColumnChange.between e live))
      = .ok ((applyColumns e (ColumnChange.between e live)).run db.executor s).state := by
  cases hsql : e.alterTable? (ColumnChange.between e live) with
  | none =>
    rw [applyColumns, hsql, Entity.alterTable?_eq_none_iff.mp hsql]
    exact Database.perform_alterTable_nil hcs
  | some sql =>
    rw [applyColumns, hsql] at h ⊢
    obtain ⟨rows, hrows⟩ := exec_of_attempt h
    exact Database.perform_of_executor (he.alterTable live sql hsql) hrows

theorem foldlM_of_applyIndexes {changes : List IndexChange}
    (hread : ∀ c ∈ changes, db.read (c.text ++ ";") = some (.change (c.request e)))
    (h : ((applyIndexes changes).run db.executor s).Clean) :
    changes.foldlM (fun s c => db.perform s (c.request e)) s
      = .ok ((applyIndexes changes).run db.executor s).state := by
  induction changes generalizing s with
  | nil => rfl
  | cons c changes ih =>
    obtain ⟨hc, hread⟩ := List.forall_mem_cons.mp hread
    rw [applyIndexes] at h ⊢
    obtain ⟨hfirst, hrest⟩ := Dialogue.clean_bind_iff.mp h
    obtain ⟨hrest, -⟩ := Dialogue.clean_bind_iff.mp hrest
    obtain ⟨rows, hrows⟩ := exec_of_attempt hfirst
    rw [List.foldlM_cons, Database.perform_of_executor hc hrows]
    refine (ih hread hrest).trans ?_
    rw [Dialogue.state_run_bind, Dialogue.state_run_bind]
    rfl

/-- A table without columns is created. -/
theorem reconciles_entity_of_isEmpty (he : Understands db.read e)
    (hcs : (s.columns (db.tableOf e)).getD [] = []) (h : ((entity e).run db.executor s).Clean) :
    Reconciles db e s (.of e [] []) ((entity e).run db.executor s).state
      ∧ ((entity e).run db.executor s).ddl = sent (.of e [] []) := by
  have hquery := Database.executor_columnsQuery he s
  rw [hcs] at hquery
  constructor
  · obtain ⟨-, hrest⟩ := Dialogue.clean_ask_iff.mp h
    rw [entity, Dialogue.state_run_ask]
    rw [hquery] at hrest ⊢
    have hlive : (LiveColumn.ofRows (List.map Database.columnRow [])).isEmpty = true := rfl
    simp only [hlive, if_true] at hrest ⊢
    obtain ⟨htable, hrest⟩ := Dialogue.clean_bind_iff.mp hrest
    obtain ⟨hindexes, -⟩ := Dialogue.clean_bind_iff.mp hrest
    obtain ⟨rows, hrows⟩ := exec_of_attempt htable
    rw [Dialogue.state_run_bind, Dialogue.state_run_bind]
    exact .create _ _ (Database.perform_of_executor he.createTable hrows)
      (foldlM_of_applyIndexes (he.index []) hindexes)
  · exact @ddl_entity _ _ _ _ _ [] (congrArg Prod.fst hquery) nofun

/-- Any other table is altered. -/
theorem reconciles_entity_of_columns (he : Understands db.read e) {cs : List Column}
    (hcs : s.columns (db.tableOf e) = some cs) (hne : cs ≠ [])
    (h : ((entity e).run db.executor s).Clean) :
    ∃ p, Reconciles db e s p ((entity e).run db.executor s).state
      ∧ ((entity e).run db.executor s).ddl = sent p := by
  have hquery := Database.executor_columnsQuery he s
  rw [hcs, Option.getD_some] at hquery
  have hlive : (cs.map Column.live).isEmpty = false := by simpa using hne
  obtain ⟨-, hrest⟩ := Dialogue.clean_ask_iff.mp h
  rw [hquery] at hrest
  simp only [LiveColumn.ofRows_map_columnRow, hlive, Bool.false_eq_true, if_false] at hrest
  obtain ⟨htable, hrest⟩ := Dialogue.clean_bind_iff.mp hrest
  have hperform := perform_of_applyColumns he hcs htable
  -- The second query finds the table as the first part has left it.
  have hafter : afterColumns db.executor e (cs.map Database.columnRow) s
      = ((applyColumns e (ColumnChange.between e (cs.map Column.live))).run db.executor s).state := by
    rw [afterColumns, LiveColumn.ofRows_map_columnRow, hquery]
  rw [← hafter] at hperform hrest
  obtain ⟨cs', hfound⟩ := Database.columns_of_perform_alterTable hperform
  have hquery' := Database.executor_indexesQuery he hfound
  obtain ⟨-, hindexes⟩ := Dialogue.clean_ask_iff.mp hrest
  rw [hquery'] at hindexes
  simp only [LiveIndex.ofRows_map_indexRow] at hindexes
  obtain ⟨hindexes, -⟩ := Dialogue.clean_bind_iff.mp hindexes
  have hchanges := foldlM_of_applyIndexes (he.index _) hindexes
  refine ⟨_, .alter _ _ cs hcs hne hperform ?_, ?_⟩
  · rw [hchanges, entity, Dialogue.state_run_ask, hquery]
    simp only [LiveColumn.ofRows_map_columnRow, hlive, Bool.false_eq_true, if_false]
    rw [Dialogue.state_run_bind, Dialogue.state_run_ask, ← hafter, hquery']
    simp only [LiveIndex.ofRows_map_indexRow]
    rw [Dialogue.state_run_bind]
    rfl
  · rw [ddl_entity (congrArg Prod.fst hquery) fun _ => congrArg Prod.fst hquery',
      LiveColumn.ofRows_map_columnRow, LiveIndex.ofRows_map_indexRow]

/-- Reconciling one table without a failure makes the table and then its indexes match, and what it
sends for that is the plan it carries out. -/
theorem reconciles_entity (he : Understands db.read e)
    (h : ((entity e).run db.executor s).Clean) :
    ∃ p, Reconciles db e s p ((entity e).run db.executor s).state
      ∧ ((entity e).run db.executor s).ddl = sent p := by
  by_cases hempty : (s.columns (db.tableOf e)).getD [] = []
  · exact ⟨_, reconciles_entity_of_isEmpty he hempty h⟩
  · cases hcs : s.columns (db.tableOf e) with
    | none =>
      rw [hcs] at hempty
      exact absurd rfl hempty
    | some cs =>
      rw [hcs] at hempty
      exact reconciles_entity_of_columns he hcs hempty h

section Entities

variable {σ : Type} {exec : Executor σ}

theorem state_entities_cons (e : Entity) (es : List Entity) (s : σ) :
    ((entities (e :: es)).run exec s).state
      = ((entities es).run exec ((entity e).run exec s).state).state := by
  rw [entities, Dialogue.state_run_bind, Dialogue.state_run_bind]
  rfl

theorem clean_entities_cons {e : Entity} {es : List Entity} {s : σ} :
    ((entities (e :: es)).run exec s).Clean ↔ ((entity e).run exec s).Clean
      ∧ ((entities es).run exec ((entity e).run exec s).state).Clean := by
  rw [entities, Dialogue.clean_bind_iff, Dialogue.clean_bind_iff]
  exact and_congr_right fun _ => and_iff_left (Dialogue.clean_pure _ _)

/-- Some tables reconciled without a failure are the first of them and then the others. -/
theorem clean_entities_append {before after : List Entity} {s : σ}
    (h : ((entities (before ++ after)).run exec s).Clean) :
    ((entities before).run exec s).Clean
      ∧ ((entities after).run exec ((entities before).run exec s).state).Clean := by
  induction before generalizing s with
  | nil => exact ⟨Dialogue.clean_pure _ s, h⟩
  | cons e before ih =>
    obtain ⟨hfirst, hrest⟩ := clean_entities_cons.mp h
    obtain ⟨hbefore, hafter⟩ := ih hrest
    rw [state_entities_cons]
    exact ⟨clean_entities_cons.mpr ⟨hfirst, hbefore⟩, hafter⟩

end Entities

/-- Reconciling some tables without a failure keeps the tables sound and leaves all others as they
are. -/
theorem sound_and_same_entities {es : List Entity}
    (hes : ∀ e ∈ es, e.Declared ∧ Understands db.read e) (hs : s.Sound)
    (h : ((entities es).run db.executor s).Clean) :
    ((entities es).run db.executor s).state.Sound
      ∧ ∀ u, u ∉ es.map db.tableOf → Tables.Same u s ((entities es).run db.executor s).state := by
  induction es generalizing s with
  | nil => exact ⟨hs, fun _ _ => ⟨rfl, rfl⟩⟩
  | cons e es ih =>
    obtain ⟨⟨hdeclared, hunderstood⟩, hes⟩ := List.forall_mem_cons.mp hes
    obtain ⟨hfirst, hrest⟩ := clean_entities_cons.mp h
    obtain ⟨p, hreconciles, -⟩ := reconciles_entity hunderstood hfirst
    obtain ⟨hnext, hsame⟩ := hreconciles.sound_and_sameBut hdeclared hs
    obtain ⟨hs', hothers⟩ := ih hes hnext hrest
    rw [state_entities_cons]
    refine ⟨hs', fun u hu => ?_⟩
    obtain ⟨hne, hu⟩ := not_or.mp (mt List.mem_cons.mpr hu)
    exact (hsame u hne).trans (hothers u hu)

/-! ## Changes that can be made -/

theorem run_attempt {σ : Type} {exec : Executor σ} {sql : String} {s s' : σ} {rows : List Row}
    (h : exec s (sql ++ ";") = (.ok rows, s')) :
    ((attempt sql).run exec s).Clean ∧ ((attempt sql).run exec s).state = s' := by
  rw [attempt, Dialogue.clean_ask_iff, Dialogue.state_run_ask, h]
  exact ⟨⟨⟨rows, rfl⟩, Dialogue.clean_pure _ _⟩, rfl⟩

/-- A statement whose change can be made succeeds. -/
theorem executor_of_change {sql : String} {c : SchemaChange} {s' : Tables}
    (hread : db.read sql = some (.change c)) (h : db.change s c = .ok s') :
    db.executor s sql = (.ok [], s') := by
  rw [Database.executor, hread]
  simp only [Database.answer, h]

theorem run_applyIndexes {changes : List IndexChange} {s' : Tables}
    (hread : ∀ c ∈ changes, db.read (c.text ++ ";") = some (.change (c.request e)))
    (h : changes.foldlM (fun s c => db.change s (c.request e)) s = .ok s') :
    ((applyIndexes changes).run db.executor s).Clean := by
  induction changes generalizing s with
  | nil => exact Dialogue.clean_pure _ _
  | cons c changes ih =>
    obtain ⟨hc, hread⟩ := List.forall_mem_cons.mp hread
    rw [List.foldlM_cons] at h
    obtain ⟨next, hnext, h⟩ := bind_eq_ok_iff.mp h
    obtain ⟨hclean, hstate⟩ := run_attempt (executor_of_change hc hnext)
    rw [applyIndexes, Dialogue.clean_bind_iff, Dialogue.clean_bind_iff, hstate]
    exact ⟨hclean, ih hread h, Dialogue.clean_pure _ _⟩

theorem run_applyColumns (he : Understands db.read e) {cs : List Column} {live : List LiveColumn}
    (hcs : s.columns (db.tableOf e) = some cs) {s' : Tables}
    (h : db.change s (.alterTable e.tableParts (ColumnChange.between e live)) = .ok s') :
    ((applyColumns e (ColumnChange.between e live)).run db.executor s).Clean
      ∧ ((applyColumns e (ColumnChange.between e live)).run db.executor s).state = s' := by
  unfold applyColumns
  cases hsql : e.alterTable? (ColumnChange.between e live) with
  | none =>
    rw [Entity.alterTable?_eq_none_iff.mp hsql, Database.change] at h
    split at h
    · cases h
    · cases (Database.perform_alterTable_nil hcs).symm.trans h
      exact ⟨Dialogue.clean_pure _ _, rfl⟩
  | some sql => exact run_attempt (executor_of_change (he.alterTable live sql hsql) h)

/-- If the table can be altered and then its indexes can be changed, nothing fails. -/
theorem clean_entity (he : Understands db.read e) {cs : List Column}
    (hcs : s.columns (db.tableOf e) = some cs) (hne : cs ≠ []) {next s' : Tables}
    (htable : db.change s
      (.alterTable e.tableParts (ColumnChange.between e (cs.map Column.live))) = .ok next)
    (hindexes : (IndexChange.between e
      ((next.indexesOf (db.tableOf e)).map TableIndex.live)).foldlM
        (fun s c => db.change s (c.request e)) next = .ok s') :
    ((entity e).run db.executor s).Clean := by
  have hlive : (cs.map Column.live).isEmpty = false := by simpa using hne
  obtain ⟨hclean, hstate⟩ := run_applyColumns he hcs htable
  have hfound : ∃ cs', next.columns (db.tableOf e) = some cs' := by
    unfold Database.change at htable
    split at htable
    · cases htable
    · exact Database.columns_of_perform_alterTable htable
  obtain ⟨cs', hfound⟩ := hfound
  rw [entity, Dialogue.clean_ask_iff, Database.executor_columnsQuery he, hcs]
  refine ⟨⟨_, rfl⟩, ?_⟩
  simp only [Option.getD_some, LiveColumn.ofRows_map_columnRow, hlive, Bool.false_eq_true, if_false]
  rw [Dialogue.clean_bind_iff, hstate, Dialogue.clean_ask_iff,
    Database.executor_indexesQuery he hfound]
  refine ⟨hclean, ⟨_, rfl⟩, ?_⟩
  simp only [LiveIndex.ofRows_map_indexRow]
  rw [Dialogue.clean_bind_iff]
  exact ⟨run_applyIndexes (he.index _) hindexes, Dialogue.clean_pure _ _⟩

/-! ## Asking changes nothing -/

/-- The plan for a table as it is. -/
def planIn (db : Database) (s : Tables) (e : Entity) : Plan :=
  .of e (((s.columns (db.tableOf e)).getD []).map Column.live)
    ((s.indexesOf (db.tableOf e)).map TableIndex.live)

theorem executor_indexesQuery_of_columns (he : Understands db.read e)
    (h : (LiveColumn.ofRows (((s.columns (db.tableOf e)).getD []).map Database.columnRow)).isEmpty
      = false) :
    db.executor s (Catalog.indexesQuery e)
      = (.ok ((s.indexesOf (db.tableOf e)).map Database.indexRow), s) := by
  cases hcs : s.columns (db.tableOf e) with
  | none =>
    rw [hcs] at h
    cases h
  | some cs => exact Database.executor_indexesQuery he hcs

theorem run_entityPlan (he : Understands db.read e) (s : Tables) :
    ((entityPlan e).run db.executor s).result = .ok (planIn db s e)
      ∧ ((entityPlan e).run db.executor s).state = s := by
  have hcolumns := Database.executor_columnsQuery he s
  constructor
  · rw [planIn, ← LiveColumn.ofRows_map_columnRow, ← LiveIndex.ofRows_map_indexRow]
    refine result_entityPlan (by rw [hcolumns]) fun h => ?_
    rw [hcolumns, executor_indexesQuery_of_columns he h]
  · rw [entityPlan, Dialogue.state_run_ask, hcolumns]
    dsimp only
    split
    · rfl
    · next h =>
      rw [Dialogue.state_run_ask, executor_indexesQuery_of_columns he (Bool.eq_false_iff.mpr h)]
      rfl

theorem run_entityIsCurrent (he : Understands db.read e) (s : Tables) :
    ((entityIsCurrent e).run db.executor s).result = .ok (planIn db s e).isEmpty
      ∧ ((entityIsCurrent e).run db.executor s).state = s := by
  have hcolumns := Database.executor_columnsQuery he s
  constructor
  · rw [planIn, ← LiveColumn.ofRows_map_columnRow, ← LiveIndex.ofRows_map_indexRow]
    refine result_entityIsCurrent (by rw [hcolumns]) fun h => ?_
    rw [hcolumns, executor_indexesQuery_of_columns he h]
  · rw [entityIsCurrent, Dialogue.state_run_ask, hcolumns]
    dsimp only
    split
    · rfl
    · next h =>
      have hne := Bool.eq_false_iff.mpr fun hempty => h (Bool.or_eq_true_iff.mpr (.inl hempty))
      rw [Dialogue.state_run_ask, executor_indexesQuery_of_columns he hne]
      rfl

/-- What would be done is the plan for each table as it is. -/
theorem result_entityPlans_eq_planIn {es : List Entity}
    (hes : ∀ e ∈ es, Understands db.read e) (s : Tables) :
    ((entityPlans es).run db.executor s).result = .ok (es.map fun e => (e.name, planIn db s e)) := by
  refine result_entityPlans (I := (· = s)) ?_ rfl
  rintro e he _ rfl
  exact run_entityPlan (hes e he) _

theorem result_entitiesAreCurrent_eq_planIn {es : List Entity}
    (hes : ∀ e ∈ es, Understands db.read e) (s : Tables) :
    ((entitiesAreCurrent es).run db.executor s).result
      = .ok (es.all fun e => (planIn db s e).isEmpty) := by
  refine result_entitiesAreCurrent (I := (· = s)) ?_ rfl
  rintro e he _ rfl
  exact run_entityIsCurrent (hes e he) _

end Reconcile

/-! ## An example -/

namespace Ddl

/-- A declaration of notes, which have a title. -/
def note : Entity := .declare "note" none [.plain "title" .string] []

/-- The table of notes of an earlier declaration: with a column that is not declared any more, and
an index over it. -/
def oldNotes : Tables where
  columns t :=
    if t = ⟨"public", "note"⟩ then
      some [⟨"id", reportType "integer", false, some "nextval('seq'::regclass)"⟩,
        ⟨"title", reportType "varchar", true, none⟩, ⟨"body", reportType "text", true, none⟩]
    else none
  indexes := [⟨⟨"public", "note"⟩, "note_body_idx", false, false, none, ["body"]⟩]

theorem understands_note : Understands database.read note := by
  have hnone : note.indexes = [] := rfl
  rw [read_database]
  refine understands ?_
  rw [hnone]
  exact List.forall_mem_nil _

theorem sound_oldNotes : oldNotes.Sound :=
  .of_forall (List.nodup_singleton _) (by decide)

/-- The old table can be altered, and then there is no index left to change. -/
theorem clean_oldNotes :
    ((Reconcile.all (Registry.empty.register note)).run database.executor oldNotes).Clean := by
  have hentity : ((Reconcile.entity note).run database.executor oldNotes).Clean :=
    Reconcile.clean_entity understands_note rfl (List.cons_ne_nil _ _) rfl rfl
  have hentities : (Registry.empty.register note).entities = [note] := rfl
  rw [Reconcile.all, hentities]
  exact Reconcile.clean_entities_cons.mpr ⟨hentity, Dialogue.clean_pure _ _⟩

end Ddl

end EntityStore
