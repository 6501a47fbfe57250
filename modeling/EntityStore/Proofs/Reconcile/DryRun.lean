import EntityStore.Proofs.Reconcile.Performed

/-!
# How far a plan can be trusted

A plan is made from the columns and the indexes as they are. Reconciling reads the indexes only
after the table has been altered, and dropping a column takes the indexes over it along. So a plan
is what reconciling sends as long as no index covers a column that is to be dropped, and only then:
of such an index the plan still has a statement to send, or takes it for one that is there, while
reconciling finds it gone.
-/

set_option autoImplicit false

namespace EntityStore

/-! ## Which indexes are gone after the table has been altered -/

/-- Whether reconciling drops a column of a table. -/
def Tables.DropsColumn (db : Database) (s : Tables) (e : Entity) (n : String) : Prop :=
  ∃ cs, s.columns (db.tableOf e) = some cs ∧ n ∈ cs.map (·.name)
    ∧ n ≠ identifier ∧ e.attribute? n = none

/-- Whether an index covers a column that reconciling drops. -/
def Tables.Cascades (db : Database) (s : Tables) (e : Entity) : Prop :=
  ∃ i ∈ s.indexesOf (db.tableOf e), ∃ n ∈ i.columns, s.DropsColumn db e n

namespace ColumnChange

variable {e : Entity} {live : List LiveColumn} {n : String}

/-- The columns that are dropped are those that are not declared, but for the identifier. -/
theorem drop_mem_between_iff :
    .drop n ∈ between e live ↔ n ∈ live.map (·.field) ∧ n ≠ identifier ∧ e.attribute? n = none := by
  have hadd : ∀ a, addition? live a ≠ some (.drop n) := by
    intro a
    unfold addition?
    split <;> simp
  have halter : ∀ a, .drop n ∉ alterationsIn live a := by
    intro a
    unfold alterationsIn alterations
    split
    · rw [List.mem_append, not_or]
      constructor
      · split <;> simp
      · split <;> simp
    · exact List.not_mem_nil
  have hremoval : ∀ l, removal? e l = some (.drop n)
      ↔ l.field = n ∧ n ≠ identifier ∧ e.attribute? n = none := by
    intro l
    unfold removal?
    split
    · next h =>
      refine ⟨nofun, ?_⟩
      rintro ⟨rfl, hidentifier, hattribute⟩
      simp [hidentifier, hattribute] at h
    · next h =>
      rw [Option.some.injEq, ColumnChange.drop.injEq]
      refine ⟨?_, And.left⟩
      rintro rfl
      simpa using h
  -- Of the three parts of the comparison only the removals drop anything.
  simp only [between, List.mem_append, List.mem_filterMap, List.mem_flatMap, hadd, halter, hremoval,
    and_false, exists_false, false_or, List.mem_map]
  constructor
  · rintro ⟨l, hl, hfield, h⟩
    exact ⟨⟨l, hl, hfield⟩, h⟩
  · rintro ⟨⟨l, hl, hfield⟩, h⟩
    exact ⟨l, hl, hfield, h⟩

end ColumnChange

namespace Tables

variable {db : Database} {e : Entity} {s s' : Tables}

theorem drops_between_iff {cs : List Column} (hcs : s.columns (db.tableOf e) = some cs) (n : String) :
    Database.drops (ColumnChange.between e (cs.map Column.live)) n = true ↔ s.DropsColumn db e n := by
  have hfields : (cs.map Column.live).map (·.field) = cs.map (·.name) := by
    rw [List.map_map]
    rfl
  rw [Database.drops, List.contains_eq_mem, decide_eq_true_eq, ColumnChange.drop_mem_between_iff,
    hfields]
  constructor
  · exact fun h => ⟨cs, hcs, h⟩
  · rintro ⟨cs', hcs', h⟩
    cases hcs.symm.trans hcs'
    exact h

/-- After a table has been altered, those of its indexes are left that cover no dropped column. -/
theorem indexesOf_of_alterTable {cs : List Column}
    (h : db.perform s (.alterTable e.tableParts (ColumnChange.between e (cs.map Column.live)))
      = .ok s') :
    s'.indexesOf (db.tableOf e) = (s.indexesOf (db.tableOf e)).filter fun i =>
      !i.columns.any (Database.drops (ColumnChange.between e (cs.map Column.live))) := by
  obtain ⟨-, cs', -, -, rfl⟩ := Database.of_perform_alterTable h
  have hresolve : db.resolve e.tableParts = db.tableOf e := rfl
  unfold indexesOf
  rw [List.filter_filter, List.filter_filter, hresolve]
  refine List.filter_congr fun i _ => ?_
  unfold Database.keptBy
  cases i.table == db.tableOf e <;> simp

theorem indexesOf_of_not_cascades {cs : List Column} (hcs : s.columns (db.tableOf e) = some cs)
    (h : db.perform s (.alterTable e.tableParts (ColumnChange.between e (cs.map Column.live)))
      = .ok s') (hnot : ¬ s.Cascades db e) :
    s'.indexesOf (db.tableOf e) = s.indexesOf (db.tableOf e) := by
  rw [indexesOf_of_alterTable h, List.filter_eq_self]
  intro i hi
  rw [Bool.not_eq_true', List.any_eq_false]
  intro n hn hdrop
  exact hnot ⟨i, hi, n, hn, (drops_between_iff hcs n).mp hdrop⟩

end Tables

/-! ## A missing index is noticed -/

/-- The index that a change is about. -/
def SchemaChange.index? : SchemaChange → Option String
  | .createIndex _ _ name _ _ | .addConstraint _ name _ | .dropIndex _ name
  | .dropConstraint _ name => some name
  | .createTable .. | .alterTable .. => none

namespace IndexChange

variable {e : Entity} {live live' : List LiveIndex} {n : String}

theorem index?_request (c : IndexChange) : (c.request e).index? = some c.index := by
  cases c with
  | create table i =>
    rw [request]
    split <;> rfl
  | drop table name constraint =>
    rw [request]
    split <;> rfl

/-- Equal requests have equally many changes under each name. -/
theorem length_changesOf_eq (he : e.Declared) (hlive : (live.map (·.name)).Nodup)
    (hlive' : (live'.map (·.name)).Nodup)
    (h : (between e live).map (request e) = (between e live').map (request e)) (n : String) :
    (changesOf e live n).length = (changesOf e live' n).length := by
  have hcount : ∀ changes : List IndexChange, (changes.filter (·.index == n)).length
      = ((changes.map (request e)).filter (·.index? == some n)).length := by
    intro changes
    rw [List.filter_map, List.length_map]
    congr 2
    funext c
    simp [index?_request]
  rw [← filter_between he hlive, ← filter_between he hlive', hcount, hcount, h]

/-- An index that is there calls for another number of changes than one that is gone: one less if it
is as declared, and else one more. -/
theorem length_changesOf_ne {l : LiveIndex} (hl : live? live n = some l)
    (hl' : live? live' n = none) :
    (changesOf e live n).length ≠ (changesOf e live' n).length := by
  unfold changesOf
  rw [hl, hl']
  cases e.index? n with
  | none => exact Nat.one_ne_zero
  | some i =>
    dsimp only
    split
    · exact (Nat.succ_ne_self 1)
    · exact Nat.zero_ne_one

end IndexChange

/-! ## One table -/

namespace Tables.Same

variable {db : Database} {e : Entity} {s s' : Tables} (h : Same (db.tableOf e) s s')

include h

theorem planIn_eq : Reconcile.planIn db s' e = Reconcile.planIn db s e := by
  rw [Reconcile.planIn, h.1, h.2]
  rfl

theorem cascades_iff : s'.Cascades db e ↔ s.Cascades db e := by
  unfold Cascades DropsColumn
  rw [h.1, h.2]

end Tables.Same

namespace Reconcile

variable {db : Database} {e : Entity} {s : Tables}

/-- If two plans for the same columns are sent as the same statements, they ask for the same index
changes. -/
theorem map_request_eq_of_sent_eq (he : Understands db.read e) {columns : List LiveColumn}
    (hne : columns ≠ []) {live live' : List LiveIndex}
    (h : sent (.of e columns live) = sent (.of e columns live')) :
    (IndexChange.between e live).map (IndexChange.request e)
      = (IndexChange.between e live').map (IndexChange.request e) := by
  have hempty : columns.isEmpty = false := by simpa using hne
  simp only [sent, Plan.of, hempty, Bool.false_eq_true, if_false, Plan.statements,
    List.map_append, List.map_map] at h
  have hread : ∀ live, (IndexChange.between e live).map (db.read ∘ (· ++ ";") ∘ IndexChange.text)
      = ((IndexChange.between e live).map (IndexChange.request e)).map (some ∘ Request.change) := by
    intro live
    rw [List.map_map]
    exact List.map_congr_left (he.index live)
  have hinjective : Function.Injective (some ∘ Request.change) :=
    Function.Injective.comp (fun _ _ => Option.some.inj) fun _ _ => Request.change.inj
  have hrequests := congrArg (List.map db.read) (List.append_cancel_left h)
  rw [List.map_map, List.map_map, hread, hread] at hrequests
  exact List.map_injective_iff.mpr hinjective hrequests

/-- If an index goes with a dropped column, the plan for the indexes that are left is sent as other
statements. -/
theorem not_cascades_of_sent_eq (hdeclared : e.Declared) (he : Understands db.read e) (hs : s.Sound)
    {next : Tables} {cs : List Column} (found : s.columns (db.tableOf e) = some cs)
    (nonempty : cs ≠ [])
    (table : db.perform s
      (.alterTable e.tableParts (ColumnChange.between e (cs.map Column.live))) = .ok next)
    (hsent : sent (.of e (cs.map Column.live) ((next.indexesOf (db.tableOf e)).map TableIndex.live))
      = sent (.of e (cs.map Column.live) ((s.indexesOf (db.tableOf e)).map TableIndex.live))) :
    ¬ s.Cascades db e := by
  rintro ⟨i, hi, n, hn, hdrop⟩
  obtain ⟨hnext, -⟩ := hs.of_alterTable table
  have hfound : s.index? (db.tableOf e) i.name = some i :=
    (Keyed.find?_eq_some_iff (hs.unique.nodup _)).mpr ⟨hi, rfl⟩
  have hgone : next.index? (db.tableOf e) i.name = none := by
    rw [Tables.index?, Keyed.find?_eq_none_iff, Tables.indexesOf_of_alterTable table]
    intro j hj hname
    obtain ⟨hj, hkept⟩ := List.mem_filter.mp hj
    cases List.inj_on_of_nodup_map (hs.unique.nodup _) hj hi hname
    rw [Bool.not_eq_true', List.any_eq_false] at hkept
    exact hkept n hn ((Tables.drops_between_iff found n).mpr hdrop)
  -- Equal statements are equal requests, so they make equally many changes of this index. But
  -- where it is gone another number of changes is needed than where it is there.
  have hrequests := map_request_eq_of_sent_eq he (by simpa using nonempty) hsent
  have hlength := IndexChange.length_changesOf_eq hdeclared
    (IndexChange.nodup_map_live hnext.unique _) (IndexChange.nodup_map_live hs.unique _)
    hrequests i.name
  refine IndexChange.length_changesOf_ne (l := i.live) ?_ ?_ hlength.symm
  · rw [IndexChange.live?_map_live, hfound]
    rfl
  · rw [IndexChange.live?_map_live, hgone]
    rfl

/-- What reconciling one table sends is the plan for it as it is, exactly if no index goes with a
column that is dropped. -/
theorem ddl_eq_planIn_iff (hdeclared : e.Declared) (he : Understands db.read e) (hs : s.Sound)
    (h : ((entity e).run db.executor s).Clean) :
    ((entity e).run db.executor s).ddl = sent (planIn db s e) ↔ ¬ s.Cascades db e := by
  obtain ⟨p, hreconciles, hddl⟩ := reconciles_entity he h
  rw [hddl]
  cases hreconciles with
  | create _ next table indexes =>
    obtain ⟨hnone, -⟩ := Database.of_perform_createTable table
    have hcs : s.columns (db.tableOf e) = none := hnone
    have hplan : planIn db s e = .of e [] [] := by
      rw [planIn, hcs]
      rfl
    rw [hplan]
    refine ⟨fun _ => ?_, fun _ => rfl⟩
    rintro ⟨i, -, n, -, cs, hcs', -⟩
    cases hcs.symm.trans hcs'
  | alter _ next cs found nonempty table indexes =>
    have hplan : planIn db s e
        = .of e (cs.map Column.live) ((s.indexesOf (db.tableOf e)).map TableIndex.live) := by
      rw [planIn, found]
      rfl
    rw [hplan]
    constructor
    · exact not_cascades_of_sent_eq hdeclared he hs found nonempty table
    · intro hnot
      rw [Tables.indexesOf_of_not_cascades found table hnot]

/-! ## All tables -/

/-- The plans that a dry run lists, one for each entity, against what reconciling sends for the
entity once it has seen to those before it. They are the same exactly for the entities of which no
index goes with a column that is dropped. -/
theorem planned_iff_sent {r : Registry} (hr : ∀ e ∈ r.entities, e.Declared ∧ Understands db.read e)
    (hdistinct : (r.entities.map db.tableOf).Nodup) (hs : s.Sound)
    (h : ((all r).run db.executor s).Clean) :
    ∃ planOf : Entity → Plan,
      ((plan r).run db.executor s).result = .ok (r.entities.map fun e => (e.name, planOf e))
      ∧ ∀ before e after, r.entities = before ++ e :: after →
        (((entity e).run db.executor ((entities before).run db.executor s).state).ddl
            = (planOf e).statements.map (· ++ ";")
          ↔ ¬ s.Cascades db e) := by
  refine ⟨planIn db s, result_entityPlans_eq_planIn (fun e he => (hr e he).2) s, ?_⟩
  intro before e after hsplit
  have hmem : ∀ f ∈ before ++ e :: after, f.Declared ∧ Understands db.read f := by
    rwa [← hsplit]
  have hbefore := fun f hf => hmem f (List.mem_append_left _ hf)
  obtain ⟨hdeclared, hread⟩ := hmem e (List.mem_append_right _ List.mem_cons_self)
  rw [hsplit, List.map_append, List.map_cons, List.nodup_append] at hdistinct
  have hother : db.tableOf e ∉ before.map db.tableOf := fun he =>
    hdistinct.2.2 _ he _ List.mem_cons_self rfl
  rw [all, hsplit] at h
  obtain ⟨hclean, hrest⟩ := clean_entities_append h
  obtain ⟨hs', hsame⟩ := sound_and_same_entities hbefore hs hclean
  rw [← (hsame _ hother).planIn_eq, ← (hsame _ hother).cascades_iff]
  exact ddl_eq_planIn_iff hdeclared hread hs' (clean_entities_cons.mp hrest).1

/-- Of old notes the plan drops an index that reconciling them does not. -/
theorem planned_iff_sent_oldNotes :
    let r := Registry.empty.register Ddl.note
    ∃ planOf : Entity → Plan,
      ((plan r).run Ddl.database.executor Ddl.oldNotes).result
          = .ok (r.entities.map fun e => (e.name, planOf e))
        ∧ ((entity Ddl.note).run Ddl.database.executor Ddl.oldNotes).ddl
          ≠ (planOf Ddl.note).statements.map (· ++ ";") := by
  intro r
  have hr : ∀ e ∈ r.entities, e.Declared ∧ Understands Ddl.database.read e := by
    rintro e (_ | ⟨_, ⟨⟩⟩)
    exact ⟨⟨_, _, _, _, rfl⟩, Ddl.understands_note⟩
  obtain ⟨planOf, hplan, hsent⟩ := planned_iff_sent hr (List.nodup_singleton _) Ddl.sound_oldNotes
    Ddl.clean_oldNotes
  refine ⟨planOf, hplan, fun h => (hsent [] Ddl.note [] rfl).mp h ?_⟩
  exact ⟨_, List.mem_cons_self, "body", List.mem_cons_self, _, rfl, by decide, by decide, rfl⟩

/-- The plan for old notes word for word, against what is sent without a failure. -/
theorem plan_oldNotes :
    let r := Registry.empty.register Ddl.note
    ((all r).run Ddl.database.executor Ddl.oldNotes).Clean
      ∧ (∃ p, ((plan r).run Ddl.database.executor Ddl.oldNotes).result = .ok [("note", p)]
        ∧ p.statements = ["ALTER TABLE \"note\" DROP COLUMN \"body\"", "DROP INDEX \"note_body_idx\""])
      ∧ ((all r).run Ddl.database.executor Ddl.oldNotes).ddl
        = ["ALTER TABLE \"note\" DROP COLUMN \"body\";"] := by
  intro r
  have hread : ∀ e ∈ r.entities, Understands Ddl.database.read e := by
    rintro e (_ | ⟨_, ⟨⟩⟩)
    exact Ddl.understands_note
  refine ⟨Ddl.clean_oldNotes, ⟨_, result_entityPlans_eq_planIn hread _, by decide⟩, ?_⟩
  have hentities : r.entities = [Ddl.note] := rfl
  have hclean := Ddl.clean_oldNotes
  rw [all, hentities] at hclean ⊢
  obtain ⟨p, hreconciles, hddl⟩ :=
    reconciles_entity Ddl.understands_note (clean_entities_cons.mp hclean).1
  rw [ddl_entities_cons, hddl]
  cases hreconciles with
  | create _ next table indexes =>
    obtain ⟨hnone, -⟩ := Database.of_perform_createTable table
    cases hnone
  | alter _ next cs found nonempty table indexes =>
    cases found
    -- The index is gone when the indexes are read.
    have hnext : next.indexes = [] := by
      cases Except.ok.inj (table.symm.trans rfl)
      rfl
    rw [Tables.indexesOf, hnext]
    decide

end Reconcile

end EntityStore
