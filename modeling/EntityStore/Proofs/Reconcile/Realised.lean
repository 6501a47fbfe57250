import EntityStore.Proofs.Reconcile.DryRun

/-!
# How far indexes are as they were declared

A reconciliation tells an index that is there from the declared one by its row in the catalog, and the
row says which columns it covers and whether it is unique. The access method is not in the row, and
whether a constraint stands behind the index matters only if it is dropped. So an index that agrees in
columns and uniqueness passes for the declared one and is left as it is, in all respects. Any other
declared index is made, and then it is as declared in all respects, the access method and the
constraint included (`declared_indexes_realised`).
-/

set_option autoImplicit false

namespace EntityStore

/-- Whether an index over a table is as it was declared. An access method that is not named is the
ordinary one. -/
structure TableIndex.Realises (j : TableIndex) (i : Index) : Prop where
  columns : j.columns = i.columns
  unique : j.unique = i.isUnique
  method : Text.sameLetters (j.method.getD "btree") (i.method.getD "btree") = true
  constraint : j.constraint = i.isConstraint

/-- Whether an index over a table passes for a declared one: its row names the same columns, blanks
around names apart, and it is unique if the declared one is. -/
structure TableIndex.PassesFor (j : TableIndex) (i : Index) : Prop where
  columns : j.live.columns = i.columns.map Text.trim
  unique : j.unique = i.isUnique

theorem Index.realises_entry (i : Index) (t : TableName) : (i.entry t).Realises i := by
  refine ⟨rfl, rfl, ?_, rfl⟩
  rw [entry]
  cases hconstraint : i.isConstraint with
  | false => exact Text.sameLetters_self _
  | true =>
    -- A constraint is made without a method, which is right because only the ordinary one has it.
    obtain ⟨-, hmethod⟩ := (Bool.and_eq_true _ _).mp hconstraint
    cases hnamed : i.method with
    | none => exact Text.sameLetters_self _
    | some method =>
      rw [hnamed] at hmethod
      exact (Text.sameLetters_comm _ _).trans hmethod

theorem IndexChange.differs_eq_false_iff {i : Index} {j : TableIndex} :
    differs i j.live = false ↔ j.PassesFor i := by
  have hcolumns : j.live.columns.map Text.trim = j.live.columns := Text.map_trim_map_trim _
  rw [not_differs_iff, hcolumns]
  exact ⟨fun h => ⟨h.1, h.2⟩, fun h => ⟨h.columns, h.unique⟩⟩

/-! ## One table -/

/-- What becomes of a declared index. -/
inductive Tables.Realised (db : Database) (s s' : Tables) (e : Entity) (i : Index) : Prop where
  /-- It was there, covers no column that has been dropped, and passes for the declared one. It is as
  it was. -/
  | kept {j : TableIndex} : s.index? (db.tableOf e) i.name = some j →
    (∀ n ∈ j.columns, ¬ s.DropsColumn db e n) → j.PassesFor i →
    s'.index? (db.tableOf e) i.name = some j → Realised db s s' e i
  /-- It was not there, or could not stay. It is as declared. -/
  | made {j : TableIndex} :
    (∀ k, s.index? (db.tableOf e) i.name = some k →
      (∀ n ∈ k.columns, ¬ s.DropsColumn db e n) → ¬ k.PassesFor i) →
    s'.index? (db.tableOf e) i.name = some j → j.Realises i → Realised db s s' e i

namespace Tables

variable {db : Database} {e : Entity} {s s' : Tables} {t : TableName}

theorem Same.index?_eq (h : Same t s s') (n : String) : s'.index? t n = s.index? t n := by
  rw [index?, h.2]
  rfl

theorem Same.dropsColumn_iff (h : Same (db.tableOf e) s s') (n : String) :
    s'.DropsColumn db e n ↔ s.DropsColumn db e n := by
  rw [DropsColumn, h.1]
  rfl

/-- What happens to other tables before and after makes no difference. -/
theorem Realised.of_same {s₁ s₂ : Tables} {i : Index} (h : Realised db s₁ s₂ e i)
    (hbefore : Same (db.tableOf e) s s₁) (hafter : Same (db.tableOf e) s₂ s') :
    Realised db s s' e i := by
  cases h with
  | kept hj hcolumns hpasses hj' =>
    simp only [hbefore.index?_eq, hbefore.dropsColumn_iff] at hj hcolumns
    exact .kept hj hcolumns hpasses ((hafter.index?_eq _).trans hj')
  | made hk hj hrealises =>
    simp only [hbefore.index?_eq, hbefore.dropsColumn_iff] at hk
    exact .made hk ((hafter.index?_eq _).trans hj) hrealises

/-- An index is left by the alteration of its table if it covers no column that is dropped. -/
theorem index?_of_alterTable (hs : s.Sound) {cs : List Column}
    (hcs : s.columns (db.tableOf e) = some cs)
    (h : db.perform s (.alterTable e.tableParts (ColumnChange.between e (cs.map Column.live)))
      = .ok s') {n : String} {j : TableIndex} :
    s'.index? (db.tableOf e) n = some j
      ↔ s.index? (db.tableOf e) n = some j ∧ ∀ m ∈ j.columns, ¬ s.DropsColumn db e m := by
  obtain ⟨hs', -⟩ := hs.of_alterTable h
  have hkept : j ∈ s'.indexesOf (db.tableOf e) ↔ j ∈ s.indexesOf (db.tableOf e)
      ∧ ∀ m ∈ j.columns, ¬ s.DropsColumn db e m := by
    rw [indexesOf_of_alterTable h, List.mem_filter, Bool.not_eq_true', List.any_eq_false]
    simp only [drops_between_iff hcs]
  rw [index?, index?, Keyed.find?_eq_some_iff (hs'.unique.nodup _),
    Keyed.find?_eq_some_iff (hs.unique.nodup _), hkept]
  exact and_right_comm

end Tables

namespace IndexChange

variable {db : Database} {e : Entity} {s s' : Tables}

/-- After all changes of the indexes of a table, a declared index is what was there if that passes for
it, and else it is as declared. -/
theorem index?_of_foldlM_between (he : e.Declared) (hs : s.NamesUnique)
    (h : (between e ((s.indexesOf (db.tableOf e)).map TableIndex.live)).foldlM
      (fun s c => db.perform s (c.request e)) s = .ok s') {i : Index} (hi : i ∈ e.indexes) :
    (∃ j, s.index? (db.tableOf e) i.name = some j ∧ j.PassesFor i
        ∧ s'.index? (db.tableOf e) i.name = some j)
      ∨ (∀ j, s.index? (db.tableOf e) i.name = some j → ¬ j.PassesFor i)
        ∧ s'.index? (db.tableOf e) i.name = some (i.entry (db.tableOf e)) := by
  obtain ⟨-, -, hindex, -⟩ := of_foldlM_between he hs h
  have hdeclared : e.index? i.name = some i :=
    (Keyed.find?_eq_some_iff he.nodup_indexes).mpr ⟨hi, rfl⟩
  rw [hindex, changesOf, hdeclared, live?_map_live]
  cases s.index? (db.tableOf e) i.name with
  | none =>
    refine .inr ⟨fun j hj => ?_, rfl⟩
    cases hj
  | some j =>
    simp only [Option.map_some, Option.some.injEq]
    cases hdiffers : differs i j.live with
    | false => exact .inl ⟨j, rfl, differs_eq_false_iff.mp hdiffers, rfl⟩
    | true =>
      refine .inr ⟨?_, rfl⟩
      rintro _ rfl hpasses
      cases hdiffers.symm.trans (differs_eq_false_iff.mpr hpasses)

end IndexChange

/-- A table whose changes have all been made has each declared index, as it was or as declared. -/
theorem Reconciles.realised {db : Database} {e : Entity} {s s' : Tables} {p : Plan}
    (h : Reconciles db e s p s') (he : e.Declared) (hs : s.Sound) {i : Index} (hi : i ∈ e.indexes) :
    Tables.Realised db s s' e i := by
  cases h with
  | create _ next table indexes =>
    obtain ⟨hnone, -⟩ := Database.of_perform_createTable table
    obtain ⟨hnext, -⟩ := hs.of_createTable table
    have hempty := indexesOf_of_createTable hs table
    have hbefore : ∀ n, s.index? (db.tableOf e) n = none := by
      intro n
      have hcovered : s.indexesOf (db.tableOf e) = [] := hs.covered _ hnone
      rw [Tables.index?, hcovered]
      rfl
    rw [← List.map_nil (f := TableIndex.live), ← hempty] at indexes
    -- A table that has just been created has no index that could have been kept.
    obtain ⟨j, hj, -, -⟩ | ⟨-, hmade⟩ :=
      IndexChange.index?_of_foldlM_between he hnext.unique indexes hi
    · rw [Tables.index?, hempty] at hj
      cases hj
    · refine .made (fun k hk => ?_) hmade (i.realises_entry _)
      cases (hbefore _).symm.trans hk
  | alter _ next cs found nonempty table indexes =>
    obtain ⟨hnext, -⟩ := hs.of_alterTable table
    obtain ⟨j, hj, hpasses, hkept⟩ | ⟨hother, hmade⟩ :=
      IndexChange.index?_of_foldlM_between he hnext.unique indexes hi
    · obtain ⟨hj, hcolumns⟩ := (Tables.index?_of_alterTable hs found table).mp hj
      exact .kept hj hcolumns hpasses hkept
    · refine .made (fun k hk hcolumns => ?_) hmade (i.realises_entry _)
      exact hother k ((Tables.index?_of_alterTable hs found table).mpr ⟨hk, hcolumns⟩)

/-! ## All tables -/

namespace Reconcile

variable {db : Database} {s : Tables}

/-- Of tables that are reconciled one after the other each has its turn, and is not touched before and
after. -/
theorem exists_turn {es : List Entity} (hes : ∀ e ∈ es, e.Declared ∧ Understands db.read e)
    (hdistinct : (es.map db.tableOf).Nodup) (hs : s.Sound)
    (h : ((entities es).run db.executor s).Clean) {e : Entity} (he : e ∈ es) :
    ∃ s₁ p s₂, s₁.Sound ∧ Tables.Same (db.tableOf e) s s₁ ∧ Reconciles db e s₁ p s₂
      ∧ Tables.Same (db.tableOf e) s₂ ((entities es).run db.executor s).state := by
  -- The state moves on with each table, so what is before a turn is put together on the way back.
  induction es generalizing s with
  | nil => cases he
  | cons f es ih =>
    obtain ⟨⟨hdeclared, hunderstood⟩, htail⟩ := List.forall_mem_cons.mp hes
    obtain ⟨hother, hdistinct⟩ := List.nodup_cons.mp hdistinct
    obtain ⟨hfirst, hrest⟩ := clean_entities_cons.mp h
    obtain ⟨p, hreconciles, -⟩ := reconciles_entity hunderstood hfirst
    obtain ⟨hnext, hsame⟩ := hreconciles.sound_and_sameBut hdeclared hs
    rw [state_entities_cons]
    obtain heq | he := List.mem_cons.mp he
    · obtain ⟨-, hothers⟩ := sound_and_same_entities htail hnext hrest
      rw [heq]
      exact ⟨s, p, _, hs, ⟨rfl, rfl⟩, hreconciles, hothers _ hother⟩
    · obtain ⟨s₁, p', s₂, hs₁, hbefore, hturn, hafter⟩ := ih htail hdistinct hnext hrest he
      have hne : db.tableOf e ≠ db.tableOf f := fun heq => hother (heq ▸ List.mem_map_of_mem he)
      exact ⟨s₁, p', s₂, hs₁, (hsame _ hne).trans hbefore, hturn, hafter⟩

/-- After a reconciliation in which no statement failed, every declared index is there. It is as
declared in all respects, unless there was one already that passes for it and covers no dropped
column; then it is as it was in all respects. -/
theorem declared_indexes_realised {r : Registry}
    (hr : ∀ e ∈ r.entities, e.Declared ∧ Understands db.read e)
    (hdistinct : (r.entities.map db.tableOf).Nodup) (hs : s.Sound)
    (h : ((all r).run db.executor s).Clean) :
    ∀ e ∈ r.entities, ∀ i ∈ e.indexes,
      Tables.Realised db s ((all r).run db.executor s).state e i := by
  intro e he i hi
  obtain ⟨s₁, p, s₂, hs₁, hbefore, hturn, hafter⟩ := exists_turn hr hdistinct hs h he
  exact (hturn.realised (hr e he).1 hs₁ hi).of_same hbefore hafter

end Reconcile

/-! ## An example -/

namespace Ddl

/-- A unique index, to be a constraint. -/
def titleKey : Index := ⟨"note_title_key", .unique, none, ["title"]⟩

/-- An index with an access method of its own. -/
def bodyHash : Index := ⟨"note_body_idx", .plain, some "hash", ["body"]⟩

/-- An index over two columns. -/
def titleBody : Index := ⟨"note_title_body_idx", .plain, none, ["title", "body"]⟩

/-- Notes with these indexes. -/
def indexedNote : Entity :=
  .declare "note" none [.plain "title" .string, .plain "body" .string] [titleKey, bodyHash, titleBody]

/-- A table of notes with two of the indexes, the unique one without a constraint behind it and the
other one with the ordinary access method. -/
def indexedNotes : Tables where
  columns t :=
    if t = ⟨"public", "note"⟩ then
      some [⟨"id", reportType "integer", false, some "nextval('seq'::regclass)"⟩,
        ⟨"title", reportType "varchar", true, none⟩, ⟨"body", reportType "varchar", true, none⟩]
    else none
  indexes := [⟨⟨"public", "note"⟩, "note_title_key", true, false, none, ["title"]⟩,
    ⟨⟨"public", "note"⟩, "note_body_idx", false, false, none, ["body"]⟩]

theorem understands_indexedNote : Understands database.read indexedNote := by
  rw [read_database]
  refine understands ?_
  decide

theorem sound_indexedNotes : indexedNotes.Sound := by
  have hunique : (indexedNotes.indexes.map TableIndex.fullName).Nodup := by decide
  exact .of_forall hunique (by decide)

theorem entities_indexedNote :
    (Registry.empty.register indexedNote).entities = [indexedNote] := rfl

theorem clean_indexedNotes :
    ((Reconcile.all (Registry.empty.register indexedNote)).run database.executor
      indexedNotes).Clean := by
  have hentity : ((Reconcile.entity indexedNote).run database.executor indexedNotes).Clean :=
    Reconcile.clean_entity understands_indexedNote rfl (List.cons_ne_nil _ _) rfl rfl
  rw [Reconcile.all, entities_indexedNote]
  exact Reconcile.clean_entities_cons.mpr ⟨hentity, Dialogue.clean_pure _ _⟩

/-- What the reconciliation leaves of an index that passes for a declared one. -/
theorem index?_indexedNotes {i : Index} {j : TableIndex} (hi : i ∈ indexedNote.indexes)
    (hj : indexedNotes.index? (database.tableOf indexedNote) i.name = some j)
    (hcolumns : ∀ n ∈ j.columns, indexedNote.attribute? n ≠ none) (hpasses : j.PassesFor i) :
    ((Reconcile.all (Registry.empty.register indexedNote)).run database.executor
      indexedNotes).state.index? (database.tableOf indexedNote) i.name = some j := by
  have hclean := clean_indexedNotes
  rw [Reconcile.all, entities_indexedNote] at hclean ⊢
  obtain ⟨p, hreconciles, -⟩ := Reconcile.reconciles_entity understands_indexedNote
    (Reconcile.clean_entities_cons.mp hclean).1
  have hlast : ∀ s : Tables, ((Reconcile.entities []).run database.executor s).state = s :=
    fun _ => rfl
  rw [Reconcile.state_entities_cons, hlast]
  cases hreconciles.realised ⟨_, _, _, _, rfl⟩ sound_indexedNotes hi with
  | kept hk _ _ hk' =>
    obtain rfl := Option.some.inj (hj.symm.trans hk)
    exact hk'
  | made hother _ _ =>
    refine absurd hpasses (hother j hj fun n hn => ?_)
    rintro ⟨cs, -, -, -, hundeclared⟩
    exact hcolumns n hn hundeclared

end Ddl

namespace Reconcile

/-- The index over two columns is made as declared. -/
theorem titleBody_realised :
    let r := Registry.empty.register Ddl.indexedNote
    ∃ j, ((all r).run Ddl.database.executor Ddl.indexedNotes).state.index?
        (Ddl.database.tableOf Ddl.indexedNote) Ddl.titleBody.name = some j
      ∧ j.Realises Ddl.titleBody := by
  intro r
  have hr : ∀ e ∈ r.entities, e.Declared ∧ Understands Ddl.database.read e := by
    rintro e (_ | ⟨_, ⟨⟩⟩)
    exact ⟨⟨_, _, _, _, rfl⟩, Ddl.understands_indexedNote⟩
  have hrealised := declared_indexes_realised hr (List.nodup_singleton _) Ddl.sound_indexedNotes
    Ddl.clean_indexedNotes Ddl.indexedNote List.mem_cons_self Ddl.titleBody (by decide)
  cases hrealised with
  | kept hj => cases hj
  | made _ hj hrealises => exact ⟨_, hj, hrealises⟩

/-- The unique index stays without a constraint, and the other one keeps its access method. -/
theorem titleKey_and_bodyHash_not_realised :
    let r := Registry.empty.register Ddl.indexedNote
    let after := ((all r).run Ddl.database.executor Ddl.indexedNotes).state
    let t := Ddl.database.tableOf Ddl.indexedNote
    ((all r).run Ddl.database.executor Ddl.indexedNotes).Clean
      ∧ (∃ j, after.index? t Ddl.titleKey.name = some j ∧ ¬ j.Realises Ddl.titleKey)
      ∧ ∃ j, after.index? t Ddl.bodyHash.name = some j ∧ ¬ j.Realises Ddl.bodyHash := by
  intro r after t
  refine ⟨Ddl.clean_indexedNotes, ⟨_, Ddl.index?_indexedNotes (by decide) rfl (by decide) ?_, ?_⟩,
    ⟨_, Ddl.index?_indexedNotes (by decide) rfl (by decide) ?_, ?_⟩⟩
  · exact ⟨by decide, rfl⟩
  · intro hrealises
    cases hrealises.constraint
  · exact ⟨by decide, rfl⟩
  · intro hrealises
    cases hrealises.method

end Reconcile

end EntityStore
