import EntityStore.Proofs.Database.Rows
import EntityStore.Proofs.Schema.Declared

/-!
# What the index changes do

The changes of a table's indexes taken name by name. Each is a statement of its own, and the name of
an index is unique in its schema, so a change reaches one index only: that of its name over its own
table (`reaches_request`). An index that is missing is created, one that differs is dropped and
created, one that is not declared is dropped (`filter_between`). So every drop finds the index that
it means, and once all changes have been made there is nothing left to change.
-/

set_option autoImplicit false

namespace EntityStore

namespace IndexChange

def index : IndexChange → String
  | .create _ i => i.name
  | .drop _ name _ => name

variable {e : Entity} {live : List LiveIndex} {n : String}

/-! ## The changes of one name -/

theorem index_of_mem_addition? {table : String} {i : Index} {c : IndexChange}
    (h : c ∈ (addition? table live i).toList) : c.index = i.name := by
  unfold addition? at h
  split at h
  · cases h
  · rw [List.mem_singleton.mp h]
    rfl

theorem index_of_mem_replacement {table : String} {i : Index} {c : IndexChange}
    (h : c ∈ replacement table live i) : c.index = i.name := by
  unfold replacement at h
  split at h
  · next l hl =>
    split at h
    · have hn : l.name = i.name := Keyed.key_of_find? hl
      rcases List.mem_cons.mp h with rfl | h
      · exact hn
      · rw [List.mem_singleton.mp h]
        rfl
    · cases h
  · cases h

theorem index_of_mem_removal? {l : LiveIndex} {c : IndexChange}
    (h : c ∈ (removal? e l).toList) : c.index = l.name := by
  unfold removal? at h
  split at h
  · cases h
  · rw [List.mem_singleton.mp h]
    rfl

/-- What has to be done about the index of a name. -/
def changesOf (e : Entity) (live : List LiveIndex) (n : String) : List IndexChange :=
  match e.index? n, live? live n with
  | some i, none => [.create e.quotedTable i]
  | some i, some l =>
    if differs i l then [.drop e.quotedTable n l.constraint, .create e.quotedTable i] else []
  | none, some l => [.drop e.quotedTable n l.constraint]
  | none, none => []

/-- Of all changes of the indexes, those of one name are what has to be done about that name. -/
theorem filter_between (he : e.Declared) (hlive : (live.map (·.name)).Nodup) (n : String) :
    (between e live).filter (·.index == n) = changesOf e live n := by
  -- In each of the three parts at most one element has the name, because names are distinct.
  rw [between, Keyed.filterMap_eq_flatMap, Keyed.filterMap_eq_flatMap, List.filter_append,
    List.filter_append,
    Keyed.filter_flatMap he.nodup_indexes fun _ _ _ hc => index_of_mem_addition? hc,
    Keyed.filter_flatMap he.nodup_indexes fun _ _ _ hc => index_of_mem_replacement hc,
    Keyed.filter_flatMap hlive fun _ _ _ hc => index_of_mem_removal? hc, changesOf]
  have hname : ∀ i, e.index? n = some i → i.name = n := fun i h => Keyed.key_of_find? h
  have hlookup : live.find? (·.name == n) = live? live n := rfl
  have hdeclared : e.indexes.find? (·.name == n) = e.index? n := rfl
  rw [hlookup, hdeclared]
  cases hi : e.index? n with
  | none =>
    cases hl : live? live n with
    | none => rfl
    | some l =>
      have hn : l.name = n := Keyed.key_of_find? hl
      simp [removal?, hn, hi]
  | some i =>
    have hfound : live? live i.name = live? live n := by rw [hname i hi]
    simp only [Option.map_some, Option.getD_some, addition?, replacement, hfound]
    cases hl : live? live n with
    | none => rfl
    | some l =>
      have hn : l.name = n := Keyed.key_of_find? hl
      simp [removal?, hn, hi]

/-- Nothing has to change exactly if every declared index is there as declared and no other one is
there. -/
theorem between_eq_nil_iff :
    between e live = [] ↔
      (∀ i ∈ e.indexes, ∃ l, live? live i.name = some l ∧ differs i l = false)
      ∧ ∀ l ∈ live, (e.index? l.name).isSome = true := by
  have hpresent : ∀ i, (addition? e.quotedTable live i = none
      ∧ replacement e.quotedTable live i = []) ↔
      ∃ l, live? live i.name = some l ∧ differs i l = false := by
    intro i
    unfold addition? replacement
    cases live? live i.name <;> simp
  have hremoval : ∀ l, removal? e l = none ↔ (e.index? l.name).isSome = true := by
    intro l
    unfold removal?
    split
    · next h => exact ⟨fun _ => h, fun _ => rfl⟩
    · next h => exact ⟨nofun, fun h' => absurd h' h⟩
  simp only [between, List.append_eq_nil_iff, List.filterMap_eq_nil_iff, List.flatMap_eq_nil_iff,
    hremoval, ← hpresent]
  exact and_congr_left fun _ => forall₂_and.symm

end IndexChange

/-! ## What becomes of an index -/

/-- The name that an index has among all indexes. -/
def TableIndex.fullName (i : TableIndex) : String × String := (i.table.schema, i.name)

namespace Tables

/-- The index of a name over a table. -/
def index? (s : Tables) (t : TableName) (n : String) : Option TableIndex :=
  (s.indexesOf t).find? (·.name == n)

/-- No two indexes of one schema have the same name. -/
def NamesUnique (s : Tables) : Prop := (s.indexes.map TableIndex.fullName).Nodup

variable {s s' : Tables} {t : TableName} {n : String} {i j : TableIndex}

theorem mem_indexesOf : i ∈ s.indexesOf t ↔ i ∈ s.indexes ∧ i.table = t := by
  simp [indexesOf]

theorem of_index? (h : s.index? t n = some i) : i ∈ s.indexes ∧ i.table = t ∧ i.name = n := by
  obtain ⟨hi, ht⟩ := mem_indexesOf.mp (List.mem_of_find?_eq_some h)
  exact ⟨hi, ht, Keyed.key_of_find? h⟩

theorem NamesUnique.nodup (h : s.NamesUnique) (t : TableName) :
    ((s.indexesOf t).map (·.name)).Nodup := by
  have hnames : ((s.indexesOf t).map (·.name)).map (t.schema, ·) = (s.indexesOf t).map TableIndex.fullName := by
    rw [List.map_map]
    refine List.map_congr_left fun i hi => ?_
    rw [Function.comp_apply, TableIndex.fullName, (mem_indexesOf.mp hi).2]
  have hnodup : ((s.indexesOf t).map TableIndex.fullName).Nodup := h.sublist (List.filter_sublist.map _)
  rw [← hnames] at hnodup
  exact hnodup.of_map _

theorem indexIn?_eq_none_iff {schema : String} :
    s.indexIn? schema n = none ↔ ∀ i ∈ s.indexes, TableIndex.fullName i ≠ (schema, n) := by
  simp [indexIn?, List.find?_eq_none, TableIndex.fullName, Prod.ext_iff]

/-- A step that changes nothing but the index of one name over one table. -/
structure Reaches (s s' : Tables) (t : TableName) (n : String) (found : Option TableIndex) :
    Prop where
  unique : s'.NamesUnique
  columns : s'.columns = s.columns
  index : ∀ m, s'.index? t m = if n = m then found else s.index? t m
  others : ∀ u, u ≠ t → s'.indexesOf u = s.indexesOf u

theorem reaches_addIndex (h : Database.addIndex s i = .ok s') (hs : s.NamesUnique) :
    s.Reaches s' i.table i.name (some i) := by
  unfold Database.addIndex at h
  split at h
  · cases h
  split at h
  · cases h
  next hfree =>
  cases h
  rw [indexIn?_eq_none_iff] at hfree
  refine ⟨?_, rfl, fun n => ?_, fun u hu => ?_⟩
  · unfold NamesUnique
    rw [List.map_append]
    refine List.nodup_append.mpr ⟨hs, List.nodup_singleton _, ?_⟩
    rintro _ hname _ hi rfl
    obtain ⟨j, hj, rfl⟩ := List.mem_map.mp hname
    exact hfree j hj (List.mem_singleton.mp hi)
  · unfold index? indexesOf
    rw [List.filter_append, List.find?_append, List.filter_singleton]
    -- The new index comes last, and is found because its name was free.
    by_cases hn : i.name = n
    · have hnone : (s.indexes.filter (·.table == i.table)).find? (·.name == n) = none := by
        rw [Keyed.find?_eq_none_iff]
        intro j hj hjn
        obtain ⟨hj, ht⟩ := mem_indexesOf.mp hj
        exact hfree j hj (by rw [TableIndex.fullName, ht, hjn, hn])
      simp [hnone, hn]
    · simp [hn]
  · unfold indexesOf
    have hother : (i.table == u) = false := beq_eq_false_iff_ne.mpr (Ne.symm hu)
    rw [List.filter_append, List.filter_cons_of_neg (by simp [hother]), List.filter_nil,
      List.append_nil]

/-- The tables without one index. -/
def without (s : Tables) (i : TableIndex) : Tables := { s with indexes := s.indexes.filter (· != i) }

/-- An index is told from all others by the name it has in its schema. -/
theorem NamesUnique.eq_iff (hs : s.NamesUnique) (hi : i ∈ s.indexes) (hj : j ∈ s.indexes) :
    j.table.schema = i.table.schema ∧ j.name = i.name ↔ j = i := by
  refine ⟨fun h => List.inj_on_of_nodup_map hs hj hi (Prod.ext h.1 h.2), ?_⟩
  rintro rfl
  exact ⟨rfl, rfl⟩

theorem reaches_without (hs : s.NamesUnique) (hi : i ∈ s.indexes) :
    s.Reaches (s.without i) i.table i.name none := by
  refine ⟨hs.sublist (List.filter_sublist.map _), rfl, fun n => ?_, fun u hu => ?_⟩
  · unfold index? indexesOf without
    by_cases hn : i.name = n
    · rw [if_pos hn, Keyed.find?_eq_none_iff]
      intro j hj hjn
      obtain ⟨hj, ht⟩ := List.mem_filter.mp hj
      obtain ⟨hj, hne⟩ := List.mem_filter.mp hj
      exact bne_iff_ne.mp hne ((hs.eq_iff hi hj).mp ⟨by rw [beq_iff_eq.mp ht], hjn.trans hn.symm⟩)
    · rw [if_neg hn, List.filter_filter, List.find?_filter, List.find?_filter]
      refine Keyed.find?_congr fun j hj => ?_
      have hother : j.name = n → j ≠ i := fun hjn hji => hn (by rw [← hji, hjn])
      by_cases hjn : j.name = n
      · simp [hjn, hother hjn]
      · simp [hjn]
  · unfold indexesOf without
    rw [List.filter_filter]
    refine List.filter_congr fun j hj => ?_
    by_cases hju : j.table = u
    · have hne : j ≠ i := fun hji => hu (by rw [← hju, hji])
      simp [hju, hne]
    · simp [hju]

end Tables

/-- The index that is made for a declared one. A constraint has the ordinary access method. -/
def Index.entry (i : Index) (t : TableName) : TableIndex where
  table := t
  name := i.name
  unique := i.isUnique
  constraint := i.isConstraint
  method := if i.isConstraint then none else i.method
  columns := i.columns

/-- A declared index that can be told from its row: it covers some columns, and no name has a
comma. -/
def Index.Readable (i : Index) : Prop := i.columns ≠ [] ∧ ∀ name ∈ i.columns, ',' ∉ name.toList

namespace IndexChange

variable {db : Database} {e : Entity} {s s' : Tables}

/-- What a change leaves under the name of its index. -/
def become (t : TableName) : IndexChange → Option TableIndex
  | .create _ i => some (i.entry t)
  | .drop .. => none

/-- Whether a change can be made of what there is under its name: a drop must find an index, and
with a constraint behind it exactly if it drops a constraint. -/
def Ready : IndexChange → Option TableIndex → Prop
  | .create .., _ => True
  | .drop _ _ constraint, found => ∃ i, found = some i ∧ i.constraint = constraint

/-- A change that succeeds reaches the index of its name over its table, and no other. -/
theorem reaches_request {c : IndexChange} (h : db.perform s (c.request e) = .ok s')
    (hs : s.NamesUnique) (hready : c.Ready (s.index? (db.tableOf e) c.index)) :
    s.Reaches s' (db.tableOf e) c.index (c.become (db.tableOf e)) := by
  cases c with
  | create table i =>
    have hadd : Database.addIndex s (i.entry (db.tableOf e)) = .ok s' := by
      rw [request] at h
      unfold Index.entry
      cases hc : i.isConstraint with
      | true =>
        have hunique : i.isUnique = true := by
          unfold Index.isConstraint at hc
          exact (Bool.and_eq_true _ _ ▸ hc).1
        rw [hc] at h
        rw [hunique]
        exact h
      | false =>
        rw [hc] at h
        exact h
    exact Tables.reaches_addIndex hadd hs
  | drop table name constraint =>
    obtain ⟨i, hi, hconstraint⟩ := hready
    obtain ⟨hmem, htable, hname⟩ := Tables.of_index? hi
    change i.name = name at hname
    -- The statement names the index by its schema or its table; either way it is this one.
    have hwithout : s' = s.without i := by
      have hfilter : ∀ p : TableIndex → Bool, (∀ j ∈ s.indexes, p j = true ↔ j ≠ i) →
          { s with indexes := s.indexes.filter p } = s.without i := by
        intro p hp
        rw [Tables.without, List.filter_congr fun j hj => ?_]
        rw [Bool.eq_iff_iff, hp j hj, bne_iff_ne]
      rw [request] at h
      cases constraint with
      | false =>
        simp only [Bool.false_eq_true, if_false, Database.perform] at h
        split at h
        · cases h
        split at h
        · cases h
        cases h
        refine hfilter _ fun j hj => ?_
        rw [ne_eq, ← hs.eq_iff hmem hj, htable, hname]
        simp only [Bool.not_eq_true', Bool.and_eq_false_iff, beq_eq_false_iff_ne, ne_eq, not_and_or]
        rfl
      | true =>
        simp only [if_true, Database.perform] at h
        split at h
        · cases h
          refine hfilter _ fun j hj => ?_
          have hthis : j.table = db.tableOf e ∧ j.name = name ∧ j.constraint = true ↔ j = i := by
            refine ⟨fun hj' => ?_, ?_⟩
            · exact (hs.eq_iff hmem hj).mp ⟨by rw [hj'.1, htable], hj'.2.1.trans hname.symm⟩
            · rintro rfl
              exact ⟨htable, hname, hconstraint⟩
          rw [ne_eq, ← hthis]
          simp only [Bool.not_eq_true', Bool.and_eq_false_iff, beq_eq_false_iff_ne, ne_eq,
            not_and_or, or_assoc, Bool.not_eq_true]
          rfl
        · cases h
    have hreach := Tables.reaches_without hs hmem
    rwa [hname, htable, ← hwithout] at hreach

theorem nodup_map_live (hs : s.NamesUnique) (t : TableName) :
    (((s.indexesOf t).map TableIndex.live).map (·.name)).Nodup := by
  rw [List.map_map]
  exact hs.nodup t

/-! ## All changes of a table -/

/-- Whether changes of one name can be made one after the other. -/
def ReadyAll (t : TableName) : List IndexChange → Option TableIndex → Prop
  | [], _ => True
  | c :: cs, found => c.Ready found ∧ ReadyAll t cs (c.become t)

/-- After some changes that all succeed, an index is what the last change of its name has made of
it. Other tables keep their indexes. -/
theorem of_foldlM {changes : List IndexChange}
    (h : changes.foldlM (fun s c => db.perform s (c.request e)) s = .ok s') (hs : s.NamesUnique)
    (hready : ∀ n, ReadyAll (db.tableOf e) (changes.filter (·.index == n))
      (s.index? (db.tableOf e) n)) :
    s'.NamesUnique ∧ s'.columns = s.columns
      ∧ (∀ n, s'.index? (db.tableOf e) n = (changes.filter (·.index == n)).foldl
          (fun _ c => c.become (db.tableOf e)) (s.index? (db.tableOf e) n))
      ∧ ∀ u, u ≠ db.tableOf e → s'.indexesOf u = s.indexesOf u := by
  induction changes generalizing s with
  | nil =>
    cases h
    exact ⟨hs, rfl, fun _ => rfl, fun _ _ => rfl⟩
  | cons c changes ih =>
    rw [List.foldlM_cons] at h
    obtain ⟨next, hnext, hrest⟩ := bind_eq_ok_iff.mp h
    have hown := hready c.index
    rw [List.filter_cons_of_pos (by simp)] at hown
    have hreach := reaches_request hnext hs hown.1
    -- The first change touches what is under its own name only, so the changes of all other
    -- names can be made of what they could be made of before.
    have hnextReady : ∀ n, ReadyAll (db.tableOf e) (changes.filter (·.index == n))
        (next.index? (db.tableOf e) n) := by
      intro n
      rw [hreach.index]
      by_cases hn : c.index = n
      · rw [if_pos hn, ← hn]
        exact hown.2
      · have hother := hready n
        rw [List.filter_cons_of_neg (by simpa using hn)] at hother
        rw [if_neg hn]
        exact hother
    obtain ⟨hunique, hcolumns, hindex, hothers⟩ := ih hrest hreach.unique hnextReady
    refine ⟨hunique, hcolumns.trans hreach.columns, fun n => ?_, fun u hu => ?_⟩
    · rw [hindex, hreach.index]
      by_cases hn : c.index = n
      · rw [if_pos hn, List.filter_cons_of_pos (by simpa using hn), List.foldl_cons]
      · rw [if_neg hn, List.filter_cons_of_neg (by simpa using hn)]
    · rw [hothers u hu, hreach.others u hu]

theorem live?_map_live (s : Tables) (t : TableName) (n : String) :
    live? ((s.indexesOf t).map TableIndex.live) n = (s.index? t n).map TableIndex.live := by
  rw [live?, List.find?_map]
  rfl

/-- What has to be done about an index can be done: whatever is dropped is there, as what it is
dropped as. -/
theorem readyAll_changesOf (s : Tables) (t : TableName) (n : String) :
    ReadyAll t (changesOf e ((s.indexesOf t).map TableIndex.live) n) (s.index? t n) := by
  unfold changesOf
  rw [live?_map_live]
  cases e.index? n with
  | none =>
    cases s.index? t n with
    | none => trivial
    | some i => exact ⟨⟨i, rfl, rfl⟩, trivial⟩
  | some declared =>
    cases s.index? t n with
    | none => exact ⟨trivial, trivial⟩
    | some i =>
      simp only [Option.map_some]
      split
      · exact ⟨⟨i, rfl, rfl⟩, trivial, trivial⟩
      · trivial

/-- What there is under a name once its changes have been made: a declared index as declared, and
nothing else. -/
theorem settled_foldl_changesOf (hreadable : ∀ i ∈ e.indexes, i.Readable) (s : Tables)
    (t : TableName) (n : String) :
    let found := (changesOf e ((s.indexesOf t).map TableIndex.live) n).foldl
      (fun _ c => c.become t) (s.index? t n)
    (∀ i, e.index? n = some i → ∃ j, found = some j ∧ differs i j.live = false)
      ∧ (e.index? n = none → found = none) := by
  intro found
  refine ⟨fun i hi => ?_, fun hundeclared => ?_⟩
  · obtain ⟨hne, hcomma⟩ := hreadable i (List.mem_of_find?_eq_some hi)
    have hentry : differs i (i.entry t).live = false := differs_eq_false hne hcomma rfl rfl
    simp only [found, changesOf, hi, live?_map_live]
    cases s.index? t n with
    | none => exact ⟨_, rfl, hentry⟩
    | some j =>
      simp only [Option.map_some]
      split
      · exact ⟨_, rfl, hentry⟩
      · next hdiffers => exact ⟨j, rfl, by simpa using hdiffers⟩
  · simp only [found, changesOf, hundeclared, live?_map_live]
    cases s.index? t n <;> rfl

/-- After all changes of the indexes of a table, which have all succeeded, each index is what the
changes of its own name have made of it, and nothing else has changed. -/
theorem of_foldlM_between (he : e.Declared) (hs : s.NamesUnique)
    (h : (between e ((s.indexesOf (db.tableOf e)).map TableIndex.live)).foldlM
      (fun s c => db.perform s (c.request e)) s = .ok s') :
    s'.NamesUnique ∧ s'.columns = s.columns
      ∧ (∀ n, s'.index? (db.tableOf e) n
        = (changesOf e ((s.indexesOf (db.tableOf e)).map TableIndex.live) n).foldl
          (fun _ c => c.become (db.tableOf e)) (s.index? (db.tableOf e) n))
      ∧ ∀ u, u ≠ db.tableOf e → s'.indexesOf u = s.indexesOf u := by
  have hlive := nodup_map_live hs (db.tableOf e)
  have hready : ∀ n, ReadyAll (db.tableOf e)
      ((between e ((s.indexesOf (db.tableOf e)).map TableIndex.live)).filter (·.index == n))
      (s.index? (db.tableOf e) n) := by
    intro n
    rw [filter_between he hlive]
    exact readyAll_changesOf s _ n
  have hall := of_foldlM h hs hready
  simp only [filter_between he hlive] at hall
  exact hall

/-- Once all changes of the indexes of a table have been made, nothing has to change about them any
more. -/
theorem between_foldlM (he : e.Declared) (hreadable : ∀ i ∈ e.indexes, i.Readable)
    (hs : s.NamesUnique)
    (h : (between e ((s.indexesOf (db.tableOf e)).map TableIndex.live)).foldlM
      (fun s c => db.perform s (c.request e)) s = .ok s') :
    between e ((s'.indexesOf (db.tableOf e)).map TableIndex.live) = [] := by
  obtain ⟨-, -, hindex, -⟩ := of_foldlM_between he hs h
  refine between_eq_nil_iff.mpr ⟨fun i hi => ?_, fun l hl => ?_⟩
  · have hfind : e.index? i.name = some i :=
      (Keyed.find?_eq_some_iff he.nodup_indexes).mpr ⟨hi, rfl⟩
    obtain ⟨j, hj, hsettled⟩ := (settled_foldl_changesOf hreadable s (db.tableOf e) i.name).1 i hfind
    exact ⟨j.live, by rw [live?_map_live, hindex, hj]; rfl, hsettled⟩
  · obtain ⟨j, hj, rfl⟩ := List.mem_map.mp hl
    have hsome : (s'.index? (db.tableOf e) j.name).isSome = true :=
      Keyed.find?_isSome_iff.mpr ⟨j, hj, rfl⟩
    by_contra hother
    have hnone := (settled_foldl_changesOf hreadable s (db.tableOf e) j.name).2
      (Option.not_isSome_iff_eq_none.mp hother)
    rw [hindex, hnone] at hsome
    cases hsome

end IndexChange

end EntityStore
