import EntityStore.Proofs.Database.Rows
import EntityStore.Proofs.Schema.Declared

/-!
# What the column changes do

The changes of a table's columns taken name by name. The list of changes is made in three passes
over all names, but what becomes of one column is decided by the changes of its own name only
(`column?_foldlM`), and of these there are few (`filter_between`): a missing column is added, a
column that differs is altered, a column that is not declared is dropped, and that is all. So once
they have been made there is nothing left to change.
-/

set_option autoImplicit false

namespace EntityStore

namespace ColumnChange

def column : ColumnChange → String
  | .add name _ | .alterType name _ | .setNotNull name | .dropNotNull name | .drop name => name

variable {e : Entity} {live : List LiveColumn} {n : String}

/-! ## The changes of one name -/

theorem column_of_mem_addition? {a : Attribute} {c : ColumnChange}
    (h : c ∈ (addition? live a).toList) : c.column = a.name := by
  unfold addition? at h
  split at h
  · cases h
  · rw [List.mem_singleton.mp h]
    rfl

theorem column_of_mem_alterations {l : LiveColumn} {a : Attribute} {c : ColumnChange}
    (h : c ∈ alterations l a) : c.column = a.name := by
  unfold alterations at h
  rcases List.mem_append.mp h with h | h
  · split at h
    · cases h
    · rw [List.mem_singleton.mp h]
      rfl
  · split at h
    · rw [List.mem_singleton.mp h]
      rfl
    · rw [List.mem_singleton.mp h]
      rfl
    · cases h

theorem column_of_mem_alterationsIn {a : Attribute} {c : ColumnChange}
    (h : c ∈ alterationsIn live a) : c.column = a.name := by
  unfold alterationsIn at h
  split at h
  · exact column_of_mem_alterations h
  · cases h

theorem column_of_mem_removal? {l : LiveColumn} {c : ColumnChange}
    (h : c ∈ (removal? e l).toList) : c.column = l.field := by
  unfold removal? at h
  split at h
  · cases h
  · rw [List.mem_singleton.mp h]
    rfl

/-- What has to be done about the column of a name. -/
def changesOf (e : Entity) (live : List LiveColumn) (n : String) : List ColumnChange :=
  match e.columns.find? (·.name == n), live? live n with
  | some a, none => [.add a.name a.columnDefinition]
  | some a, some l => alterations l a
  | none, some l => (removal? e l).toList
  | none, none => []

theorem attribute?_of_find?_columns {a : Attribute}
    (h : e.columns.find? (·.name == n) = some a) : e.attribute? n = some a := by
  rw [Entity.find?_columns] at h
  split at h
  · cases h
  · exact h

/-- Of all changes of a table, those of one name are what has to be done about that name. -/
theorem filter_between (he : e.Declared) (hlive : (live.map (·.field)).Nodup) (n : String) :
    (between e live).filter (·.column == n) = changesOf e live n := by
  rw [between, Keyed.filterMap_eq_flatMap, Keyed.filterMap_eq_flatMap, List.filter_append,
    List.filter_append,
    Keyed.filter_flatMap he.nodup_columns fun _ _ _ hc => column_of_mem_addition? hc,
    Keyed.filter_flatMap he.nodup_columns fun _ _ _ hc => column_of_mem_alterationsIn hc,
    Keyed.filter_flatMap hlive fun _ _ _ hc => column_of_mem_removal? hc, changesOf]
  have hname : ∀ a, e.columns.find? (·.name == n) = some a → a.name = n :=
    fun a h => Keyed.key_of_find? h
  have hlookup : live.find? (·.field == n) = live? live n := rfl
  rw [hlookup]
  cases ha : e.columns.find? (·.name == n) with
  | none => cases live? live n <;> rfl
  | some a =>
    have hfound : live? live a.name = live? live n := by rw [hname a ha]
    simp only [Option.map_some, Option.getD_some, addition?, alterationsIn, hfound]
    cases hl : live? live n with
    | none => rfl
    | some l =>
      have hfield : l.field = n := Keyed.key_of_find? hl
      have hremoval : removal? e l = none := by
        rw [removal?, hfield, attribute?_of_find?_columns ha]
        simp
      simp [hremoval]

end ColumnChange

/-! ## What becomes of a column -/

namespace Database

variable (db : Database)

/-- What a change makes of the column it is about. -/
def become (c : Option Column) : ColumnChange → Option Column
  | .add name definition => some (db.columnOf name definition)
  | .alterType _ type => c.map fun c => { c with type := db.report type }
  | .setNotNull _ => c.map fun c => { c with nullable := false }
  | .dropNotNull _ => c.map fun c => { c with nullable := true }
  | .drop _ => none

variable {db} {cs cs' : List Column} {n : String}

theorem name_columnOf (name definition : String) : (db.columnOf name definition).name = name := by
  unfold columnOf
  split <;> rfl

theorem name_of_column? {c : Column} (h : column? cs n = some c) : c.name = n :=
  Keyed.key_of_find? h

theorem column?_modifyColumn {name : String} {f : Column → Column}
    (hf : ∀ c, (f c).name = c.name) (h : modifyColumn cs name f = .ok cs') :
    column? cs' n = if name = n then (column? cs n).map f else column? cs n := by
  have hcs : cs' = cs.map fun c => if c.name = name then f c else c := by
    unfold modifyColumn at h
    split at h
    · exact (Except.ok.inj h).symm
    · cases h
  have hkey : ((·.name == n) ∘ fun c => if c.name = name then f c else c)
      = fun c : Column => c.name == n := by
    funext c
    simp only [Function.comp_apply]
    split
    · rw [hf]
    · rfl
  rw [hcs, column?, List.find?_map, hkey, ← column?]
  cases hc : column? cs n with
  | none => simp
  | some c =>
    have hname : c.name = n := name_of_column? hc
    by_cases hn : name = n
    · simp [hname, hn]
    · simp [hname, hn, Ne.symm hn]

/-- A change that succeeds makes of its own column what it says and leaves all others. -/
theorem column?_alterColumns {c : ColumnChange} (h : db.alterColumns cs c = .ok cs') :
    column? cs' n = if c.column = n then db.become (column? cs n) c else column? cs n := by
  cases c with
  | alterType name type => exact column?_modifyColumn (fun _ => rfl) h
  | setNotNull name => exact column?_modifyColumn (fun _ => rfl) h
  | dropNotNull name => exact column?_modifyColumn (fun _ => rfl) h
  -- A new column comes last and would not be found behind another one of its name.
  | add name definition =>
    rw [alterColumns] at h
    cases hfree : column? cs name with
    | some c =>
      rw [hfree] at h
      cases h
    | none =>
      rw [hfree] at h
      cases h
      rw [column?, List.find?_append, ← column?]
      show _ = if name = n then some (db.columnOf name definition) else column? cs n
      by_cases hn : name = n
      · subst hn
        simp [hfree, name_columnOf]
      · simp [hn, name_columnOf]
  | drop name =>
    rw [alterColumns] at h
    cases hfound : column? cs name with
    | none =>
      rw [hfound] at h
      cases h
    | some c =>
      rw [hfound] at h
      cases h
      rw [column?, List.find?_filter]
      show _ = if name = n then none else column? cs n
      by_cases hn : name = n
      · subst hn
        simp
      · rw [if_neg hn, column?]
        congr 1
        funext c
        by_cases hc : c.name = n
        · simp [hc, Ne.symm hn]
        · simp [hc]

/-- After some changes that all succeed, a column is what the changes of its own name have made of
it, one after the other. -/
theorem column?_foldlM {changes : List ColumnChange}
    (h : changes.foldlM db.alterColumns cs = .ok cs') :
    column? cs' n = (changes.filter (·.column == n)).foldl db.become (column? cs n) := by
  induction changes generalizing cs with
  | nil =>
    cases h
    rfl
  | cons c changes ih =>
    rw [List.foldlM_cons] at h
    obtain ⟨next, hnext, hrest⟩ := bind_eq_ok_iff.mp h
    rw [ih hrest, column?_alterColumns hnext]
    by_cases hn : c.column = n
    · rw [if_pos hn, List.filter_cons_of_pos (by simpa using hn), List.foldl_cons]
    · rw [if_neg hn, List.filter_cons_of_neg (by simpa using hn)]

end Database

/-! ## Nothing is left to change -/

/-- A column that is defined for an attribute is reported under the type that is expected for it. -/
def Database.Reports (db : Database) (a : Attribute) : Prop :=
  ∀ c : Column, c.type = db.report a.columnType →
    Text.sameLetters c.live.canonicalType a.reportedType = true

namespace ColumnChange

/-- Nothing has to change exactly if every declared column is there as declared and no other column
is there but the identifier. -/
theorem between_eq_nil_iff {e : Entity} {live : List LiveColumn} :
    between e live = [] ↔
      (∀ a ∈ e.columns, ∃ l, live? live a.name = some l ∧ alterations l a = [])
      ∧ ∀ l ∈ live, l.field = identifier ∨ (e.attribute? l.field).isSome = true := by
  have hpresent : ∀ a, (addition? live a = none ∧ alterationsIn live a = []) ↔
      ∃ l, live? live a.name = some l ∧ alterations l a = [] := by
    intro a
    unfold addition? alterationsIn
    cases live? live a.name <;> simp
  have hremoval : ∀ l, removal? e l = none ↔
      l.field = identifier ∨ (e.attribute? l.field).isSome = true := by
    intro l
    unfold removal?
    split
    · next h => exact ⟨fun _ => by simpa using h, fun _ => rfl⟩
    · next h => exact ⟨nofun, fun h' => absurd (by simpa using h') h⟩
  simp only [between, List.append_eq_nil_iff, List.filterMap_eq_nil_iff, List.flatMap_eq_nil_iff,
    hremoval, ← hpresent]
  exact and_congr_left fun _ => forall₂_and.symm

variable {db : Database} {e : Entity} {cs cs' : List Column}

theorem live?_map_live (cs : List Column) (n : String) :
    live? (cs.map Column.live) n = (Database.column? cs n).map Column.live := by
  rw [live?, List.find?_map]
  rfl

/-- A column is as declared exactly if it has the type and the nullability. -/
theorem alterations_eq_nil_iff {l : LiveColumn} {a : Attribute} :
    alterations l a = [] ↔
      Text.sameLetters l.canonicalType a.reportedType = true ∧ l.nullable = a.nullable := by
  unfold alterations
  rw [List.append_eq_nil_iff]
  refine and_congr ?_ ?_
  · split
    · next h => exact ⟨fun _ => h, fun _ => rfl⟩
    · next h => exact ⟨nofun, fun h' => absurd h' h⟩
  · cases l.nullable <;> cases a.nullable <;> simp

/-- The changes that make a column match give it the type, unless it has it, and the nullability. -/
theorem foldl_alterations (a : Attribute) (c : Column) :
    (alterations c.live a).foldl db.become (some c) = some { c with
      type := if Text.sameLetters c.live.canonicalType a.reportedType then c.type
        else db.report a.columnType
      nullable := a.nullable } := by
  obtain ⟨name, type, nullable, default⟩ := c
  unfold alterations
  split
  · cases nullable <;> cases hn : a.nullable <;> rfl
  · cases nullable <;> cases hn : a.nullable <;> rfl

/-- Once its changes have been made, a column is as declared. -/
theorem alterations_foldl (a : Attribute) (ha : db.Reports a) (c : Column) :
    ∃ c', (alterations c.live a).foldl db.become (some c) = some c' ∧ alterations c'.live a = [] := by
  refine ⟨_, foldl_alterations a c, alterations_eq_nil_iff.mpr ⟨?_, rfl⟩⟩
  by_cases htype : Text.sameLetters c.live.canonicalType a.reportedType = true
  · simp only [htype, if_true]
    exact htype
  · exact ha _ (if_neg htype)

/-- What there is under a name once the changes of the name have been made: an attribute's column as
declared, the identifier as it was, and nothing else. -/
theorem settled_foldl_changesOf (hreport : ∀ a ∈ e.columns, db.Reports a) (n : String) :
    let c := (changesOf e (cs.map Column.live) n).foldl db.become (Database.column? cs n)
    (∀ a, e.columns.find? (·.name == n) = some a →
        ∃ c', c = some c' ∧ alterations c'.live a = [])
      ∧ (n = identifier → c = Database.column? cs n)
      ∧ (n ≠ identifier → e.attribute? n = none → c = none) := by
  intro c
  have hfind := e.find?_columns n
  refine ⟨fun a ha => ?_, ?_, ?_⟩
  · have hmem : a ∈ e.columns := List.mem_of_find?_eq_some ha
    simp only [c, changesOf, ha, live?_map_live]
    cases hc : Database.column? cs n with
    | none =>
      refine ⟨_, rfl, alterations_eq_nil_iff.mpr ?_⟩
      rw [Database.columnOf_columnDefinition]
      exact ⟨hreport a hmem _ rfl, rfl⟩
    | some c' => exact alterations_foldl a (hreport a hmem) c'
  · rintro rfl
    rw [if_pos rfl] at hfind
    simp only [c, changesOf, hfind, live?_map_live]
    cases hc : Database.column? cs identifier with
    | none => rfl
    | some c' =>
      have hname : c'.live.field = identifier := Database.name_of_column? hc
      simp [removal?, hname]
  · intro hn hundeclared
    rw [if_neg hn, hundeclared] at hfind
    simp only [c, changesOf, hfind, live?_map_live]
    cases hc : Database.column? cs n with
    | none => rfl
    | some c' =>
      have hname : c'.live.field = n := Database.name_of_column? hc
      simp [removal?, hname, hn, hundeclared, Database.become]

/-- Once all changes of a table have been made, nothing has to change about it any more. Its
identifier is still there. -/
theorem between_foldlM (he : e.Declared) (hreport : ∀ a ∈ e.columns, db.Reports a)
    (hcs : (cs.map (·.name)).Nodup)
    (h : (between e (cs.map Column.live)).foldlM db.alterColumns cs = .ok cs') :
    between e (cs'.map Column.live) = []
      ∧ Database.column? cs' identifier = Database.column? cs identifier := by
  have hlive : ((cs.map Column.live).map (·.field)).Nodup := by
    rw [List.map_map]
    exact hcs
  have hbecome : ∀ n, Database.column? cs' n
      = (changesOf e (cs.map Column.live) n).foldl db.become (Database.column? cs n) := by
    intro n
    rw [Database.column?_foldlM h, filter_between he hlive]
  -- Each name has what its own changes leave, and that is as declared.
  refine ⟨between_eq_nil_iff.mpr ⟨fun a ha => ?_, fun l hl => ?_⟩, ?_⟩
  · have hfind : e.columns.find? (·.name == a.name) = some a :=
      (Keyed.find?_eq_some_iff he.nodup_columns).mpr ⟨ha, rfl⟩
    obtain ⟨c', hc', hsettled⟩ := (settled_foldl_changesOf hreport a.name).1 a hfind
    exact ⟨c'.live, by rw [live?_map_live, hbecome, hc']; rfl, hsettled⟩
  · obtain ⟨c, hc, rfl⟩ := List.mem_map.mp hl
    have hsome : (Database.column? cs' c.name).isSome = true :=
      Keyed.find?_isSome_iff.mpr ⟨c, hc, rfl⟩
    by_contra hother
    obtain ⟨hn, hattribute⟩ := not_or.mp hother
    have hnone := (@settled_foldl_changesOf _ _ cs hreport c.name).2.2 hn
      (Option.not_isSome_iff_eq_none.mp hattribute)
    rw [hbecome, hnone] at hsome
    cases hsome
  · rw [hbecome]
    exact (settled_foldl_changesOf hreport identifier).2.1 rfl

/-- Nothing has to change about a table that has just been created. -/
theorem between_definitions (he : e.Declared) (hreport : ∀ a ∈ e.columns, db.Reports a) :
    between e ((e.definitions.map fun c => db.columnOf c.1 c.2).map Column.live) = [] := by
  have hcolumns : e.definitions.map (fun c => db.columnOf c.1 c.2)
      = db.columnOf identifier "SERIAL PRIMARY KEY"
        :: e.columns.map fun a => ⟨a.name, db.report a.columnType, a.nullable, none⟩ := by
    rw [Entity.definitions, List.map_cons, List.map_map]
    congr 1
    exact List.map_congr_left fun a _ => Database.columnOf_columnDefinition db a
  rw [hcolumns, List.map_cons, List.map_map]
  refine between_eq_nil_iff.mpr ⟨fun a ha => ?_, fun l hl => ?_⟩
  · have hother : a.name ≠ identifier := by
      have hfind := (Keyed.find?_eq_some_iff he.nodup_columns).mpr ⟨ha, rfl⟩
      rw [Entity.find?_columns] at hfind
      intro hn
      rw [if_pos hn] at hfind
      cases hfind
    have hfirst : (db.columnOf identifier "SERIAL PRIMARY KEY").live.field = identifier :=
      Database.name_columnOf _ _
    have hfind : e.columns.find? (·.name == a.name) = some a :=
      (Keyed.find?_eq_some_iff he.nodup_columns).mpr ⟨ha, rfl⟩
    refine ⟨Column.live ⟨a.name, db.report a.columnType, a.nullable, none⟩, ?_,
      alterations_eq_nil_iff.mpr ⟨hreport a ha _ rfl, rfl⟩⟩
    rw [live?, List.find?_cons_of_neg (by simpa [hfirst] using Ne.symm hother), List.find?_map]
    exact congrArg (Option.map _) hfind
  · rcases List.mem_cons.mp hl with rfl | hl
    · exact Or.inl (Database.name_columnOf _ _)
    · obtain ⟨a, ha, rfl⟩ := List.mem_map.mp hl
      refine Or.inr (Keyed.find?_isSome_iff.mpr ⟨a, List.mem_of_mem_filter ha, rfl⟩)

end ColumnChange

end EntityStore
