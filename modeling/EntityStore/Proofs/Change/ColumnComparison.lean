import EntityStore.Proofs.Change.Columns
import EntityStore.Proofs.Keyed.Edits

/-!
# What the comparison of columns finds

The changes of a table's columns are those that are needed, each of them once (`mem_between_iff`,
`nodup_between`). They can be made in the order in which they are listed: what is added is not there,
and what is altered or dropped is. Once they have been made nothing is needed any more
(`exists_run_between`). The order in which the catalog reports the columns decides only about the order
in which columns are dropped (`between_perm`).

How a column is reported that has been added or has been given another type is up to the database. All
that is used of it is what a declared attribute promises (`Reporting`).
-/

set_option autoImplicit false

namespace EntityStore

/-- How the columns of an entity are reported once they have been added by their definition or given
another type: under the type that is expected for the attribute. -/
structure Reporting (e : Entity) where
  added : String → String → LiveColumn
  retyped : String → LiveColumn → LiveColumn
  field_added : ∀ n definition, (added n definition).field = n
  nullable_added : ∀ a ∈ e.columns, (added a.name a.columnDefinition).nullable = a.nullable
  type_added : ∀ a ∈ e.columns,
    Text.sameLetters (added a.name a.columnDefinition).canonicalType a.reportedType = true
  field_retyped : ∀ type l, (retyped type l).field = l.field
  nullable_retyped : ∀ type l, (retyped type l).nullable = l.nullable
  type_retyped : ∀ a ∈ e.columns, ∀ l, l.field = a.name →
    Text.sameLetters (retyped a.columnType l).canonicalType a.reportedType = true

namespace ColumnChange

/-- The changes that are needed for the columns of a table to be as they are declared. -/
inductive Needed (e : Entity) (live : List LiveColumn) : ColumnChange → Prop where
  | add {a : Attribute} : a ∈ e.columns → (∀ l ∈ live, l.field ≠ a.name) →
    Needed e live (.add a.name a.columnDefinition)
  | alterType {a : Attribute} {l : LiveColumn} : a ∈ e.columns → l ∈ live → l.field = a.name →
    Text.sameLetters l.canonicalType a.reportedType = false →
    Needed e live (.alterType a.name a.columnType)
  | setNotNull {a : Attribute} {l : LiveColumn} : a ∈ e.columns → l ∈ live → l.field = a.name →
    l.nullable = true → a.nullable = false → Needed e live (.setNotNull a.name)
  | dropNotNull {a : Attribute} {l : LiveColumn} : a ∈ e.columns → l ∈ live → l.field = a.name →
    l.nullable = false → a.nullable = true → Needed e live (.dropNotNull a.name)
  | drop {l : LiveColumn} : l ∈ live → l.field ≠ identifier → (∀ a ∈ e.attributes, a.name ≠ l.field) →
    Needed e live (.drop l.field)

variable {e : Entity} {live : List LiveColumn} {c : ColumnChange} {n : String}

/-! ## Exactly what is needed -/

theorem mem_between_iff_mem_changesOf (he : e.Declared) (hlive : (live.map (·.field)).Nodup) :
    c ∈ between e live ↔ c ∈ changesOf e live c.column := by
  rw [← filter_between he hlive, List.mem_filter, and_iff_left]
  exact beq_self_eq_true _

theorem mem_alterations_iff {a : Attribute} {l : LiveColumn} :
    c ∈ alterations l a ↔
      (c = .alterType a.name a.columnType ∧ Text.sameLetters l.canonicalType a.reportedType = false)
      ∨ (c = .setNotNull a.name ∧ l.nullable = true ∧ a.nullable = false)
      ∨ (c = .dropNotNull a.name ∧ l.nullable = false ∧ a.nullable = true) := by
  unfold alterations
  rw [List.mem_append]
  refine or_congr ?_ ?_
  · cases Text.sameLetters l.canonicalType a.reportedType <;> simp
  · cases l.nullable <;> cases a.nullable <;> simp

theorem mem_removal?_iff {l : LiveColumn} :
    c ∈ removal? e l ↔ c = .drop l.field ∧ l.field ≠ identifier ∧ ∀ a ∈ e.attributes, a.name ≠ l.field := by
  rw [← Keyed.find?_eq_none_iff, ← Entity.attribute?, removal?]
  by_cases hid : l.field = identifier
  · simp [hid]
  · cases ha : e.attribute? l.field with
    | none => simp [hid, eq_comm]
    | some a => simp

theorem find?_columns_of_mem (he : e.Declared) {a : Attribute} (ha : a ∈ e.columns) :
    e.columns.find? (·.name == a.name) = some a :=
  (Keyed.find?_eq_some_iff he.nodup_columns).mpr ⟨ha, rfl⟩

theorem live?_eq_some_iff (hlive : (live.map (·.field)).Nodup) {l : LiveColumn} :
    live? live n = some l ↔ l ∈ live ∧ l.field = n := Keyed.find?_eq_some_iff hlive

theorem live?_eq_none_iff : live? live n = none ↔ ∀ l ∈ live, l.field ≠ n := Keyed.find?_eq_none_iff

theorem needed_of_mem_changesOf (hlive : (live.map (·.field)).Nodup)
    (h : c ∈ changesOf e live n) : Needed e live c := by
  unfold changesOf at h
  cases ha : e.columns.find? (·.name == n) with
  | none =>
    cases hl : live? live n with
    | none =>
      rw [ha, hl] at h
      cases h
    | some l =>
      rw [ha, hl] at h
      obtain ⟨hmem, -⟩ := (live?_eq_some_iff hlive).mp hl
      obtain ⟨rfl, hid, hother⟩ := mem_removal?_iff.mp (Option.mem_toList.mp h)
      exact .drop hmem hid hother
  | some a =>
    have hdeclared : a ∈ e.columns := List.mem_of_find?_eq_some ha
    obtain rfl : a.name = n := Keyed.key_of_find? ha
    cases hl : live? live a.name with
    | none =>
      rw [ha, hl] at h
      rw [List.mem_singleton.mp h]
      exact .add hdeclared (live?_eq_none_iff.mp hl)
    | some l =>
      rw [ha, hl] at h
      obtain ⟨hmem, hfield⟩ := (live?_eq_some_iff hlive).mp hl
      rcases mem_alterations_iff.mp h with ⟨rfl, htype⟩ | ⟨rfl, hnull, hnull'⟩ | ⟨rfl, hnull, hnull'⟩
      · exact .alterType hdeclared hmem hfield htype
      · exact .setNotNull hdeclared hmem hfield hnull hnull'
      · exact .dropNotNull hdeclared hmem hfield hnull hnull'

theorem mem_changesOf_of_needed (he : e.Declared) (hlive : (live.map (·.field)).Nodup)
    (h : Needed e live c) : c ∈ changesOf e live c.column := by
  -- A change of a column that is there is one of its alterations.
  have halter : ∀ {a l}, a ∈ e.columns → l ∈ live → l.field = a.name → ∀ c ∈ alterations l a,
      c ∈ changesOf e live a.name := by
    intro a l ha hl hfield c hc
    rw [changesOf, find?_columns_of_mem he ha, (live?_eq_some_iff hlive).mpr ⟨hl, hfield⟩]
    exact hc
  cases h with
  | @add a ha hnone =>
    rw [changesOf, column, find?_columns_of_mem he ha, live?_eq_none_iff.mpr hnone]
    exact List.mem_singleton_self _
  | @alterType a l ha hl hfield htype =>
    exact halter ha hl hfield _ (mem_alterations_iff.mpr (.inl ⟨rfl, htype⟩))
  | @setNotNull a l ha hl hfield hnull hnull' =>
    exact halter ha hl hfield _ (mem_alterations_iff.mpr (.inr (.inl ⟨rfl, hnull, hnull'⟩)))
  | @dropNotNull a l ha hl hfield hnull hnull' =>
    exact halter ha hl hfield _ (mem_alterations_iff.mpr (.inr (.inr ⟨rfl, hnull, hnull'⟩)))
  | @drop l hl hid hother =>
    have hnone : e.columns.find? (·.name == l.field) = none := by
      rw [Keyed.find?_eq_none_iff]
      exact fun a ha => hother a (List.mem_of_mem_filter ha)
    rw [changesOf, column, hnone, (live?_eq_some_iff hlive).mpr ⟨hl, rfl⟩]
    exact Option.mem_toList.mpr (mem_removal?_iff.mpr ⟨rfl, hid, hother⟩)

/-- What is found is what is needed. -/
theorem mem_between_iff (he : e.Declared) (hlive : (live.map (·.field)).Nodup) :
    c ∈ between e live ↔ Needed e live c := by
  rw [mem_between_iff_mem_changesOf he hlive]
  exact ⟨needed_of_mem_changesOf hlive, mem_changesOf_of_needed he hlive⟩

theorem nodup_changesOf (e : Entity) (live : List LiveColumn) (n : String) :
    (changesOf e live n).Nodup := by
  unfold changesOf
  split
  · exact List.nodup_singleton _
  · next a l _ _ =>
    unfold alterations
    cases Text.sameLetters l.canonicalType a.reportedType <;> cases l.nullable <;>
      cases a.nullable <;> simp
  · next l _ _ => cases removal? e l <;> simp
  · exact List.nodup_nil

theorem nodup_between (he : e.Declared) (hlive : (live.map (·.field)).Nodup) :
    (between e live).Nodup := by
  rw [List.nodup_iff_count_le_one]
  intro c
  have hcount : (between e live).count c = (changesOf e live c.column).count c := by
    rw [← filter_between he hlive, List.count_filter (by simp)]
  rw [hcount]
  exact List.nodup_iff_count_le_one.mp (nodup_changesOf e live c.column) c

theorem Needed.column_ne_identifier (h : Needed e live c) : c.column ≠ identifier := by
  have hcolumn : ∀ a ∈ e.columns, a.name ≠ identifier := by
    intro a ha
    simpa [Attribute.isIdentifier] using (List.mem_filter.mp ha).2
  cases h with
  | add ha _ | alterType ha _ _ _ | setNotNull ha _ _ _ _ | dropNotNull ha _ _ _ _ => exact hcolumn _ ha
  | drop _ hid _ => exact hid

/-! ## Enough -/

/-- How changes act on the columns of a table. A column can be added if there is none of its name; for
anything else it must be there. -/
def editing (r : Reporting e) : Keyed.Editing LiveColumn ColumnChange where
  key := (·.field)
  target := column
  edit
    | .add n definition, none => some (some (r.added n definition))
    | .alterType _ type, some l => some (some (r.retyped type l))
    | .setNotNull _, some l => some (some { l with nullable := false })
    | .dropNotNull _, some l => some (some { l with nullable := true })
    | .drop _, some _ => some none
    | _, _ => none
  key_of_edit := by
    intro c found b hfound h
    cases found with
    | none =>
      cases c <;> cases h
      exact r.field_added _ _
    | some l =>
      have hfield := hfound l rfl
      cases c <;> cases h
      · exact (r.field_retyped _ _).trans hfield
      · exact hfield
      · exact hfield

/-- Whether a change fits the columns of a table: what it adds is not there, and what else it is about
is there. -/
def Fits (live : List LiveColumn) : ColumnChange → Prop
  | .add n _ => ∀ l ∈ live, l.field ≠ n
  | .alterType n _ | .setNotNull n | .dropNotNull n | .drop n => ∃ l ∈ live, l.field = n

theorem fits_of_edit {r : Reporting e} {x : Option LiveColumn}
    (h : (editing r).edit c ((editing r).find? live c.column) = some x) : c.Fits live := by
  have hfind : (editing r).find? live c.column = live? live c.column := rfl
  rw [hfind] at h
  cases hl : live? live c.column with
  | none =>
    rw [hl] at h
    cases c <;> cases h
    exact live?_eq_none_iff.mp hl
  | some l =>
    rw [hl] at h
    have hfound : ∃ l ∈ live, l.field = c.column :=
      ⟨l, List.mem_of_find?_eq_some hl, Keyed.key_of_find? hl⟩
    cases c <;> cases h
    all_goals exact hfound

/-- The changes of a column that is there can be made, and then it is as declared. -/
theorem foldlM_alterations (r : Reporting e) {a : Attribute} (ha : a ∈ e.columns) {l : LiveColumn}
    (hl : l.field = a.name) :
    ∃ l', (alterations l a).foldlM (fun found c => (editing r).edit c found) (some l) = some (some l')
      ∧ alterations l' a = [] := by
  -- The nullability has no part in the type, so it can be settled afterwards.
  have hnull : ∀ l₁ : LiveColumn, Text.sameLetters l₁.canonicalType a.reportedType = true →
      ∃ l', (alterations l₁ a).foldlM (fun found c => (editing r).edit c found) (some l₁)
          = some (some l') ∧ alterations l' a = [] := by
    intro l₁ htype
    refine ⟨{ l₁ with nullable := a.nullable }, ?_, alterations_eq_nil_iff.mpr ⟨htype, rfl⟩⟩
    unfold alterations
    rw [if_pos htype]
    obtain ⟨field, type, nullable, default, length, precision, scale⟩ := l₁
    cases nullable <;> cases a.nullable <;> rfl
  by_cases htype : Text.sameLetters l.canonicalType a.reportedType = true
  · exact hnull l htype
  · have hretyped := r.type_retyped a ha l hl
    have hfirst : alterations l a
        = .alterType a.name a.columnType :: alterations (r.retyped a.columnType l) a := by
      unfold alterations
      rw [if_neg htype, if_pos hretyped, r.nullable_retyped]
      rfl
    rw [hfirst]
    exact hnull _ hretyped

/-- What there is under a name once it has been changed. -/
def Agrees (e : Entity) (n : String) (found : Option LiveColumn) : Prop :=
  (∀ a, e.columns.find? (·.name == n) = some a → ∃ l, found = some l ∧ alterations l a = [])
    ∧ (n ≠ identifier → e.attribute? n = none → found = none)

theorem exists_fate (he : e.Declared) (hlive : (live.map (·.field)).Nodup) (r : Reporting e)
    (n : String) : ∃ found,
      (editing r).fate (between e live) n ((editing r).find? live n) = some found ∧ Agrees e n found := by
  have hchanges : (between e live).filter ((editing r).target · == n) = changesOf e live n :=
    filter_between he hlive n
  have hfound : (editing r).find? live n = live? live n := rfl
  rw [Keyed.Editing.fate, hchanges, hfound, changesOf]
  cases ha : e.columns.find? (·.name == n) with
  | none =>
    have hnone : ∀ a, e.columns.find? (·.name == n) ≠ some a := by simp [ha]
    cases hl : live? live n with
    | none => exact ⟨none, rfl, fun a h => absurd h (hnone a), fun _ _ => rfl⟩
    | some l =>
      obtain rfl : l.field = n := Keyed.key_of_find? hl
      change ∃ found, (removal? e l).toList.foldlM (fun found c => (editing r).edit c found) (some l)
        = some found ∧ Agrees e l.field found
      -- What is not dropped is the identifier, because nothing is declared here.
      cases hr : removal? e l with
      | none =>
        refine ⟨some l, rfl, fun a h => absurd h (hnone a), fun hid hother => ?_⟩
        have hdropped : ColumnChange.drop l.field ∈ removal? e l :=
          mem_removal?_iff.mpr ⟨rfl, hid, Keyed.find?_eq_none_iff.mp hother⟩
        rw [hr] at hdropped
        cases hdropped
      | some c =>
        obtain ⟨rfl, -, -⟩ := mem_removal?_iff.mp hr
        exact ⟨none, rfl, fun a h => absurd h (hnone a), fun _ _ => rfl⟩
  | some a =>
    have hdeclared : a ∈ e.columns := List.mem_of_find?_eq_some ha
    have hname : a.name = n := Keyed.key_of_find? ha
    have hattribute : ∀ found : Option LiveColumn, e.attribute? n = none → found = none := by
      intro found hnone
      rw [attribute?_of_find?_columns ha] at hnone
      cases hnone
    cases hl : live? live n with
    | none =>
      refine ⟨some (r.added a.name a.columnDefinition), rfl, fun b hb => ⟨_, rfl, ?_⟩,
        fun _ => hattribute _⟩
      cases ha.symm.trans hb
      exact alterations_eq_nil_iff.mpr ⟨r.type_added a hdeclared, r.nullable_added a hdeclared⟩
    | some l =>
      have hfield : l.field = a.name := (Keyed.key_of_find? hl).trans hname.symm
      obtain ⟨l', hrun, hagrees⟩ := foldlM_alterations r hdeclared hfield
      refine ⟨some l', hrun, fun b hb => ⟨l', rfl, ?_⟩, fun _ => hattribute _⟩
      cases ha.symm.trans hb
      exact hagrees

/-- The changes can be made one after the other, and then nothing is left to change. -/
theorem exists_run_between (he : e.Declared) (hlive : (live.map (·.field)).Nodup) (r : Reporting e) :
    ∃ after, (between e live).foldlM (editing r).after? live = some after
      ∧ (after.map (·.field)).Nodup ∧ between e after = [] := by
  obtain ⟨after, hrun, hnodup, hagrees⟩ :=
    Keyed.Editing.exists_run hlive (exists_fate he hlive r)
  refine ⟨after, hrun, hnodup, between_eq_nil_iff.mpr ⟨fun a ha => ?_, fun l hl => ?_⟩⟩
  · exact (hagrees a.name).1 a (find?_columns_of_mem he ha)
  · by_contra hother
    obtain ⟨hid, hattribute⟩ := not_or.mp hother
    have hnone := (hagrees l.field).2 hid (Option.not_isSome_iff_eq_none.mp hattribute)
    exact live?_eq_none_iff.mp hnone l hl rfl

/-! ## In any order -/

/-- If the columns are reported in another order, the same columns are dropped in another order, and all
else is the same. -/
theorem between_perm (e : Entity) (hlive : (live.map (·.field)).Nodup) {live' : List LiveColumn}
    (hp : live'.Perm live) :
    ∃ kept drops drops', between e live = kept ++ drops ∧ between e live' = kept ++ drops'
      ∧ (∀ n, .drop n ∉ kept) ∧ (∀ c ∈ drops, ∃ n, c = .drop n) ∧ drops'.Perm drops := by
  have hfound : ∀ n, live? live' n = live? live n := fun n => Keyed.find?_perm hp hlive
  have hadd : addition? live' = addition? live := by
    funext a
    rw [addition?, hfound, ← addition?]
  have halter : alterationsIn live' = alterationsIn live := by
    funext a
    rw [alterationsIn, hfound, ← alterationsIn]
  refine ⟨_, _, _, rfl, by rw [between, hadd, halter], fun n hn => ?_, fun c hc => ?_,
    hp.filterMap (removal? e)⟩
  · rcases List.mem_append.mp hn with hn | hn
    · obtain ⟨a, -, ha⟩ := List.mem_filterMap.mp hn
      unfold addition? at ha
      split at ha <;> cases ha
    · obtain ⟨a, -, ha⟩ := List.mem_flatMap.mp hn
      unfold alterationsIn at ha
      split at ha
      · rcases mem_alterations_iff.mp ha with ⟨h, -⟩ | ⟨h, -⟩ | ⟨h, -⟩ <;> cases h
      · cases ha
  · obtain ⟨l, -, hl⟩ := List.mem_filterMap.mp hc
    obtain ⟨rfl, -, -⟩ := mem_removal?_iff.mp hl
    exact ⟨l.field, rfl⟩

/-- The comparison of the columns of a table with their declaration finds what is needed and nothing
else, each change once and none about the identifier. The changes can be made in their order, and then
there is nothing left to change. The order in which the columns are reported decides only about the
order in which columns are dropped. -/
theorem between_exact_and_enough (he : e.Declared) (hlive : (live.map (·.field)).Nodup) :
    (between e live).Nodup
      ∧ (∀ c, c ∈ between e live ↔ Needed e live c)
      ∧ (∀ c ∈ between e live, c.column ≠ "id")
      ∧ (∀ r : Reporting e,
          (∃ after, (between e live).foldlM (editing r).after? live = some after ∧ between e after = [])
            ∧ ∀ before c rest, between e live = before ++ c :: rest →
              ∃ now, before.foldlM (editing r).after? live = some now ∧ c.Fits now)
      ∧ ∀ live' : List LiveColumn, live'.Perm live → ∃ kept drops drops',
          between e live = kept ++ drops ∧ between e live' = kept ++ drops'
            ∧ (∀ n, .drop n ∉ kept) ∧ (∀ c ∈ drops, ∃ n, c = .drop n) ∧ drops'.Perm drops := by
  refine ⟨nodup_between he hlive, fun c => mem_between_iff he hlive, fun c hc => ?_, fun r => ?_,
    fun live' hp => between_perm e hlive hp⟩
  · exact ((mem_between_iff he hlive).mp hc).column_ne_identifier
  · obtain ⟨after, hrun, -, hempty⟩ := exists_run_between he hlive r
    refine ⟨⟨after, hrun, hempty⟩, fun before c rest hsplit => ?_⟩
    rw [hsplit] at hrun
    obtain ⟨now, hbefore, x, hx⟩ := Keyed.Editing.exists_turn hrun
    exact ⟨now, hbefore, fits_of_edit hx⟩

end ColumnChange

/-! ## Columns that are reported as expected -/

theorem LiveColumn.canonicalType_of_unsized (field type : String) (nullable : Bool)
    (default : Option String) :
    canonicalType ⟨field, type, nullable, default, none, none, none⟩ = type := by
  simp [canonicalType]

/-- Columns that are reported under the very type that is expected for them. -/
def Reporting.expected (e : Entity) (he : e.Declared) : Reporting e where
  added n _ :=
    match e.columns.find? (·.name == n) with
    | some a => ⟨n, a.reportedType, a.nullable, none, none, none, none⟩
    | none => ⟨n, "", true, none, none, none, none⟩
  retyped _ l :=
    match e.columns.find? (·.name == l.field) with
    | some a => ⟨l.field, a.reportedType, l.nullable, l.default, none, none, none⟩
    | none => l
  field_added n definition := by
    split <;> rfl
  nullable_added a ha := by
    rw [ColumnChange.find?_columns_of_mem he ha]
  type_added a ha := by
    rw [ColumnChange.find?_columns_of_mem he ha, LiveColumn.canonicalType_of_unsized]
    exact Text.sameLetters_self _
  field_retyped type l := by
    split <;> rfl
  nullable_retyped type l := by
    split <;> rfl
  type_retyped a ha l hl := by
    rw [hl, ColumnChange.find?_columns_of_mem he ha, LiveColumn.canonicalType_of_unsized]
    exact Text.sameLetters_self _

namespace ColumnChange

/-- An entity with columns to be added, altered and left as they are. -/
def post : Entity :=
  .declare "post" none [{ Attribute.plain "title" .string with nullable := false },
    { Attribute.plain "ratio" (.number .float) with size := some 10 }, .plain "author" (.number .integer),
    .plain "body" .text] []

/-- Its table, with a column that is not declared. -/
def oldPost : List LiveColumn :=
  [⟨"id", "integer", false, none, none, some 32, some 0⟩, ⟨"legacy", "varchar", true, none, none, none, none⟩,
    ⟨"title", "text", true, none, none, none, none⟩, ⟨"ratio", "REAL", true, none, none, some 24, none⟩,
    ⟨"author", "integer", false, none, none, some 32, some 0⟩]

/-- The title is given its type and its constraint, and the author loses one. -/
theorem between_oldPost_enough :
    (oldPost.map (·.field)).Nodup
      ∧ between post oldPost = [.add "body" "text", .alterType "title" "varchar", .setNotNull "title",
          .dropNotNull "author", .drop "legacy"]
      ∧ (∀ c, c ∈ between post oldPost ↔ Needed post oldPost c)
      ∧ ∃ after, (between post oldPost).foldlM
          (editing (Reporting.expected post ⟨_, _, _, _, rfl⟩)).after? oldPost = some after
        ∧ between post after = [] := by
  have hnodup : (oldPost.map (·.field)).Nodup := by decide
  obtain ⟨-, hneeded, -, hrun, -⟩ := between_exact_and_enough (e := post) ⟨_, _, _, _, rfl⟩ hnodup
  exact ⟨hnodup, by decide, hneeded, (hrun _).1⟩

end ColumnChange

end EntityStore
