import EntityStore.Proofs.Change.Indexes
import EntityStore.Proofs.Keyed.Edits

/-!
# What the changes of indexes lead to

The changes of a table's indexes are statements of their own, so between any two of them there is a
state that must let the next one through: an index is created when its name is free, and dropped when it
is there, as a constraint if and only if a constraint stands behind it. Creations come first, and a
replaced index is dropped just before it is created again, so this is a matter of each name by itself.
Once all changes have been made the indexes are the declared ones, and those that were as declared before
have not been touched (`between_clean_and_enough`).
-/

set_option autoImplicit false

namespace EntityStore

/-- How an index is reported that has been made as declared. -/
def Index.live (i : Index) : LiveIndex := ⟨i.name, i.isUnique, i.isConstraint, i.columns⟩

namespace IndexChange

variable {e : Entity} {live : List LiveIndex} {c : IndexChange} {n : String}

theorem not_differs_live (i : Index) : differs i i.live = false := not_differs_iff.mpr ⟨rfl, rfl⟩

/-! ## One change -/

/-- How changes act on the indexes of a table. -/
def editing : Keyed.Editing LiveIndex IndexChange where
  key := (·.name)
  target := index
  edit
    | .create _ i, none => some (some i.live)
    | .drop _ _ constraint, some l => if l.constraint = constraint then some none else none
    | _, _ => none
  key_of_edit := by
    intro c found b hfound h
    cases c with
    | create table i =>
      cases found <;> cases h
      rfl
    | drop table name constraint =>
      cases found with
      | none => cases h
      | some l =>
        simp only at h
        split at h <;> cases h

/-- Whether a change fits the indexes of a table: what it creates has a name that is free, and what it
drops is there and is dropped as what it is. -/
def Fits (live : List LiveIndex) : IndexChange → Prop
  | .create _ i => ∀ l ∈ live, l.name ≠ i.name
  | .drop table n constraint => ∃ l ∈ live, l.name = n
    ∧ (IndexChange.drop table n constraint).text
      = if l.constraint then "ALTER TABLE " ++ table ++ " DROP CONSTRAINT " ++ Sql.quoteIdentifier n
        else "DROP INDEX " ++ Sql.schemaPart table ++ Sql.quoteIdentifier n

theorem fits_of_edit {x : Option LiveIndex}
    (h : editing.edit c (editing.find? live c.index) = some x) : c.Fits live := by
  have hfind : editing.find? live c.index = live? live c.index := rfl
  rw [hfind] at h
  cases hl : live? live c.index with
  | none =>
    rw [hl] at h
    cases c <;> cases h
    exact Keyed.find?_eq_none_iff.mp hl
  | some l =>
    rw [hl] at h
    cases c with
    | create table i => cases h
    | drop table name constraint =>
      have hconstraint : l.constraint = constraint := by
        by_contra hne
        rw [show editing.edit (.drop table name constraint) (some l) = none from if_neg hne] at h
        cases h
      refine ⟨l, List.mem_of_find?_eq_some hl, Keyed.key_of_find? hl, ?_⟩
      rw [hconstraint]
      rfl

/-! ## All changes -/

theorem mem_between_iff_mem_changesOf (he : e.Declared) (hlive : (live.map (·.name)).Nodup) :
    c ∈ between e live ↔ c ∈ changesOf e live c.index := by
  rw [← filter_between he hlive, List.mem_filter, and_iff_left]
  exact beq_self_eq_true _

/-- An index under the name of a declared one is touched exactly if it differs from it. -/
theorem touched_iff {i : Index} {l : LiveIndex} (he : e.Declared) (hi : i ∈ e.indexes)
    (hlive : (live.map (·.name)).Nodup) (hl : l ∈ live) (hname : l.name = i.name) :
    (∃ c ∈ between e live, c.index = i.name) ↔ differs i l = true := by
  have hdeclared : e.index? i.name = some i := (Keyed.find?_eq_some_iff he.nodup_indexes).mpr ⟨hi, rfl⟩
  have hfound : live? live i.name = some l := (Keyed.find?_eq_some_iff hlive).mpr ⟨hl, hname⟩
  have hchanges : changesOf e live i.name
      = if differs i l then [.drop e.quotedTable i.name l.constraint, .create e.quotedTable i] else [] := by
    rw [changesOf, hdeclared, hfound]
  constructor
  · rintro ⟨c, hc, hindex⟩
    rw [mem_between_iff_mem_changesOf he hlive, hindex, hchanges] at hc
    by_contra hsame
    rw [if_neg hsame] at hc
    cases hc
  · intro hdiffers
    refine ⟨.create e.quotedTable i, ?_, rfl⟩
    rw [mem_between_iff_mem_changesOf he hlive]
    change _ ∈ changesOf e live i.name
    rw [hchanges, if_pos hdiffers]
    exact List.mem_cons_of_mem _ List.mem_cons_self

/-- What there is under a name once it has been changed: a declared index that is as declared, and is as
it was if it was as declared before. -/
def Agrees (e : Entity) (live : List LiveIndex) (n : String) (found : Option LiveIndex) : Prop :=
  (∀ i, e.index? n = some i → ∃ l, found = some l ∧ differs i l = false
      ∧ ∀ l₀, live? live n = some l₀ → differs i l₀ = false → l₀ = l)
    ∧ (e.index? n = none → found = none)

theorem exists_fate (he : e.Declared) (hlive : (live.map (·.name)).Nodup) (n : String) :
    ∃ found, editing.fate (between e live) n (editing.find? live n) = some found
      ∧ Agrees e live n found := by
  have hchanges : (between e live).filter (editing.target · == n) = changesOf e live n :=
    filter_between he hlive n
  have hfound : editing.find? live n = live? live n := rfl
  have hdrop : ∀ l : LiveIndex, editing.edit (.drop e.quotedTable n l.constraint) (some l) = some none :=
    fun l => if_pos rfl
  rw [Keyed.Editing.fate, hchanges, hfound]
  unfold changesOf Agrees
  cases e.index? n with
  | none =>
    cases live? live n with
    | none => exact ⟨none, rfl, by rintro i ⟨⟩, fun _ => rfl⟩
    | some l =>
      refine ⟨none, ?_, by rintro i ⟨⟩, fun _ => rfl⟩
      rw [List.foldlM_cons, hdrop]
      rfl
  | some i =>
    cases live? live n with
    | none =>
      refine ⟨some i.live, rfl, ?_, by rintro ⟨⟩⟩
      rintro _ ⟨⟩
      exact ⟨_, rfl, not_differs_live i, by rintro l₀ ⟨⟩⟩
    | some l =>
      -- An index that differs is dropped first, so its name is free when it is created again.
      cases hdiffers : differs i l with
      | false =>
        refine ⟨some l, ?_, ?_, by rintro ⟨⟩⟩
        · simp only [hdiffers, Bool.false_eq_true, if_false]
          rfl
        · rintro _ ⟨⟩
          exact ⟨l, rfl, hdiffers, by rintro l₀ ⟨⟩ _; rfl⟩
      | true =>
        refine ⟨some i.live, ?_, ?_, by rintro ⟨⟩⟩
        · simp only [hdiffers, if_true]
          rw [List.foldlM_cons, hdrop]
          rfl
        · rintro _ ⟨⟩
          refine ⟨_, rfl, not_differs_live i, ?_⟩
          rintro l₀ ⟨⟩ hsame
          cases hdiffers.symm.trans hsame

/-- The changes can be made one after the other, and each name agrees with the declaration then. -/
theorem exists_run_between (he : e.Declared) (hlive : (live.map (·.name)).Nodup) :
    ∃ after, (between e live).foldlM editing.after? live = some after
      ∧ (after.map (·.name)).Nodup ∧ ∀ n, Agrees e live n (live? after n) :=
  Keyed.Editing.exists_run hlive (exists_fate he hlive)

theorem perm_names_of_agrees {after : List LiveIndex} (he : e.Declared)
    (hafter : (after.map (·.name)).Nodup) (h : ∀ n, Agrees e live n (live? after n)) :
    (after.map (·.name)).Perm (e.indexes.map (·.name)) := by
  refine (List.perm_ext_iff_of_nodup hafter he.nodup_indexes).mpr fun n => ?_
  have hsome : (live? after n).isSome = (e.index? n).isSome := by
    cases hi : e.index? n with
    | none =>
      rw [(h n).2 hi]
      rfl
    | some i =>
      obtain ⟨l, hl, -⟩ := (h n).1 i hi
      rw [hl]
      rfl
  have hafter' : n ∈ after.map (·.name) ↔ (live? after n).isSome = true := by
    rw [live?, Keyed.find?_isSome_iff, List.mem_map]
  have hdeclared : n ∈ e.indexes.map (·.name) ↔ (e.index? n).isSome = true := by
    rw [Entity.index?, Keyed.find?_isSome_iff, List.mem_map]
  rw [hafter', hdeclared, hsome]

/-- The changes of the indexes of a table can be made in their order, each fitting the indexes as they
are when its turn comes. Then the indexes are the declared ones, with the declared columns and
uniqueness, and nothing is left to change. An index that was as declared is not touched. -/
theorem between_clean_and_enough (he : e.Declared) (hlive : (live.map (·.name)).Nodup) :
    (∃ after, (between e live).foldlM editing.after? live = some after
        ∧ (after.map (·.name)).Perm (e.indexes.map (·.name))
        ∧ (∀ i ∈ e.indexes, ∃ l ∈ after, l.name = i.name
          ∧ l.columns.map Text.trim = i.columns.map Text.trim ∧ l.unique = i.isUnique)
        ∧ between e after = []
        ∧ ∀ i ∈ e.indexes, ∀ l ∈ live, l.name = i.name → differs i l = false →
          l ∈ after ∧ ∀ c ∈ between e live, c.index ≠ i.name)
      ∧ ∀ before c rest, between e live = before ++ c :: rest →
        ∃ now, before.foldlM editing.after? live = some now ∧ c.Fits now := by
  obtain ⟨after, hrun, hafter, hagrees⟩ := exists_run_between he hlive
  have hdeclared : ∀ i ∈ e.indexes, e.index? i.name = some i :=
    fun i hi => (Keyed.find?_eq_some_iff he.nodup_indexes).mpr ⟨hi, rfl⟩
  -- Every part is about what is found under one name after the run, and `hagrees` says that.
  refine ⟨⟨after, hrun, perm_names_of_agrees he hafter hagrees, fun i hi => ?_, ?_, ?_⟩, ?_⟩
  · obtain ⟨l, hl, hsame, -⟩ := (hagrees i.name).1 i (hdeclared i hi)
    exact ⟨l, List.mem_of_find?_eq_some hl, Keyed.key_of_find? hl, not_differs_iff.mp hsame⟩
  · refine between_eq_nil_iff.mpr ⟨fun i hi => ?_, fun l hl => ?_⟩
    · obtain ⟨l, hl, hsame, -⟩ := (hagrees i.name).1 i (hdeclared i hi)
      exact ⟨l, hl, hsame⟩
    · by_contra hother
      have hnone := (hagrees l.name).2 (Option.not_isSome_iff_eq_none.mp hother)
      exact Keyed.find?_eq_none_iff.mp hnone l hl rfl
  · intro i hi l hl hname hsame
    have hfound : live? live i.name = some l := (Keyed.find?_eq_some_iff hlive).mpr ⟨hl, hname⟩
    obtain ⟨l', hl', -, hkept⟩ := (hagrees i.name).1 i (hdeclared i hi)
    refine ⟨?_, fun c hc hindex => ?_⟩
    · rw [hkept l hfound hsame]
      exact List.mem_of_find?_eq_some hl'
    · have htouched := (touched_iff he hi hlive hl hname).mp ⟨c, hc, hindex⟩
      cases hsame.symm.trans htouched
  · intro before c rest hsplit
    rw [hsplit] at hrun
    obtain ⟨now, hbefore, x, hx⟩ := Keyed.Editing.exists_turn hrun
    exact ⟨now, hbefore, fits_of_edit hx⟩

/-- An entity with an index to be created, one to be replaced and one to be left as it is. -/
def post : Entity :=
  .declare "post" none [.plain "title" .string, { Attribute.plain "slug" .string with unique := true }]
    [⟨"post_title_idx", .plain, some "gin", ["title"]⟩, ⟨"post_both", .unique, none, ["slug", "title"]⟩]

/-- The indexes of its table, one of them not declared. -/
def oldPost : List LiveIndex :=
  [⟨"post_old_key", true, true, ["title"]⟩, ⟨"post_both", true, true, ["title", "slug"]⟩,
    ⟨"post_title_idx", false, false, [" title"]⟩]

/-- What is not declared is dropped last, and an index with a blank before a name is left alone. -/
theorem between_oldPost_clean :
    (oldPost.map (·.name)).Nodup
      ∧ between post oldPost = [.create "\"post\"" ⟨"post_slug_key", .unique, none, ["slug"]⟩,
          .drop "\"post\"" "post_both" true, .create "\"post\"" ⟨"post_both", .unique, none, ["slug", "title"]⟩,
          .drop "\"post\"" "post_old_key" true]
      ∧ ∃ after, (between post oldPost).foldlM editing.after? oldPost = some after
        ∧ (after.map (·.name)).Perm (post.indexes.map (·.name)) ∧ between post after = []
        ∧ ⟨"post_title_idx", false, false, [" title"]⟩ ∈ after := by
  have hnodup : (oldPost.map (·.name)).Nodup := by decide
  obtain ⟨⟨after, hrun, hnames, -, hempty, hkept⟩, -⟩ :=
    between_clean_and_enough (e := post) ⟨_, _, _, _, rfl⟩ hnodup
  refine ⟨hnodup, by decide, after, hrun, hnames, hempty, ?_⟩
  exact (hkept ⟨"post_title_idx", .plain, some "gin", ["title"]⟩ (by decide) _ (by decide) rfl
    (by decide)).1

end IndexChange

end EntityStore
