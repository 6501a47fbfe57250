import EntityStore.Proofs.Dml.Upsert
import EntityStore.Proofs.Sql.Values

/-!
# Defaults in an upsert

A column that the table counts up itself is given its default where the record has nothing for it,
and the word for that is understood in the values of an insertion and in an assignment, but not in a
list that is selected. An upsert inserts what it selects. So it matters when the word gets into such
a list: exactly if the record has a field of such a column with a value that counts as nothing
(`selectsDefault_iff`). The identifier is counted up too, but it is never given its default, because
it names the row.
-/

set_option autoImplicit false

namespace EntityStore.Dml

open Sql

/-- Whether a text selects the default of a column: one of its statements inserts what it selects,
and among that is the word for a default. -/
def SelectsDefault (text : String) : Prop :=
  ∃ statements table columns cells other condition, read text = some statements
    ∧ .insertUnless table columns cells other condition ∈ statements ∧ Cell.default ∈ cells

theorem default_mem_iff {values : List (Attribute × Value)} {entries : List (String × Cell)}
    (h : List.Forall₂ Carries values entries) : Cell.default ∈ entries.map Prod.snd
      ↔ ∃ a v, (a, v) ∈ values ∧ a.autoIncrement = true ∧ v.absentFor a.type = true := by
  induction h with
  | nil => simp
  | @cons field entry values entries hfirst _ ih =>
    obtain ⟨a, v⟩ := field
    have hcell : Cell.default = entry.2 ↔ a.autoIncrement = true ∧ v.absentFor a.type = true := by
      rw [← storing_eq_default_iff, hfirst.cell, Except.ok.injEq, eq_comm]
    rw [List.map_cons, List.mem_cons, ih, hcell]
    constructor
    · rintro (hhere | ⟨b, w, hmem, hthere⟩)
      · exact ⟨a, v, List.mem_cons_self, hhere⟩
      · exact ⟨b, w, List.mem_cons_of_mem _ hmem, hthere⟩
    · rintro ⟨b, w, hmem, hpair⟩
      obtain heq | hmem := List.mem_cons.mp hmem
      · cases heq
        exact .inl hpair
      · exact .inr ⟨b, w, hmem, hpair⟩

theorem selectsDefault_of_read {text : String} {table : TableRef} {id : Constant}
    {entries : List (String × Cell)} (h : read text = some (upsertion table id entries)) :
    SelectsDefault text ↔ Cell.default ∈ entries.map Prod.snd := by
  constructor
  · rintro ⟨statements, table', columns, cells, other, condition, hread, hmem, hdefault⟩
    cases h.symm.trans hread
    -- An update is no insertion, so what is selected is the identifier and the cells of the record.
    have hcells : cells = .constant id :: entries.map Prod.snd := by
      rw [upsertion, List.mem_append, List.mem_singleton] at hmem
      obtain hupdate | hinsert := hmem
      · split at hupdate
        · cases hupdate
        · cases List.mem_singleton.mp hupdate
      · cases hinsert
        rfl
    rw [hcells] at hdefault
    obtain hidentifier | hdefault := List.mem_cons.mp hdefault
    · cases hidentifier
    · exact hdefault
  · intro hdefault
    exact ⟨_, _, _, _, _, _, h, List.mem_append_right _ (List.mem_singleton.mpr rfl),
      List.mem_cons_of_mem _ hdefault⟩

/-- An upsert selects a default exactly if the record has nothing for a declared column that the table
counts up. -/
theorem selectsDefault_iff {e : Entity} {r : Record} {text : String}
    (h : Sql.upsert e r = .ok text) : SelectsDefault text
      ↔ ∃ a v, (a, v) ∈ declared e r.fields ∧ a.autoIncrement = true ∧ v.absentFor a.type = true := by
  obtain ⟨id, k, entries, -, -, hentries, hread⟩ := read_upsert h
  rw [selectsDefault_of_read hread]
  exact default_mem_iff hentries.carried

/-- Counters that may be given a number and otherwise get one. -/
def counter : Entity :=
  .declare "counter" none
    [{ Attribute.plain "seq" (.number .integer) with autoIncrement := true }] []

/-- A counter with a number, which may be zero. -/
def numbered : Record := .ofFields [("id", .int 1), ("seq", .int 0)]

/-- A counter that is to get a number. -/
def unnumbered : Record := .ofFields [("id", .int 1), ("seq", .null)]

theorem upsert_numbered_selects_no_default :
    ∃ text, Sql.upsert counter numbered = .ok text ∧ ¬ SelectsDefault text := by
  obtain ⟨text, htext⟩ : ∃ text, Sql.upsert counter numbered = .ok text := ⟨_, rfl⟩
  refine ⟨text, htext, fun h => ?_⟩
  obtain ⟨a, v, hmem, -, habsent⟩ := (selectsDefault_iff htext).mp h
  cases List.mem_singleton.mp hmem
  cases habsent

theorem upsert_unnumbered_selects_default :
    ∃ text, Sql.upsert counter unnumbered = .ok text ∧ SelectsDefault text := by
  obtain ⟨text, htext⟩ : ∃ text, Sql.upsert counter unnumbered = .ok text := ⟨_, rfl⟩
  obtain ⟨id, k, entries, -, -, hentries, hread⟩ := read_upsert htext
  refine ⟨text, htext, ?_⟩
  rw [selectsDefault_of_read hread, default_mem_iff hentries.carried]
  exact ⟨_, .null, List.mem_cons_self, rfl, rfl⟩

end EntityStore.Dml
