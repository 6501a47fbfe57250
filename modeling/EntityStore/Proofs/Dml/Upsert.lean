import EntityStore.Proofs.Dml.Reading
import EntityStore.Proofs.Keyed

/-!
# Update or insert

An upsert is two statements: one updates the row of the identifier, and one inserts it unless it is
there. They are run one after the other, so the second one looks for the row in what the first has
left. Run on tables that have a row for each identifier, they come to one thing: the row is there
with the fields of the record, and everything else is as it was (`upsert_puts_row`).
-/

set_option autoImplicit false

namespace EntityStore

open Sql

deriving instance DecidableEq for Constant

namespace Dml

/-! ## Running statements -/

/-- A row, by what is in each of its columns. -/
abbrev StoredRow := String → Constant

/-- What tables hold: a row, or none, for each table and identifier. -/
abbrev Contents := TableRef → Constant → Option StoredRow

/-- What a cell puts into a column with a default. -/
def valueOf (default : Constant) : Cell → Constant
  | .default => default
  | .constant c => c

def setColumns (defaults : StoredRow) (entries : List (String × Cell)) (row : StoredRow) : StoredRow :=
  fun column =>
    match entries.find? (·.1 == column) with
    | some entry => valueOf (defaults column) entry.2
    | none => row column

/-- The same with another row in one place. -/
def Contents.put (s : Contents) (table : TableRef) (id : Constant) (row : StoredRow) : Contents :=
  fun t k => if t = table ∧ k = id then some row else s t k

/-- The identifier of the one row that a condition can mean. -/
def named? : Formula Atom → Option Constant
  | .atom (.compare .equal column c) => if column = identifier then some c else none
  | _ => none

/-- Adds a row with some columns set. It must not have the identifier of another one. -/
def add (defaults : StoredRow) (s : Contents) (table : TableRef) (entries : List (String × Cell)) :
    Option Contents :=
  let row := setColumns defaults entries defaults
  match s table (row identifier) with
  | some _ => none
  | none => some (s.put table (row identifier) row)

/-- Runs a statement, if it does not fail. Columns must be distinct and have a cell each, a
condition must name a row by its identifier, and no row is given another identifier. -/
def run (defaults : TableRef → StoredRow) (s : Contents) : RowStatement → Option Contents
  | .insertDefaults table => add (defaults table) s table []
  | .insert table columns cells =>
    if columns.Nodup ∧ columns.length = cells.length then
      add (defaults table) s table (columns.zip cells)
    else none
  | .insertUnless table columns cells other condition =>
    if columns.Nodup ∧ columns.length = cells.length then do
      let id ← named? condition
      match s other id with
      | some _ => some s
      | none => add (defaults table) s table (columns.zip cells)
    else none
  | .update table assignments condition =>
    if (identifier :: assignments.map Prod.fst).Nodup then do
      let id ← named? condition
      match s table id with
      | some row => some (s.put table id (setColumns (defaults table) assignments row))
      | none => some s
    else none

def runAll (defaults : TableRef → StoredRow) (s : Contents) (statements : List RowStatement) :
    Option Contents :=
  statements.foldlM (run defaults) s

/-- Whether a row is another one with exactly these columns set. -/
structure Sets (defaults : StoredRow) (entries : List (String × Cell)) (row row' : StoredRow) :
    Prop where
  set : ∀ column cell, (column, cell) ∈ entries → row' column = valueOf (defaults column) cell
  others : ∀ column, column ∉ entries.map Prod.fst → row' column = row column

section Sets

variable {defaults row : StoredRow} {entries : List (String × Cell)}

theorem setColumns_of_mem {column : String} {cell : Cell} (h : (entries.map Prod.fst).Nodup)
    (hmem : (column, cell) ∈ entries) :
    setColumns defaults entries row column = valueOf (defaults column) cell := by
  have hfind : entries.find? (·.1 == column) = some (column, cell) :=
    (Keyed.find?_eq_some_iff h).mpr ⟨hmem, rfl⟩
  rw [setColumns, hfind]

theorem sets_setColumns (h : (entries.map Prod.fst).Nodup) :
    Sets defaults entries row (setColumns defaults entries row) where
  set _ _ hmem := setColumns_of_mem h hmem
  others column hcolumn := by
    have hfind : entries.find? (·.1 == column) = none := by
      rw [Keyed.find?_eq_none_iff]
      rintro entry hentry rfl
      exact hcolumn (List.mem_map_of_mem hentry)
    rw [setColumns, hfind]

end Sets

/-! ## An upsert -/

/-- What an upsert says: which row is updated, unless there is nothing to set, and then inserted. -/
def upsertion (table : TableRef) (id : Constant) (entries : List (String × Cell)) :
    List RowStatement :=
  (if entries.isEmpty then [] else [.update table entries (.atom (.compare .equal identifier id))])
    ++ [.insertUnless table (identifier :: entries.map Prod.fst)
      (.constant id :: entries.map Prod.snd) table (.atom (.compare .equal identifier id))]

theorem named?_identifier (id : Constant) :
    named? (.atom (.compare .equal identifier id)) = some id := by
  rw [named?, if_pos rfl]

theorem put_eq_some (s : Contents) (table : TableRef) (id : Constant) (row : StoredRow) :
    s.put table id row table id = some row := if_pos ⟨rfl, rfl⟩

theorem put_of_eq_some {s : Contents} {table : TableRef} {id : Constant} {row : StoredRow}
    (h : s table id = some row) : s.put table id row = s := by
  funext t k
  by_cases hplace : t = table ∧ k = id
  · rw [Contents.put, if_pos hplace, hplace.1, hplace.2, h]
  · rw [Contents.put, if_neg hplace]

section Run

variable {defaults : TableRef → StoredRow} {s : Contents} {table : TableRef} {id : Constant}
  {entries : List (String × Cell)} (hdistinct : (identifier :: entries.map Prod.fst).Nodup)

include hdistinct

theorem run_update :
    run defaults s (.update table entries (.atom (.compare .equal identifier id)))
      = some (match s table id with
        | some row => s.put table id (setColumns (defaults table) entries row)
        | none => s) := by
  rw [run, if_pos hdistinct, named?_identifier]
  cases hrow : s table id <;> simp [hrow]

theorem run_insertUnless :
    run defaults s (.insertUnless table (identifier :: entries.map Prod.fst)
        (.constant id :: entries.map Prod.snd) table (.atom (.compare .equal identifier id)))
      = some (match s table id with
        | some _ => s
        | none => s.put table id (setColumns (defaults table) ((identifier, .constant id) :: entries)
          (defaults table))) := by
  have hzip : (entries.map Prod.fst).zip (entries.map Prod.snd) = entries := by
    rw [← List.unzip_fst, ← List.unzip_snd, List.zip_unzip]
  have hkeys : (((identifier, Cell.constant id) :: entries).map Prod.fst).Nodup := hdistinct
  have hid : setColumns (defaults table) ((identifier, .constant id) :: entries) (defaults table)
      identifier = id := setColumns_of_mem hkeys List.mem_cons_self
  rw [run, if_pos ⟨hdistinct, by simp⟩, named?_identifier]
  cases hrow : s table id <;> simp [hrow, add, hzip, hid]

/-- Whether or not the row was there, it is there in the end, and nothing else is touched. -/
theorem runAll_upsertion : runAll defaults s (upsertion table id entries)
    = some (s.put table id (match s table id with
      | some row => setColumns (defaults table) entries row
      | none => setColumns (defaults table) ((identifier, .constant id) :: entries)
        (defaults table))) := by
  have hinsert := fun s : Contents => @run_insertUnless defaults s table id entries hdistinct
  have hupdate := @run_update defaults s table id entries hdistinct
  rw [runAll, upsertion]
  cases hempty : entries.isEmpty with
  | true =>
    -- Without an update a row that is there must have been the result already.
    obtain rfl := List.isEmpty_iff.mp hempty
    rw [if_pos rfl, List.nil_append, List.foldlM_cons, hinsert]
    cases hrow : s table id with
    | none => rfl
    | some row => exact congrArg some (put_of_eq_some hrow).symm
  | false =>
    -- The insertion looks at what the update has left: the row is there if it was before.
    rw [if_neg Bool.false_ne_true, List.singleton_append, List.foldlM_cons, hupdate,
      Option.bind_eq_bind, Option.bind_some, List.foldlM_cons, hinsert]
    cases hrow : s table id with
    | none => simp only [hrow]; rfl
    | some row => simp only [put_eq_some]; rfl

end Run

theorem read_upsert {e : Entity} {r : Record} {text : String} (h : Sql.upsert e r = .ok text) :
    ∃ id k entries, r.id? = some id ∧ Identifies e id k ∧ EntriesOf e r entries
      ∧ read text = some (upsertion e.tableParts k entries) := by
  unfold upsert at h
  cases hid : r.id? with
  | none =>
    rw [hid] at h
    cases h
  | some id =>
    rw [hid] at h
    obtain ⟨_, hsame, h⟩ := bind_eq_ok_iff.mp h
    cases hsame
    obtain ⟨tail, htail, h⟩ := bind_eq_ok_iff.mp h
    obtain ⟨written, hwritten, h⟩ := bind_eq_ok_iff.mp h
    obtain ⟨key, hkey, h⟩ := bind_eq_ok_iff.mp h
    obtain ⟨literal, hliteral, rfl⟩ := tail_of_identifierTail htail
    cases hkey.symm.trans hliteral
    obtain ⟨k, hk, hwrittenKey⟩ := identifies_of_identifierLiteral hkey
    obtain ⟨entries, hentries, hfields⟩ := entriesOf_of_fieldsOf hwritten
    refine ⟨id, k, entries, rfl, hk, hentries, ?_⟩
    -- The text of the key stands in three places and denotes the same constant in each.
    have hcondition := isEntry_condition identifier hwrittenKey
    have hinserted : List.Forall₂ IsField (⟨identifier, key⟩ :: written)
        ((identifier, .constant k) :: entries) := .cons ⟨rfl, hwrittenKey.isEntry⟩ hfields
    have hinsert := @isStatement_insertUnless e _ _ _ hinserted (List.cons_ne_nil _ _) _ _ hcondition
      rfl
    rw [List.map_cons, List.map_cons] at hinsert
    cases h
    rw [isEmpty_of_isField hfields, upsertion]
    cases hempty : entries.isEmpty with
    | true =>
      have hread := read_of_isStatement hinsert
      simpa only [if_true, List.nil_append, String.append_assoc, String.empty_append] using hread
    | false =>
      have hne : entries ≠ [] := by simpa using hempty
      have hupdate := @isStatement_update e _ _ _ hfields hne _ _ hcondition rfl
      have hread := read_of_isStatement₂ hupdate hinsert
      simpa only [Bool.false_eq_true, if_false, List.singleton_append, String.append_assoc] using hread

/-- An upsert, whenever it can be written, is read as statements about one row and about the same
one throughout. Run on any tables they succeed and leave everything but that row as it was. If the
row was there, the declared fields of the record are set in it and the other columns are kept; if
not, it is there with the identifier, these fields, and defaults in all other columns. -/
theorem upsert_puts_row (defaults : TableRef → StoredRow) (s : Contents) {e : Entity} {r : Record}
    {text : String} (h : Sql.upsert e r = .ok text) :
    ∃ id k entries row, r.id? = some id ∧ Identifies e id k ∧ EntriesOf e r entries
      ∧ read text = some (upsertion e.tableParts k entries)
      ∧ runAll defaults s (upsertion e.tableParts k entries) = some (s.put e.tableParts k row)
      ∧ (∀ old, s e.tableParts k = some old → Sets (defaults e.tableParts) entries old row)
      ∧ (s e.tableParts k = none → Sets (defaults e.tableParts)
        ((identifier, .constant k) :: entries) (defaults e.tableParts) row) := by
  obtain ⟨id, k, entries, hid, hk, hentries, hread⟩ := read_upsert h
  have hdistinct : (((identifier, Cell.constant k) :: entries).map Prod.fst).Nodup :=
    List.nodup_cons.mpr ⟨hentries.others, hentries.distinct⟩
  refine ⟨id, k, entries, _, hid, hk, hentries, hread, runAll_upsertion hdistinct, ?_, ?_⟩
  · intro old hold
    rw [hold]
    exact sets_setColumns hentries.distinct
  · intro hnone
    rw [hnone]
    exact sets_setColumns hdistinct

/-- The record becomes a row of a table that had none. What the table counts up is left to it. -/
theorem upsert_puts_hostile :
    let defaults : TableRef → StoredRow := fun _ column =>
      if column = "position" then .number 1 else .null
    ∃ text s, Sql.upsert numberedNote hostile = .ok text
      ∧ (read text).bind (runAll defaults fun _ _ => none) = some s
      ∧ (s (none, "note") (.number 7)).map (fun row => ["id", "title", "position"].map row)
        = some [.number 7, .text "'); DROP TABLE note; '", .number 1] := by
  intro defaults
  obtain ⟨id, k, entries, row, hid, hk, hentries, hread, hrun, -, hnew⟩ :=
    @upsert_puts_row defaults (fun _ _ => none) numberedNote hostile _ rfl
  have hsets := hnew rfl
  obtain rfl := entries_hostile hentries
  cases hid
  obtain ⟨a, ha, hcomparand⟩ := hk.value
  cases ha
  cases hcomparand
  refine ⟨_, _, rfl, by rw [hread, Option.bind_some, hrun], ?_⟩
  have hid := hsets.set "id" _ (.head _)
  have htitle := hsets.set "title" _ (.tail _ (.head _))
  have hposition := hsets.set "position" _ (.tail _ (.tail _ (.head _)))
  refine (congrArg (Option.map _) (put_eq_some _ _ _ _)).trans ?_
  simp only [Option.map_some, List.map_cons, List.map_nil, hid, htitle, hposition]
  rfl

end Dml

end EntityStore
