import EntityStore.Proofs.Database.Rows
import EntityStore.Proofs.Ddl.Reading

/-!
# Statements say what the comparison found

The comparison of a declaration with a table gives a list of changes, and the list is written down as
text. Taken apart by the rules of the query language, the text gives back the changes: every one of them,
in their order, each about the name it is about and nothing else (`statements_read_back`). Names may hold
commas, quotes, points, brackets and keywords. Only an access method is not quoted. It must be a word, and
as all words it is read in lower case.

This is about what a text is read as. That a database has names of limited length only, and refuses an
empty one, is no matter of reading.
-/

set_option autoImplicit false

namespace EntityStore

/-- A column as a statement creates it. -/
inductive NewColumn where
  /-- A counting column that is the primary key. -/
  | key (name : String)
  | typed (name type : String) (nullable : Bool)
  deriving DecidableEq

/-- A column from its name and the text of its definition. -/
def NewColumn.ofDefinition (name definition : String) : NewColumn :=
  if definition = "SERIAL PRIMARY KEY" then .key name
  else
    let (type, nullable) := Database.splitDefinition definition
    .typed name type nullable

/-- A change with its access method as words are read, in lower case. -/
def SchemaChange.folded : SchemaChange → SchemaChange
  | .createIndex table unique name method columns =>
    .createIndex table unique name (method.map Text.lower) columns
  | c => c

/-- The name of a table with its schema in front of it. -/
def TableRef.dotted : TableRef → String
  | (some schema, table) => schema ++ "." ++ table
  | (none, table) => table

theorem Entity.dotted_tableParts (e : Entity) : TableRef.dotted e.tableParts = e.table := by
  unfold Entity.tableParts
  cases h : Text.aroundLast '.' e.table.toList with
  | none => rfl
  | some found =>
    obtain ⟨schema, table⟩ := found
    have happend := Text.append_of_aroundLast h
    rw [← String.toList_inj, ← happend]
    simp [TableRef.dotted]

namespace Ddl

open Sql

/-! ## Reading without a semicolon -/

/-- What a text changes. -/
def said? (sql : String) : Option SchemaChange := (tokens sql.toList).bind change?

/-- The table that a text creates, and its columns. -/
def created? (sql : String) : Option (TableRef × List NewColumn) :=
  match said? sql with
  | some (.createTable table columns) =>
    some (table, columns.map fun column => .ofDefinition column.1 column.2)
  | _ => none

/-- Whether a text is a word, in any letter case. -/
def isWord (text : String) : Bool := isKeyword text (Text.lower text)

theorem Says.said? {sql : String} {c : SchemaChange} (h : Says sql c) : Ddl.said? sql = some c := by
  obtain ⟨ts, hl, hts⟩ := h
  rw [Ddl.said?, hl.tokens_eq, Option.bind_some, hts]

/-- No type is written as the key's definition is. -/
theorem ofDefinition_columnDefinition (a : Attribute) :
    NewColumn.ofDefinition a.name a.columnDefinition = .typed a.name a.columnType a.nullable := by
  have hne : a.columnDefinition ≠ "SERIAL PRIMARY KEY" := by
    intro heq
    have hsplit := Database.splitDefinition_columnDefinition a
    rw [heq] at hsplit
    obtain ⟨c, cs, hcs, hc⟩ := a.columnType_eq_cons
    have htype : a.columnType = "SERIAL PRIMARY KEY" := (congrArg Prod.fst hsplit).symm
    rw [htype] at hcs
    exact hc (List.cons.inj hcs).1.symm
  rw [NewColumn.ofDefinition, if_neg hne, Database.splitDefinition_columnDefinition]

theorem created?_createTable (e : Entity) : created? e.createTable = some (e.tableParts,
    .key identifier :: e.columns.map fun a => .typed a.name a.columnType a.nullable) := by
  rw [created?, (says_createTable e).said?]
  simp only [Entity.definitions, List.map_cons, List.map_map]
  refine congrArg (fun columns => some (e.tableParts, NewColumn.key identifier :: columns)) ?_
  apply List.map_congr_left
  intro a _
  exact ofDefinition_columnDefinition a

theorem says_indexChange {e : Entity} {live : List LiveIndex}
    (hm : ∀ i ∈ e.indexes, i.isConstraint = false → ∀ method ∈ i.method, isWord method = true)
    {c : IndexChange} (hc : c ∈ IndexChange.between e live) : Says c.text (c.request e).folded := by
  rcases of_mem_between hc with ⟨i, hi, rfl⟩ | ⟨name, constraint, rfl⟩
  · rw [IndexChange.request]
    cases hconstraint : i.isConstraint with
    | true => exact says_addConstraint e hconstraint
    | false => exact says_createIndex e hconstraint (hm i hi hconstraint)
  · rw [IndexChange.request]
    cases constraint with
    | true => exact says_dropConstraint e name
    | false => exact says_dropIndex e name

/-! ## All statements -/

/-- Whatever is found about the table of an entity, the statements about it are read as saying that. -/
structure ReadBack (e : Entity) : Prop where
  /-- Every statement is about a table by its two parts. -/
  table : TableRef.dotted e.tableParts = e.table
  /-- Nothing is said about columns if nothing is to be changed. -/
  unaltered : ∀ live, e.alterTable? (ColumnChange.between e live) = none ↔
    ColumnChange.between e live = []
  altered : ∀ live sql, e.alterTable? (ColumnChange.between e live) = some sql →
    said? sql = some (.alterTable e.tableParts (ColumnChange.between e live))
  created : created? e.createTable = some (e.tableParts,
    .key identifier :: e.columns.map fun a => .typed a.name a.columnType a.nullable)
  indexes : ∀ live, ∀ c ∈ IndexChange.between e live, said? c.text = some (c.request e).folded

/-- The statements about the table of an entity are read as what was found, if the access methods of
indexes that are no constraints are words. -/
theorem statements_read_back (e : Entity)
    (hm : ∀ i ∈ e.indexes, i.isConstraint = false → ∀ method ∈ i.method, isWord method = true) :
    ReadBack e where
  table := e.dotted_tableParts
  unaltered _ := Entity.alterTable?_eq_none_iff
  altered _ _ h := (says_alterTable (fun _ => proper_of_mem_between) h).said?
  created := created?_createTable e
  indexes _ _ hc := (says_indexChange hm hc).said?

/-- A table whose names are written to be mistaken for something else. -/
def disguised : Entity :=
  .declare "note" (some "my.\"own\".no, te")
    [{ Attribute.plain "a\" integer, DROP COLUMN \"b" .string with size := some 10, nullable := false },
      .plain "id.title NOT NULL" .date]
    [⟨"i\" ON \"t", .plain, some "GIN", ["a,b", ")"]⟩, ⟨"k;", .unique, none, []⟩]

/-- Its statements say what they should. -/
theorem disguised_read_back :
    (∀ i ∈ disguised.indexes, i.isConstraint = false → ∀ method ∈ i.method, isWord method = true)
      ∧ created? disguised.createTable = some ((some "my.\"own\"", "no, te"),
        [.key "id", .typed "a\" integer, DROP COLUMN \"b" "varchar(10)" false,
          .typed "id.title NOT NULL" "timestamp with time zone" true])
      ∧ (IndexChange.between disguised []).map (said? ·.text) =
        [some (.createIndex (some "my.\"own\"", "no, te") false "i\" ON \"t" (some "gin") ["a,b", ")"]),
          some (.addConstraint (some "my.\"own\"", "no, te") "k;" [])] := by
  have hm : ∀ i ∈ disguised.indexes, i.isConstraint = false → ∀ method ∈ i.method,
      isWord method = true := by decide
  have hback := statements_read_back disguised hm
  refine ⟨hm, ?_, ?_⟩
  · rw [hback.created]
    rfl
  · have hindexes := List.map_congr_left (hback.indexes [])
    rw [hindexes]
    rfl

end Ddl

end EntityStore
