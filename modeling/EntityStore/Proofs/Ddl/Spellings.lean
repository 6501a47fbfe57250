import EntityStore.Proofs.Ddl.Reading

/-!
# One table, many spellings

Statements name a table by the quoted parts of its name. The catalog is asked for it by two constants, one
for its schema and one for its own name, or by one constant that holds the quoted name. An index is named
in the schema of its table, which is found in the text of the quoted name. Each of them takes the name apart
in a way of its own, and all come to the same segments, whatever quotes and points are in the name
(`spellings_agree`).

Lists of names are read back as well, so no two lists and no two names are written alike.
-/

set_option autoImplicit false

namespace EntityStore

namespace Sql

/-! ## Reading names back -/

/-- Names with a mark between each two. -/
def namesBetween? (mark : Char) : List Token → Option (List String)
  | [.identifier name] => some [name]
  | .identifier name :: .mark c :: ts =>
    if c = mark then (namesBetween? mark ts).map (name :: ·) else none
  | _ => none

/-- The quoted names that a text consists of, with a mark between each two. An empty text has none. -/
def quotedNames? (mark : Char) (text : String) : Option (List String) :=
  match tokens text.toList with
  | some [] => some []
  | some ts => namesBetween? mark ts
  | none => none

theorem namesBetween?_intercalate (mark : Char) {names : List String} (hne : names ≠ []) :
    namesBetween? mark ([.mark mark].intercalate (names.map fun name => [.identifier name]))
      = some names := by
  induction names with
  | nil => exact absurd rfl hne
  | cons name names ih =>
    cases names with
    | nil => rfl
    | cons next names =>
      have hrest := ih (List.cons_ne_nil _ _)
      simp only [List.map_cons, List.intercalate_cons_cons, List.cons_append, List.nil_append]
        at hrest ⊢
      rw [namesBetween?, if_pos rfl, hrest]
      rfl

theorem quotedNames?_of_tokens {mark : Char} {text : String} {names : List String}
    (h : tokens text.toList
      = some ([.mark mark].intercalate (names.map fun name => [.identifier name]))) :
    quotedNames? mark text = some names := by
  rw [quotedNames?, h]
  cases names with
  | nil => rfl
  | cons name names =>
    have hnames := namesBetween?_intercalate mark (List.cons_ne_nil name names)
    cases names <;> exact hnames

theorem quotedNames?_quoteQualified (name : String) :
    quotedNames? '.' (quoteQualified name) = some (Text.pieces '.' name) :=
  quotedNames?_of_tokens (lexes_quoteQualified name).tokens_eq

theorem quotedNames?_quoteColumns (names : List String) :
    quotedNames? ',' (quoteColumns names) = some names :=
  quotedNames?_of_tokens (Ddl.lexes_quoteColumns names).tokens_eq

theorem quoteQualified_injective : Function.Injective quoteQualified := by
  intro name other h
  have hpieces : some (Text.pieces '.' name) = some (Text.pieces '.' other) := by
    rw [← quotedNames?_quoteQualified, ← quotedNames?_quoteQualified, h]
  rw [← Text.intercalate_pieces '.' name, Option.some.inj hpieces, Text.intercalate_pieces]

theorem quoteColumns_injective : Function.Injective quoteColumns := by
  intro names others h
  have hsame := quotedNames?_quoteColumns names
  rw [h, quotedNames?_quoteColumns] at hsame
  exact (Option.some.inj hsame).symm

/-- A name is written as a list of one name is. -/
theorem quoteIdentifier_injective : Function.Injective quoteIdentifier := by
  intro name other h
  have hlists : quoteColumns [name] = quoteColumns [other] := by
    simp only [quoteColumns, List.map_cons, List.map_nil, h]
  exact List.singleton_inj.mp (quoteColumns_injective hlists)

/-! ## The schema -/

/-- The text in front of an index is the quoted schema of its table with a point, if there is one. -/
theorem schemaPart_quoteQualified (name : String) : schemaPart (quoteQualified name)
    = if (Text.pieces '.' name).dropLast = [] then ""
      else ".".intercalate ((Text.pieces '.' name).dropLast.map quoteIdentifier) ++ "." := by
  have happend := schemaPart_append name ""
  split
  · next hnone =>
    rw [hnone, List.nil_append, List.map_singleton, String.intercalate_singleton] at happend
    exact String.append_eq_right_iff.mp happend
  · next hsome =>
    have hquoted : (Text.pieces '.' name).dropLast.map quoteIdentifier ≠ [] :=
      mt List.map_eq_nil_iff.mp hsome
    rw [List.map_append, List.map_singleton, intercalate_concat hquoted] at happend
    exact (String.append_left_inj _).mp happend

end Sql

open Sql

namespace Ddl

/-! ## The query for indexes -/

/-- The text of a constant that stands between two texts. -/
def constantBetween? (start last cs : List Char) : Option String := do
  let (_, cs) ← Scan.exactly start cs
  let (text, cs) ← constant? cs
  let (_, cs) ← Scan.exactly last cs
  if cs.isEmpty then some text else none

/-- The text of the constant in a query for indexes. It is the name of a table as a statement has it. -/
def indexedName? (cs : List Char) : Option String :=
  constantBetween? indexesQueryStart.toList indexesQueryEnd.toList cs

theorem constantBetween?_append {start cs last : List Char} {text : String}
    (h : constant? (cs ++ last) = some (text, last)) :
    constantBetween? start last (start ++ (cs ++ last)) = some text := by
  have hlast := exactly_append last []
  rw [List.append_nil] at hlast
  rw [constantBetween?, exactly_append]
  simp only [Option.bind_eq_bind, Option.bind_some, h, hlast]
  rfl

theorem indexedName?_indexesQuery (e : Entity) :
    indexedName? (Catalog.indexesQuery e).toList = some e.quotedTable := by
  rw [indexesQuery_eq, String.toList_append, String.toList_append]
  exact constantBetween?_append (constant?_indexesQuery e)

end Ddl

/-! ## All of them -/

/-- The name of a table is taken apart at each of its points, and only there: by the reader of a quoted
name, by the query for columns, and by the search for a schema in the quoted name. The query for indexes
holds the quoted name itself. -/
theorem spellings_agree (e : Entity) :
    let segments := Text.pieces '.' e.table
    let schemas := segments.dropLast
    quotedNames? '.' e.quotedTable = some segments
      ∧ e.tableParts = (if schemas = [] then none else some (".".intercalate schemas),
        segments.getLast (pieces_ne_nil _))
      ∧ schemaPart e.quotedTable
        = (if schemas = [] then "" else ".".intercalate (schemas.map quoteIdentifier) ++ ".")
      ∧ Ddl.columnsQuery? (Catalog.columnsQuery e).toList = some e.tableParts
      ∧ Ddl.indexedName? (Catalog.indexesQuery e).toList = some e.quotedTable
      ∧ (∀ names, quotedNames? ',' (quoteColumns names) = some names)
      ∧ Function.Injective quoteIdentifier
      ∧ Function.Injective quoteQualified
      ∧ Function.Injective quoteColumns := by
  intro segments schemas
  have hparts : e.tableParts = (if schemas = [] then none else some (".".intercalate schemas),
      segments.getLast (pieces_ne_nil _)) := by
    rw [← qualified_pieces, qualified, List.getLast?_eq_some_getLast (pieces_ne_nil _),
      Option.getD_some]
  exact ⟨quotedNames?_quoteQualified e.table, hparts, schemaPart_quoteQualified e.table,
    Ddl.columnsQuery?_columnsQuery e, Ddl.indexedName?_indexesQuery e, quotedNames?_quoteColumns,
    quoteIdentifier_injective, quoteQualified_injective, quoteColumns_injective⟩

end EntityStore
