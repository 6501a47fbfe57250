import EntityStore.Proofs.Database.Basic

/-!
# What the catalog's rows are read as

The database reports a column or an index as a row and the reader makes a description of it. Every
row is read, so a table is known with all its columns and indexes. Of an index the columns come as
one text with commas in it: names that hold no comma are read back, but for the blanks around them.
-/

set_option autoImplicit false

namespace EntityStore

/-! ## Columns -/

/-- A size as it is read: what does not fit into 32 bits is no size. -/
def readCount (n : Option Nat) : Option Nat := n.filter (· ≤ Numeral.maxNat32)

/-- A column as it is read from its row. -/
def Column.live (c : Column) : LiveColumn where
  field := c.name
  type := declaredTypeName c.type.name
  nullable := c.nullable
  default := c.default
  length := readCount c.type.length
  precision := readCount c.type.precision
  scale := readCount c.type.scale

theorem count?_countCell {row : Row} {key : String} {n : Option Nat}
    (h : row.lookup key = some (Database.countCell n)) : row.count? key = readCount n := by
  unfold Row.count?
  rw [h]
  cases n with
  | none => rfl
  | some n => simp [Database.countCell, readCount, Option.filter]

theorem LiveColumn.ofRow?_columnRow (c : Column) : ofRow? (Database.columnRow c) = some c.live := by
  have hlength : (Database.columnRow c).count? "Length" = readCount c.type.length :=
    count?_countCell rfl
  have hprecision : (Database.columnRow c).count? "Precision" = readCount c.type.precision :=
    count?_countCell rfl
  have hscale : (Database.columnRow c).count? "Scale" = readCount c.type.scale :=
    count?_countCell rfl
  have hdefault : (Database.columnRow c).text? "Default" = c.default := by
    rcases c with ⟨name, type, nullable, _ | text⟩ <;> rfl
  have hnull : (Database.columnRow c).text? "Null" = some (if c.nullable then "YES" else "NO") := rfl
  have hnullable : Text.sameLetters (if c.nullable then "YES" else "NO") "YES" = c.nullable := by
    cases c.nullable <;> decide
  have hfield : (Database.columnRow c).text? "Field" = some c.name := rfl
  have htype : (Database.columnRow c).text? "Type" = some c.type.name := rfl
  unfold ofRow?
  simp only [hfield, htype, hnull, hnullable, hdefault, hlength, hprecision, hscale]
  rfl

theorem LiveColumn.ofRows_map_columnRow (cs : List Column) :
    ofRows (cs.map Database.columnRow) = cs.map Column.live := by
  unfold ofRows
  rw [List.filterMap_map, ← List.filterMap_eq_map]
  congr 1
  funext c
  exact ofRow?_columnRow c

/-! ## Indexes -/

def TableIndex.live (i : TableIndex) : LiveIndex where
  name := i.name
  unique := i.unique
  constraint := i.constraint
  columns := (Text.pieces ',' (",".intercalate i.columns)).map Text.trim

theorem LiveIndex.ofRows_map_indexRow (is : List TableIndex) :
    ofRows (is.map Database.indexRow) = is.map TableIndex.live := by
  unfold ofRows
  rw [List.filterMap_map, ← List.filterMap_eq_map]
  rfl

/-- A text put together from names with commas between them is cut at the commas in the names as well. -/
theorem Text.pieces_intercalate_eq_flatMap {names : List String} (hne : names ≠ []) :
    pieces ',' (",".intercalate names) = names.flatMap (pieces ',') := by
  have hchars : (",".intercalate names).toList = [','].intercalate (names.map String.toList) :=
    String.toList_intercalate
  rw [pieces, hchars]
  clear hchars
  induction names with
  | nil => exact absurd rfl hne
  | cons name rest ih =>
    cases rest with
    | nil => simp [pieces]
    | cons next rest =>
      have hcut : [','].intercalate ((name :: next :: rest).map String.toList)
          = name.toList ++ ',' :: [','].intercalate ((next :: rest).map String.toList) := by
        simp only [List.map_cons, List.intercalate_cons_cons, List.append_assoc, List.singleton_append]
      rw [hcut, List.splitOn_append_cons_self, List.map_append, ih (List.cons_ne_nil _ _)]
      rfl

theorem Text.pieces_of_notMem {mark : Char} {s : String} (h : mark ∉ s.toList) :
    pieces mark s = [s] := by
  rw [pieces, List.splitOn_eq_singleton h, List.map_singleton, String.ofList_toList]

theorem Text.flatMap_pieces {mark : Char} {names : List String}
    (h : ∀ name ∈ names, mark ∉ name.toList) : names.flatMap (pieces mark) = names := by
  have hwhole : names.map (pieces mark) = names.map fun name => [name] :=
    List.map_congr_left fun name hname => pieces_of_notMem (h name hname)
  rw [List.flatMap_def, hwhole, ← List.flatMap_def, List.flatMap_singleton']

theorem Text.pieces_intercalate {names : List String} (hne : names ≠ [])
    (hcomma : ∀ name ∈ names, ',' ∉ name.toList) :
    pieces ',' (",".intercalate names) = names := by
  rw [pieces_intercalate_eq_flatMap hne, flatMap_pieces hcomma]

/-- What is left at the front once blanks are cut off is not blank, whatever is cut off behind. -/
theorem Text.trimLeft_of_front {cs ds : List Char} (h : ds <+: trimLeft cs) : trimLeft ds = ds := by
  cases ds with
  | nil => rfl
  | cons d ds =>
    obtain ⟨rest, hrest⟩ := h
    have hhead := List.head?_dropWhile_not isBlank cs
    rw [trimLeft, List.cons_append] at hrest
    rw [← hrest] at hhead
    rw [trimLeft, List.dropWhile_cons_of_neg (by simpa using hhead)]

theorem Text.trim_trim (s : String) : trim (trim s) = trim s := by
  have hright : ∀ cs, trimRight (trimRight cs) = trimRight cs := by
    intro cs
    unfold trimRight
    rw [List.reverse_reverse]
    have h := @trimLeft_of_front cs.reverse _ List.prefix_rfl
    rw [trimLeft, trimLeft] at h
    rw [h]
  have hfront : trimRight (trimLeft s.toList) <+: trimLeft s.toList := by
    unfold trimRight
    rw [← List.reverse_suffix, List.reverse_reverse]
    exact List.dropWhile_suffix _
  have hboth : trimBoth (trimBoth s.toList) = trimBoth s.toList := by
    unfold trimBoth
    rw [trimLeft_of_front hfront, hright]
  have hchars : ∀ t, (trim t).toList = trimBoth t.toList := fun _ => String.toList_ofList
  rw [← String.toList_inj, hchars, hchars, hboth]

theorem Text.map_trim_map_trim (names : List String) :
    (names.map trim).map trim = names.map trim := by
  rw [List.map_map]
  exact List.map_congr_left fun name _ => trim_trim name

/-- An index is as declared if it covers the same columns, blanks around their names apart, and is unique
if the declared one is. -/
theorem IndexChange.not_differs_iff {i : Index} {l : LiveIndex} :
    differs i l = false ↔ l.columns.map Text.trim = i.columns.map Text.trim ∧ l.unique = i.isUnique := by
  rw [differs, Bool.or_eq_false_iff, bne_eq_false_iff_eq, bne_eq_false_iff_eq]
  exact and_congr eq_comm eq_comm

/-- An index over comma-free columns is read as the one that was declared. -/
theorem IndexChange.differs_eq_false {declared : Index} {i : TableIndex}
    (hne : declared.columns ≠ []) (hcomma : ∀ name ∈ declared.columns, ',' ∉ name.toList)
    (hcolumns : i.columns = declared.columns) (hunique : i.unique = declared.isUnique) :
    differs declared i.live = false := by
  refine not_differs_iff.mpr ⟨?_, hunique⟩
  rw [TableIndex.live, hcolumns, Text.pieces_intercalate hne hcomma, Text.map_trim_map_trim]

/-! ## Column definitions -/

namespace Attribute

variable (a : Attribute)

/-- A column type begins with a small letter. -/
theorem columnType_eq_cons : ∃ c cs, a.columnType.toList = c :: cs ∧ c ≠ 'S' := by
  unfold columnType
  cases a.type with
  | number kind =>
    cases kind <;> exact ⟨_, _, by rw [String.toList_append]; rfl, by decide⟩
  | date | boolean =>
    dsimp only
    exact ⟨_, _, rfl, by decide⟩
  | string | text | json | array =>
    exact ⟨_, _, by rw [String.toList_append]; rfl, by decide⟩

/-- A column type ends with a small letter or a bracket. -/
theorem columnType_eq_append : ∃ cs c, a.columnType.toList = cs ++ [c] ∧ c ≠ 'L' := by
  have hsize : ∀ (cs : List Char) (c : Char), c ≠ 'L' →
      ∃ ds d, cs ++ [c] ++ a.sizeSuffix.toList = ds ++ [d] ∧ d ≠ 'L' := by
    intro cs c hc
    unfold sizeSuffix
    cases a.size with
    | none => exact ⟨cs, c, List.append_nil _, hc⟩
    | some n =>
      refine ⟨cs ++ [c] ++ ("(" ++ Numeral.ofNat n).toList, ')', ?_, by decide⟩
      rw [String.toList_append, ← List.append_assoc]
      rfl
  unfold columnType
  cases a.type with
  | number kind =>
    cases kind <;> (rw [String.toList_append])
    · exact hsize "intege".toList 'r' (by decide)
    · exact hsize "floa".toList 't' (by decide)
    · exact hsize "numeri".toList 'c' (by decide)
  | date =>
    dsimp only
    exact ⟨"timestamp with time zon".toList, 'e', rfl, by decide⟩
  | boolean =>
    dsimp only
    exact ⟨"boolea".toList, 'n', rfl, by decide⟩
  | text =>
    rw [String.toList_append]
    exact hsize "tex".toList 't' (by decide)
  | string | json | array =>
    rw [String.toList_append]
    exact hsize "varcha".toList 'r' (by decide)

end Attribute

namespace Database

theorem splitDefinition_columnDefinition (a : Attribute) :
    splitDefinition a.columnDefinition = (a.columnType, a.nullable) := by
  unfold splitDefinition Attribute.columnDefinition
  cases a.nullable with
  | true =>
    obtain ⟨cs, c, hcs, hc⟩ := a.columnType_eq_append
    have hsuffix : " NOT NULL".toList.isSuffixOf a.columnType.toList = false := by
      rw [Bool.eq_false_iff, Ne, List.isSuffixOf_iff_suffix, hcs]
      rintro ⟨ds, hds⟩
      have hlast : ds ++ " NOT NUL".toList ++ ['L'] = cs ++ [c] := by
        rw [← hds, List.append_assoc]
        rfl
      exact hc (List.cons.inj (List.append_inj' hlast rfl).2).1.symm
    simp only [if_true, hsuffix, Bool.false_eq_true, if_false]
  | false =>
    have hsuffix : " NOT NULL".toList.isSuffixOf (a.columnType ++ " NOT NULL").toList = true := by
      rw [List.isSuffixOf_iff_suffix, String.toList_append]
      exact List.suffix_append _ _
    simp only [Bool.false_eq_true, if_false, hsuffix, if_true]
    rw [String.toList_append, List.length_append, Nat.add_sub_cancel, List.take_left',
      String.ofList_toList]
    rfl

theorem columnOf_columnDefinition (db : Database) (a : Attribute) :
    db.columnOf a.name a.columnDefinition = ⟨a.name, db.report a.columnType, a.nullable, none⟩ := by
  have hserial : "SERIAL".toList.isPrefixOf a.columnDefinition.toList = false := by
    obtain ⟨c, cs, hcs, hc⟩ := a.columnType_eq_cons
    have hdefinition : ∃ ds, a.columnDefinition.toList = c :: ds := by
      unfold Attribute.columnDefinition
      split
      · exact ⟨cs, hcs⟩
      · exact ⟨cs ++ " NOT NULL".toList, by rw [String.toList_append, hcs]; rfl⟩
    obtain ⟨ds, hds⟩ := hdefinition
    rw [hds]
    have hne : ('S' == c) = false := beq_eq_false_iff_ne.mpr hc.symm
    simp [List.isPrefixOf, hne]
  rw [columnOf, hserial, splitDefinition_columnDefinition]
  rfl

/-! ## Answers -/

variable {db : Database} {e : Entity} {s s' : Tables}

theorem executor_columnsQuery (he : Understands db.read e) (s : Tables) :
    db.executor s (Catalog.columnsQuery e)
      = (.ok (((s.columns (db.tableOf e)).getD []).map columnRow), s) := by
  unfold executor
  rw [he.columns]
  rfl

theorem executor_indexesQuery (he : Understands db.read e) {cs : List Column}
    (hcs : s.columns (db.tableOf e) = some cs) :
    db.executor s (Catalog.indexesQuery e)
      = (.ok ((s.indexesOf (db.tableOf e)).map indexRow), s) := by
  have hcs' : s.columns (db.resolve e.tableParts) = some cs := hcs
  unfold executor
  rw [he.indexes]
  simp only [answer, hcs']
  rfl

/-- A change that was answered without an error has been made. -/
theorem perform_of_executor {sql : String} {c : SchemaChange} {rows : List Row}
    (hread : db.read sql = some (.change c)) (h : db.executor s sql = (.ok rows, s')) :
    db.perform s c = .ok s' := by
  unfold executor at h
  rw [hread] at h
  simp only [answer] at h
  have hchange : db.change s c = .ok s' := by
    cases hc : db.change s c with
    | ok s'' =>
      rw [hc] at h
      rw [(Prod.mk.inj h).2]
    | error err =>
      rw [hc] at h
      cases (Prod.mk.inj h).1
  unfold change at hchange
  split at hchange
  · cases hchange
  · exact hchange

end Database

end EntityStore
