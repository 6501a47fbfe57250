import EntityStore.Proofs.Change.IndexComparison

/-!
# Which indexes are told apart

The row of an index in the catalog has the names of its columns with commas between them. What is read
from the row is compared with a declared index name by name, and blanks around a name do not count on
either side. So as long as no name holds a comma, an index that is as unique as the declared one is left
alone if and only if the lists agree but for such blanks (`touched_iff_of_reportsIndex`). A name with a
comma in it comes back as several, and an index that was made over such a column is found to differ from
its own declaration (`remade_iff_comma`).
-/

set_option autoImplicit false

namespace EntityStore

/-! ## Pieces -/

theorem Text.length_pieces (mark : Char) (s : String) :
    (pieces mark s).length = s.toList.count mark + 1 := by
  rw [pieces, List.length_map]
  induction s.toList with
  | nil => rfl
  | cons c cs ih =>
    rw [List.splitOn_cons_eq_if_modifyHead, List.count_cons]
    split
    · rw [List.length_cons, ih]
    · rw [List.length_modifyHead, ih]

/-- A list of names is longer once the names have been cut, unless there is nothing to cut. -/
theorem Text.length_flatMap_pieces (mark : Char) (names : List String) :
    names.length ≤ (names.flatMap (pieces mark)).length
      ∧ ((names.flatMap (pieces mark)).length = names.length → ∀ n ∈ names, mark ∉ n.toList) := by
  induction names with
  | nil => exact ⟨Nat.le_refl _, by rintro - n ⟨⟩⟩
  | cons name rest ih =>
    obtain ⟨hle, hwhole⟩ := ih
    rw [List.flatMap_cons, List.length_append, length_pieces, List.length_cons]
    refine ⟨by omega, fun h n hn => ?_⟩
    rcases List.mem_cons.mp hn with rfl | hn
    · exact List.count_eq_zero.mp (by omega)
    · exact hwhole (by omega) n hn

/-! ## Rows -/

/-- A row that reports an index by its name, whether it is unique, and the names of the columns it is over
in their order, with commas between them. -/
structure Row.ReportsIndex (row : Row) (name : String) (unique : Bool) (columns : List String) : Prop where
  name : row.text? "Name" = some name
  unique : row.flag "Unique" = unique
  columns : row.text? "Columns" = some (",".intercalate columns)

theorem Database.reportsIndex_indexRow (j : TableIndex) :
    (indexRow j).ReportsIndex j.name j.unique j.columns := ⟨rfl, rfl, rfl⟩

namespace IndexChange

variable {row : Row} {name : String} {unique : Bool} {columns : List String}

/-- An index is found to differ from a declared one by its uniqueness, or by the names that the text of its
row falls into at the commas. -/
theorem exists_of_reportsIndex (h : row.ReportsIndex name unique columns) (hne : columns ≠ []) :
    ∃ l, LiveIndex.ofRow? row = some l ∧ l.name = name
      ∧ ∀ i : Index, differs i l = false ↔
        (columns.flatMap (Text.pieces ',')).map Text.trim = i.columns.map Text.trim
          ∧ unique = i.isUnique := by
  refine ⟨⟨name, unique, row.flag "Constraint", (columns.flatMap (Text.pieces ',')).map Text.trim⟩, ?_, rfl,
    fun i => ?_⟩
  · simp only [LiveIndex.ofRow?, h.name, h.unique, h.columns, Text.pieces_intercalate_eq_flatMap hne]
    rfl
  · rw [not_differs_iff, Text.map_trim_map_trim]

/-- An index that was made as declared is found to differ exactly if a comma is in the name of one of its
columns. -/
theorem remade_iff_comma {i : Index} (h : row.ReportsIndex i.name i.isUnique i.columns)
    (hne : i.columns ≠ []) :
    ∃ l, LiveIndex.ofRow? row = some l ∧ (differs i l = true ↔ ∃ n ∈ i.columns, ',' ∈ n.toList) := by
  obtain ⟨l, hl, -, hsame⟩ := exists_of_reportsIndex h hne
  refine ⟨l, hl, ?_⟩
  rw [← Bool.not_eq_false, hsame, and_iff_left rfl]
  constructor
  · intro hpieces
    by_contra hcomma
    push Not at hcomma
    exact hpieces (by rw [Text.flatMap_pieces hcomma])
  · rintro ⟨n, hn, hcomma⟩ hpieces
    have hlength := congrArg List.length hpieces
    rw [List.length_map, List.length_map] at hlength
    exact (Text.length_flatMap_pieces ',' i.columns).2 hlength n hn hcomma

/-- If no name of a column holds a comma, the row of an index is told from a declared index by its
uniqueness and by its columns, in their order and with the blanks around their names cut off, and by
nothing else. So it is not told from the declaration it was made from, and the index is not touched. -/
theorem touched_iff_of_reportsIndex (h : row.ReportsIndex name unique columns) (hne : columns ≠ [])
    (hcomma : ∀ n ∈ columns, ',' ∉ n.toList) :
    ∃ l, LiveIndex.ofRow? row = some l ∧ l.name = name
      ∧ ∀ i : Index,
        (columns = i.columns → unique = i.isUnique → differs i l = false)
          ∧ (differs i l = true ↔
            columns.map Text.trim ≠ i.columns.map Text.trim ∨ unique ≠ i.isUnique)
          ∧ ∀ (e : Entity) (live : List LiveIndex), e.Declared → i ∈ e.indexes →
            (live.map (·.name)).Nodup → l ∈ live → i.name = name →
              ((∃ c ∈ between e live, c.index = name) ↔ differs i l = true) := by
  obtain ⟨l, hl, hname, hsame⟩ := exists_of_reportsIndex h hne
  rw [Text.flatMap_pieces hcomma] at hsame
  refine ⟨l, hl, hname, fun i => ⟨?_, ?_, ?_⟩⟩
  · intro hcolumns hunique
    exact (hsame i).mpr ⟨by rw [hcolumns], hunique⟩
  · rw [← Bool.not_eq_false, hsame]
    exact not_and_or
  · intro e live he hi hlive hlmem hdeclared
    rw [← hdeclared]
    exact touched_iff he hi hlive hlmem (hname.trans hdeclared.symm)

/-- An index over two columns. -/
def pair : Index := ⟨"note_pair_key", .unique, none, ["title", "body"]⟩

/-- The row of an index of the same name. -/
def pairRow (columns : List String) : Row :=
  Database.indexRow ⟨⟨"public", "note"⟩, "note_pair_key", true, true, none, columns⟩

/-- An index over the two columns is left alone, one over them in the other order is not. -/
theorem pair_touched_if_turned :
    (∃ l, LiveIndex.ofRow? (pairRow ["title", "body"]) = some l
        ∧ ¬ ∃ c ∈ between (.declare "note" none [] [pair]) [l], c.index = "note_pair_key")
      ∧ (∃ l, LiveIndex.ofRow? (pairRow ["body", "title"]) = some l
        ∧ ∃ c ∈ between (.declare "note" none [] [pair]) [l], c.index = "note_pair_key")
      ∧ ∃ l, LiveIndex.ofRow? (pairRow [" title", "body"]) = some l ∧ differs pair l = false := by
  have hrow : ∀ columns, (pairRow columns).ReportsIndex "note_pair_key" true columns :=
    fun columns => Database.reportsIndex_indexRow _
  refine ⟨?_, ?_, ?_⟩
  · obtain ⟨l, hl, -, h⟩ := touched_iff_of_reportsIndex (hrow ["title", "body"]) (by decide) (by decide)
    obtain ⟨hsame, -, htouched⟩ := h pair
    refine ⟨l, hl, fun hchange => ?_⟩
    have hdiffers := (htouched _ [l] ⟨_, _, _, _, rfl⟩ (by decide) (List.nodup_singleton _)
      List.mem_cons_self rfl).mp hchange
    rw [hsame rfl rfl] at hdiffers
    cases hdiffers
  · obtain ⟨l, hl, -, h⟩ := touched_iff_of_reportsIndex (hrow ["body", "title"]) (by decide) (by decide)
    obtain ⟨-, hdiffers, htouched⟩ := h pair
    refine ⟨l, hl, ?_⟩
    exact (htouched _ [l] ⟨_, _, _, _, rfl⟩ (by decide) (List.nodup_singleton _)
      List.mem_cons_self rfl).mpr (hdiffers.mpr (.inl (by decide)))
  · obtain ⟨l, hl, -, h⟩ := touched_iff_of_reportsIndex (hrow [" title", "body"]) (by decide) (by decide)
    refine ⟨l, hl, Bool.not_eq_true _ ▸ fun hdiffers => ?_⟩
    rcases (h pair).2.1.mp hdiffers with hcolumns | hunique
    · exact hcolumns (by decide)
    · exact hunique rfl

/-- A column with a comma in its name comes back as two, and the index that was made over it is dropped and
made again. A column with a blank before its name is not told from the one without. -/
theorem comma_touched_and_blank_not :
    let list : Index := ⟨"note_ab_idx", .plain, none, ["a,b"]⟩
    let word : Index := ⟨"note_title_idx", .plain, none, ["title"]⟩
    let live := LiveIndex.ofRows
      [Database.indexRow ⟨⟨"public", "note"⟩, "note_ab_idx", false, false, none, ["a,b"]⟩,
        Database.indexRow ⟨⟨"public", "note"⟩, "note_title_idx", false, false, none, [" title"]⟩]
    live.map (·.columns) = [["a", "b"], ["title"]]
      ∧ List.zipWith differs [list, word] live = [true, false]
      ∧ between (.declare "note" none [] [list, word]) live
        = [.drop "\"note\"" "note_ab_idx" false, .create "\"note\"" list] := by
  decide

end IndexChange

end EntityStore
