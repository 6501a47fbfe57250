import EntityStore.Proofs.Change.ColumnComparison
import EntityStore.Proofs.Ddl.Database

/-!
# Which columns are altered again

A column that has been made with the type of its attribute is read back from its row in the catalog and
compared with the declaration. It is found to be as declared, whatever the type and the size, unless the
attribute has a size and is a text without bounds or a whole number. Such a size is written into the
column type and expected to come back, but the catalog has no place for it; so the column is altered again
whenever the two are compared (`altered_again_iff`).
-/

set_option autoImplicit false

namespace EntityStore

namespace ColumnChange

/-- A column that was made for an attribute is read from its row under the type that is expected for the
attribute, and is not given another type, exactly if no size has been lost. -/
theorem altered_again_iff {a : Attribute} (hsize : ∀ n, a.size = some n → n ≤ Numeral.maxNat32)
    {c : Column} (hname : c.name = a.name) (htype : c.type = Ddl.reportType a.columnType) :
    ∃ l, LiveColumn.ofRow? (Database.columnRow c) = some l
      ∧ (Text.sameLetters l.canonicalType a.reportedType = true ↔ ¬ a.LosesSize)
      ∧ ∀ (e : Entity) (live : List LiveColumn), e.Declared → a ∈ e.columns →
        (live.map (·.field)).Nodup → l ∈ live →
          ((∃ type, .alterType a.name type ∈ between e live) ↔ a.LosesSize) := by
  have hagrees := Ddl.sameLetters_reportedType_iff hsize htype
  refine ⟨c.live, LiveColumn.ofRow?_columnRow c, hagrees, fun e live he ha hlive hl => ?_⟩
  have hdiffers : Text.sameLetters c.live.canonicalType a.reportedType = false ↔ a.LosesSize := by
    rw [← Bool.not_eq_true, hagrees, not_not]
  constructor
  · rintro ⟨type, hmem⟩
    generalize hn : a.name = n at hmem
    cases (mem_between_iff he hlive).mp hmem with
    | @alterType b l' hb hl' hfield htype' =>
      -- Both the attribute and the column are found by the name.
      have hab : b = a := List.inj_on_of_nodup_map he.nodup_columns hb ha hn.symm
      subst hab
      have hlive' : l' = c.live :=
        List.inj_on_of_nodup_map hlive hl' hl (hfield.trans hname.symm)
      rw [hlive'] at htype'
      exact hdiffers.mp htype'
  · intro hlost
    exact ⟨_, (mem_between_iff he hlive).mpr (.alterType ha hl hname (hdiffers.mpr hlost))⟩

/-- A decimal number of ten digits. -/
def price : Attribute := { Attribute.plain "price" (.number .numeric) with size := some 10 }

/-- It comes back as one, and is not altered. -/
theorem price_not_altered_again :
    ∃ l, LiveColumn.ofRow? (Database.columnRow ⟨"price", Ddl.reportType price.columnType, true, none⟩) = some l
      ∧ Text.sameLetters l.canonicalType price.reportedType = true
      ∧ ¬ ∃ type, .alterType "price" type ∈ between (.declare "item" none [price] []) [l] := by
  have hsize : ∀ n, price.size = some n → n ≤ Numeral.maxNat32 := by
    rintro n ⟨⟩
    decide
  have hkept : ¬ price.LosesSize := by decide
  obtain ⟨l, hrow, hagrees, hagain⟩ := altered_again_iff hsize
    (c := ⟨"price", Ddl.reportType price.columnType, true, none⟩) rfl rfl
  refine ⟨l, hrow, hagrees.mpr hkept, fun h => hkept ?_⟩
  exact (hagain _ [l] ⟨_, _, _, _, rfl⟩ List.mem_cons_self (List.nodup_singleton _)
    List.mem_cons_self).mp h

/-- A text of ten characters comes back as a text and is altered, and so is a whole number of four
digits. -/
theorem sized_text_and_integer_altered_again :
    let body : Attribute := { Attribute.plain "body" .text with size := some 10 }
    let rank : Attribute := { Attribute.plain "rank" (.number .integer) with size := some 4 }
    let e := Entity.declare "note" none [body, rank] []
    let live := LiveColumn.ofRows
      [Database.columnRow ⟨"body", Ddl.reportType body.columnType, true, none⟩,
        Database.columnRow ⟨"rank", Ddl.reportType rank.columnType, true, none⟩]
    live.map (·.canonicalType) = ["text", "integer"]
      ∧ [body, rank].map (·.reportedType) = ["text(10)", "integer(4)"]
      ∧ between e live = [.alterType "body" "text(10)", .alterType "rank" "integer(4)"] := by
  decide

end ColumnChange

end EntityStore
