import EntityStore.Proofs.Dml.Refusals
import EntityStore.Proofs.Schema.Registration

/-!
# Absence is told by its text

Whether a value is there is decided by looking at the text that it was encoded as. A comparison with
`NULL` becomes a question for absence, and a row is not named by what is `NULL` or `DEFAULT`. That is
right only if these two texts are written for nothing else: not for a text that reads the same, nor for any
number, date or document. They are not, and whatever counts as nothing for the type of its attribute is
written as one of them (`absence_told_by_text`).

A value that is there has one literal, which is stored and is compared with. It does not depend on the
text for absence, which is all that sets the two apart.
-/

set_option autoImplicit false

namespace EntityStore

/-- Every declared entity has the same identifier. -/
theorem Entity.Declared.attribute?_identifier {e : Entity} (he : e.Declared) :
    e.attribute? identifier = some .ofIdentifier := by
  obtain ⟨name, table, attributes, indexes, rfl⟩ := he
  obtain ⟨others, hothers, -⟩ := exists_attributesOf attributes
  rw [Entity.attribute?, Entity.declare, hothers]
  exact List.find?_cons_of_pos rfl

namespace Sql

variable {a : Attribute} {v : Value}

/-! ## Two spellings of absence -/

/-- What counts as nothing is written as the text for absence, whatever text that is. -/
theorem encode_of_absentFor (absent : String) (h : v.absentFor a.type = true) :
    encode absent a v = .ok absent := by
  have hnull := comparand_eq_null_iff.mpr h
  have hrefusal : v.refusal? a.type = none := by
    rw [← error?_comparand, hnull]
    rfl
  obtain ⟨text, htext⟩ := error?_eq_none_iff.mp ((error?_encode absent a v).trans hrefusal)
  obtain ⟨c, hc, hwritten⟩ := written_encode htext
  cases hnull.symm.trans hc
  obtain ⟨-, rfl⟩ | ⟨hne, -⟩ := hwritten
  · exact htext
  · exact absurd rfl hne

theorem number_of_present {kind : NumberKind} (h : v.absentFor (.number kind) = false)
    (absent other : String) : number absent v = number other v := by
  cases v with
  | bool b =>
    cases b with
    | false => cases h
    | true => rfl
  | text s =>
    rw [Value.absentFor, ← Text.isEmpty_trim] at h
    simp only [number, numberText, h, Bool.false_eq_true, if_false]
  | null | int n | float x | date t | document d => rfl

/-- What counts as something is written in one way, whatever text there is for absence. -/
theorem encode_of_present (h : v.absentFor a.type = false) (absent other : String) :
    encode absent a v = encode other a v := by
  have hv : v.isNull = false := by
    cases v with
    | null => cases htype : a.type <;> rw [htype] at h <;> cases h
    | _ => rfl
  unfold encode
  rw [hv]
  cases htype : a.type with
  | string | text | boolean | json | array => rfl
  | number kind =>
    rw [htype] at h
    exact congrArg Except.ok (number_of_present h absent other)
  | date =>
    rw [htype, ← Bool.not_eq_true, ← toInstant_eq_none_iff hv] at h
    cases hdate : toInstant v with
    | error err => rfl
    | ok found =>
      cases found with
      | none => exact absurd hdate h
      | some t => rfl

/-! ## Clauses -/

/-- How the text of a value tells whether the value is there. `literal` is what a row stores. -/
structure ToldBy (literal : String) (a : Attribute) (v : Value) : Prop where
  absent : v.absentFor a.type = true →
    literal = (if a.autoIncrement then default else null)
    ∧ conditionClause a (.equals v) = .ok (quoteIdentifier a.name ++ " IS NULL")
    ∧ conditionClause a (.operator (.notEqual v)) = .ok (quoteIdentifier a.name ++ " IS NOT NULL")
  present : v.absentFor a.type = false →
    literal ≠ null ∧ literal ≠ default
    ∧ conditionClause a (.equals v) = .ok (quoteIdentifier a.name ++ " = " ++ literal)
    ∧ conditionClause a (.operator (.notEqual v)) = .ok (quoteIdentifier a.name ++ " != " ++ literal)

theorem toldBy_stored {literal : String} (h : stored a v = .ok literal) : ToldBy literal a v := by
  constructor
  case absent =>
    intro habsent
    have hcompared : compared a v = .ok null := encode_of_absentFor null habsent
    have hstored := h.symm.trans (encode_of_absentFor _ habsent)
    refine ⟨Except.ok.inj hstored, ?_, ?_⟩
    · rw [conditionClause, hcompared]
      rfl
    · rw [conditionClause, operatorClause, operand, hcompared]
      · rfl
      · rintro ⟨⟩
      · rintro ⟨⟩
  case present =>
    intro hpresent
    have hcompared : compared a v = .ok literal := (encode_of_present hpresent _ _).trans h
    have hword := mt (stored_eq_absent_iff h).mp (Bool.eq_false_iff.mp hpresent)
    obtain ⟨hnull, hdefault⟩ := not_or.mp hword
    refine ⟨hnull, hdefault, ?_, ?_⟩
    · rw [conditionClause, hcompared]
      exact congrArg Except.ok (if_neg hnull)
    · rw [conditionClause, operatorClause, operand, hcompared]
      · exact congrArg Except.ok (if_neg hnull)
      · rintro ⟨⟩
      · rintro ⟨⟩

/-! ## Rows -/

/-- A statement that names a row, where `text` is the statement around the condition: it is refused for an
identifier that counts as nothing, and has the literal of any other. -/
structure NamesRow {α : Type} (e : Entity) (id : Value) (statement : Except Error α)
    (text : String → α) : Prop where
  refused : id.absentFor Attribute.ofIdentifier.type = true →
    statement = .error (.nullIdentifier e.name)
  named : id.absentFor Attribute.ofIdentifier.type = false →
    ∃ literal, stored .ofIdentifier id = .ok literal ∧ literal ≠ null ∧ literal ≠ default
      ∧ statement = .ok (text (" WHERE " ++ quoteIdentifier identifier ++ " = " ++ literal))

theorem namesRow_identifierTail {α : Type} {e : Entity} (he : e.Declared) (id : Value)
    (text : String → α) : NamesRow e id (identifierTail e id >>= fun tail => .ok (text tail)) text := by
  have hid := he.attribute?_identifier
  have hrefusal : id.refusal? Attribute.ofIdentifier.type = none := by
    cases id <;> rfl
  constructor
  case refused =>
    intro habsent
    rw [← error?_eq_some_iff, error?_bind_identifierTail, Entity.keyRefusal?, hid]
    simp only [hrefusal, habsent, if_true, Option.none_or]
  case named =>
    intro hpresent
    obtain ⟨literal, hliteral⟩ := error?_eq_none_iff.mp ((error?_stored _ id).trans hrefusal)
    obtain ⟨hnull, hdefault, -⟩ := (toldBy_stored hliteral).present hpresent
    have hkey : identifierLiteral e id = .ok literal := by
      simp only [identifierLiteral, hid, hliteral, bind, Except.bind]
      exact if_neg (by simp [hnull, hdefault])
    refine ⟨literal, hliteral, hnull, hdefault, ?_⟩
    rw [identifierTail, hkey]
    rfl

/-- The texts for absence are written for what counts as nothing, and for nothing else. So a clause asks for
absence exactly where it is compared with nothing, and a row is named by every identifier that counts as
something. -/
theorem absence_told_by_text :
    (∀ (a : Attribute) (v : Value) (literal : String),
      stored a v = .ok literal → ToldBy literal a v)
    ∧ ∀ e : Entity, e.Declared → ∀ id : Value,
      NamesRow e id (find e id) (fun tail =>
        "SELECT " ++ quoteColumns e.columnNames ++ " FROM " ++ e.quotedTable ++ tail ++ " LIMIT 1")
      ∧ NamesRow e id (rowExists e id) (fun tail =>
        "SELECT 1 AS " ++ quoteIdentifier "exists" ++ " FROM " ++ e.quotedTable ++ tail ++ " LIMIT 1")
      ∧ NamesRow e id (deleteRow e id) (fun tail => "DELETE FROM " ++ e.quotedTable ++ tail)
      ∧ ∀ (r : Record) (fields : List Field), fieldsOf e r.fields = .ok fields → fields ≠ [] →
        NamesRow e id (update? e id r) fun tail =>
          some ("UPDATE " ++ e.quotedTable ++ " SET " ++ assignments fields ++ tail) := by
  refine ⟨fun a v literal h => toldBy_stored h, fun e he id => ?_⟩
  refine ⟨namesRow_identifierTail he id _, namesRow_identifierTail he id _,
    namesRow_identifierTail he id _, fun r fields hfields hne => ?_⟩
  have hupdate : update? e id r = identifierTail e id >>= fun tail =>
      .ok (some ("UPDATE " ++ e.quotedTable ++ " SET " ++ assignments fields ++ tail)) := by
    rw [update?, hfields]
    exact if_neg (by simpa using hne)
  rw [hupdate]
  exact namesRow_identifierTail he id _

/-- Texts that read like the words for absence are texts, also where a number is stored. -/
theorem absence_told_of_words :
    let title : Attribute := .plain "title" .string
    let seq : Attribute := { Attribute.plain "seq" (.number .integer) with autoIncrement := true }
    conditionClause title (.equals (.text "NULL"))
      = .ok (quoteIdentifier "title" ++ " = " ++ "E'NULL'")
    ∧ conditionClause seq (.operator (.notEqual (.text "DEFAULT")))
      = .ok (quoteIdentifier "seq" ++ " != " ++ "E'DEFAULT'")
    ∧ (stored seq (.bool false) = .ok default
      ∧ conditionClause seq (.equals (.bool false)) = .ok (quoteIdentifier "seq" ++ " IS NULL"))
    ∧ deleteRow Dml.numberedNote (.text " ") = .error (.nullIdentifier "note")
    ∧ ∃ fields, fieldsOf Dml.numberedNote Dml.hostile.fields = .ok fields
      ∧ update? Dml.numberedNote (.text "NULL") Dml.hostile = .ok (some
        ("UPDATE \"note\" SET " ++ assignments fields ++ " WHERE \"id\" = E'NULL'")) := by
  intro title seq
  obtain ⟨hvalues, hrows⟩ := absence_told_by_text
  have hdeclared : Dml.numberedNote.Declared := ⟨_, _, _, _, rfl⟩
  have htitle := (hvalues title (.text "NULL") "E'NULL'" rfl).present rfl
  have hseq := (hvalues seq (.text "DEFAULT") "E'DEFAULT'" rfl).present rfl
  have hfalse := (hvalues seq (.bool false) default rfl).absent rfl
  refine ⟨htitle.2.2.1, hseq.2.2.2, ⟨rfl, hfalse.2.1⟩, ?_, ?_⟩
  · obtain ⟨-, -, hdelete, -⟩ := hrows _ hdeclared (.text " ")
    exact hdelete.refused rfl
  · obtain ⟨fields, hfields, hne⟩ : ∃ fields,
        fieldsOf Dml.numberedNote Dml.hostile.fields = .ok fields ∧ fields ≠ [] :=
      ⟨_, rfl, by simp⟩
    obtain ⟨-, -, -, hupdates⟩ := hrows _ hdeclared (.text "NULL")
    obtain ⟨literal, hliteral, -, -, hupdate⟩ := (hupdates _ fields hfields hne).named rfl
    cases hliteral
    exact ⟨fields, hfields, hupdate⟩

end Sql

end EntityStore
