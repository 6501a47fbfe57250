import EntityStore.Proofs.Sql.Lexing
import EntityStore.Schema.Entity

/-!
# Qualified names

A table is named in four ways: by its parts in quotes with points between them, by its schema and its
own name apart, by the text in front of the name of an index in the same schema, and by the parts
that a reader finds. They all are cut at the same points. No part holds a point, so the last
point of the name is the last one of the quoted name as well, whatever quotes the parts are made of.
-/

set_option autoImplicit false

namespace EntityStore

/-! ## The last part -/

namespace Text

variable {mark : Char} {cs before after : List Char}

theorem aroundLast_eq_none_iff : aroundLast mark cs = none ↔ mark ∉ cs := by
  induction cs with
  | nil => simp [aroundLast]
  | cons c cs ih =>
    rw [aroundLast, List.mem_cons, not_or, ← ih]
    cases aroundLast mark cs with
    | some found => simp
    | none =>
      by_cases hc : c = mark
      · simp [hc]
      · simp [hc, Ne.symm hc]

/-- What stands behind the last mark holds none. -/
theorem not_mem_of_aroundLast (h : aroundLast mark cs = some (before, after)) : mark ∉ after := by
  induction cs generalizing before with
  | nil => cases h
  | cons c cs ih =>
    rw [aroundLast] at h
    cases hr : aroundLast mark cs with
    | some found =>
      obtain ⟨b, a⟩ := found
      rw [hr] at h
      cases h
      exact ih hr
    | none =>
      rw [hr] at h
      simp only at h
      split at h
      · cases h
        exact aroundLast_eq_none_iff.mp hr
      · cases h

/-- The pieces of a text are the pieces before the last mark, and what stands behind it. -/
theorem splitOn_of_aroundLast (h : aroundLast mark cs = some (before, after)) :
    cs.splitOn mark = before.splitOn mark ++ [after] := by
  rw [← append_of_aroundLast h, List.splitOn_append_cons_self,
    List.splitOn_eq_singleton (not_mem_of_aroundLast h)]

theorem intercalate_pieces (mark : Char) (s : String) :
    (String.singleton mark).intercalate (pieces mark s) = s := by
  rw [← String.toList_inj, String.toList_intercalate, pieces, List.map_map]
  have hid : String.toList ∘ String.ofList = id := funext fun _ => String.toList_ofList
  rw [hid, List.map_id, String.toList_singleton, List.intercalate_splitOn]

end Text

namespace Sql

/-! ## Reading a qualified name -/

/-- The parts of a name, which have points between them. -/
def parts? : List Token → Option (List String × List Token)
  | .identifier part :: .mark '.' :: ts => (parts? ts).map fun found => (part :: found.1, found.2)
  | .identifier part :: ts => some ([part], ts)
  | _ => none

/-- What the parts of a name mean: the last is the name itself and all others are the schema. -/
def qualified (parts : List String) : Option String × String :=
  (if parts.dropLast = [] then none else some (".".intercalate parts.dropLast),
    parts.getLast?.getD "")

/-- The tokens of a qualified name. -/
def nameTokens (parts : List String) : List Token :=
  [.mark '.'].intercalate (parts.map fun part => [.identifier part])

theorem parts?_nameTokens {parts : List String} (hne : parts ≠ []) {ts : List Token}
    (hts : ts.head? ≠ some (.mark '.')) : parts? (nameTokens parts ++ ts) = some (parts, ts) := by
  induction parts with
  | nil => exact absurd rfl hne
  | cons part parts ih =>
    cases parts with
    | nil =>
      simp only [nameTokens, List.map_cons, List.map_nil, List.intercalate_singleton,
        List.singleton_append]
      rw [parts?]
      rintro ts' rfl
      exact hts rfl
    | cons next parts =>
      have hrest := ih (List.cons_ne_nil _ _)
      simp only [nameTokens, List.map_cons, List.intercalate_cons_cons, List.cons_append,
        List.nil_append] at hrest ⊢
      rw [parts?, hrest]
      rfl

/-- What the pieces of a table's name mean is its schema and its own name. -/
theorem qualified_pieces (e : Entity) : qualified (Text.pieces '.' e.table) = e.tableParts := by
  unfold Entity.tableParts Text.pieces
  cases h : Text.aroundLast '.' e.table.toList with
  | none =>
    rw [List.splitOn_eq_singleton (Text.aroundLast_eq_none_iff.mp h)]
    simp [qualified]
  | some found =>
    obtain ⟨schema, table⟩ := found
    have hschema := Text.intercalate_pieces '.' (String.ofList schema)
    rw [Text.pieces, String.toList_ofList] at hschema
    have hne : (schema.splitOn '.').map String.ofList ≠ [] := by simp
    rw [Text.splitOn_of_aroundLast h, List.map_append, List.map_singleton]
    simp only [qualified, List.dropLast_concat, if_neg hne, List.getLast?_concat, Option.getD_some]
    exact congrArg (fun s => (some s, String.ofList table)) hschema

/-! ## A qualified name as tokens -/

theorem toList_quoteIdentifier (name : String) :
    (quoteIdentifier name).toList = identifierChars name.toList := String.toList_ofList

theorem lexes_quoteIdentifier (name : String) :
    Lexes (quoteIdentifier name).toList [.identifier name] := by
  have h := lexes_identifierChars name.toList
  rw [String.ofList_toList] at h
  rw [toList_quoteIdentifier]
  exact h

theorem opens_quoteIdentifier (name : String) : Opens (quoteIdentifier name).toList := by
  rw [toList_quoteIdentifier]
  exact opens_cons _ (by decide) (by decide)

theorem lexes_points {parts : List String} (hne : parts ≠ []) :
    Lexes (".".intercalate (parts.map quoteIdentifier)).toList (nameTokens parts)
      ∧ ∃ cs, (".".intercalate (parts.map quoteIdentifier)).toList = '"' :: cs := by
  induction parts with
  | nil => exact absurd rfl hne
  | cons part parts ih =>
    have hquote : (quoteIdentifier part).toList = '"' :: (part.toList.flatMap identifierChar ++ ['"']) :=
      toList_quoteIdentifier part
    cases parts with
    | nil =>
      rw [List.map_singleton, String.intercalate_singleton]
      exact ⟨lexes_quoteIdentifier part, _, hquote⟩
    | cons next parts =>
      obtain ⟨hlexes, cs, hcs⟩ := ih (List.cons_ne_nil _ _)
      have htext : (".".intercalate ((part :: next :: parts).map quoteIdentifier)).toList
          = identifierChars part.toList
            ++ '.' :: (".".intercalate ((next :: parts).map quoteIdentifier)).toList := by
        rw [List.map_cons, List.map_cons, String.intercalate_cons_cons, String.toList_append,
          String.toList_append, toList_quoteIdentifier, List.append_assoc]
        rfl
      rw [htext]
      refine ⟨fun rest hr => ?_, _, rfl⟩
      -- A quote comes behind the point, so the point begins no numeral.
      have hpoint : tokens ('.' :: ((".".intercalate ((next :: parts).map quoteIdentifier)).toList
          ++ rest)) = (tokens ((".".intercalate ((next :: parts).map quoteIdentifier)).toList
          ++ rest)).map (.mark '.' :: ·) := by
        refine tokens_mark (by decide) _ fun _ => ?_
        rw [hcs]
        rfl
      rw [List.append_assoc, List.cons_append, tokens_identifierChars _ (by simp), hpoint,
        hlexes rest hr, Option.map_map, Option.map_map, String.ofList_toList]
      simp only [nameTokens, List.map_cons, List.intercalate_cons_cons]
      rfl

theorem pieces_ne_nil (name : String) : Text.pieces '.' name ≠ [] := by simp [Text.pieces]

theorem lexes_quoteQualified (name : String) :
    Lexes (quoteQualified name).toList (nameTokens (Text.pieces '.' name)) :=
  (lexes_points (pieces_ne_nil name)).1

theorem opens_quoteQualified (name : String) : Opens (quoteQualified name).toList := by
  obtain ⟨-, cs, hcs⟩ := lexes_points (pieces_ne_nil name)
  rw [quoteQualified, hcs]
  exact opens_cons cs (by decide) (by decide)

/-! ## The schema of a quoted name -/

theorem schemaChars_of_not_mem {cs : List Char} (h : '.' ∉ cs) : schemaChars cs = [] := by
  induction cs with
  | nil => rfl
  | cons c cs ih =>
    obtain ⟨hc, hcs⟩ := not_or.mp (mt List.mem_cons.mpr h)
    rw [schemaChars, ih hcs]
    have hfront : ['"', '.', '"'].isPrefixOf (c :: cs) = false := by
      rw [Bool.eq_false_iff, Ne, List.isPrefixOf_iff_prefix]
      intro hp
      exact h (hp.subset (by decide))
    simp [hfront]

/-- Behind the last point between two quotes there is no schema any more. -/
theorem schemaChars_append {cs : List Char} (h : '.' ∉ cs) (front : List Char) :
    schemaChars (front ++ '"' :: '.' :: '"' :: cs) = front ++ ['"', '.'] := by
  induction front with
  | nil =>
    have hlast : schemaChars ('"' :: cs) = [] := by
      refine schemaChars_of_not_mem fun hmem => ?_
      rcases List.mem_cons.mp hmem with heq | hmem
      · exact absurd heq (by decide)
      · exact h hmem
    have hpoint : schemaChars ('.' :: '"' :: cs) = [] := by
      rw [schemaChars, hlast]
      rfl
    rw [List.nil_append, schemaChars, hpoint]
    rfl
  | cons c front ih =>
    rw [List.cons_append, schemaChars, ih]
    cases front <;> rfl

theorem not_mem_identifierChars {cs : List Char} (h : '.' ∉ cs) : '.' ∉ identifierChars cs := by
  unfold identifierChars identifierChar
  simp only [List.mem_cons, List.mem_append, List.mem_flatMap, List.not_mem_nil, or_false, not_or]
  refine ⟨by decide, ?_, by decide⟩
  rintro ⟨c, hc, hmem⟩
  split at hmem
  · exact absurd hmem (by decide)
  · exact h (List.mem_singleton.mp hmem ▸ hc)

/-- The last character of quoted names with points between them is a quote. -/
theorem points_eq_append {parts : List String} (hne : parts ≠ []) :
    ∃ cs, (".".intercalate (parts.map quoteIdentifier)).toList = cs ++ ['"'] := by
  induction parts with
  | nil => exact absurd rfl hne
  | cons part parts ih =>
    cases parts with
    | nil =>
      rw [List.map_singleton, String.intercalate_singleton, toList_quoteIdentifier]
      exact ⟨_, (List.cons_append).symm⟩
    | cons next parts =>
      obtain ⟨cs, hcs⟩ := ih (List.cons_ne_nil _ _)
      rw [List.map_cons] at hcs
      rw [List.map_cons, List.map_cons, String.intercalate_cons_cons, String.toList_append, hcs,
        ← List.append_assoc]
      exact ⟨_, rfl⟩

theorem intercalate_concat {texts : List String} (hne : texts ≠ []) (text : String) :
    ".".intercalate (texts ++ [text]) = ".".intercalate texts ++ "." ++ text := by
  rw [String.intercalate_append_of_ne_nil hne (List.cons_ne_nil _ _), String.intercalate_singleton]

/-- The schema of a table's quoted name is all its parts but the last, with a point behind each. -/
theorem schemaPart_append (table name : String) :
    schemaPart (quoteQualified table) ++ quoteIdentifier name
      = ".".intercalate (((Text.pieces '.' table).dropLast ++ [name]).map quoteIdentifier) := by
  unfold schemaPart quoteQualified Text.pieces
  cases h : Text.aroundLast '.' table.toList with
  | none =>
    have hmem := Text.aroundLast_eq_none_iff.mp h
    rw [List.splitOn_eq_singleton hmem, List.map_singleton, List.map_singleton,
      String.intercalate_singleton, toList_quoteIdentifier, String.toList_ofList,
      schemaChars_of_not_mem (not_mem_identifierChars hmem)]
    simp
  | some found =>
    obtain ⟨schema, last⟩ := found
    have hlast := not_mem_identifierChars (Text.not_mem_of_aroundLast h)
    have hne : (schema.splitOn '.').map String.ofList ≠ [] := by simp
    rw [Text.splitOn_of_aroundLast h, List.map_append, List.map_singleton, List.dropLast_concat,
      List.map_append, List.map_append, List.map_singleton, List.map_singleton,
      intercalate_concat (by simp), intercalate_concat (by simp)]
    obtain ⟨cs, hcs⟩ := points_eq_append hne
    refine congrArg (· ++ quoteIdentifier name) ?_
    rw [← String.toList_inj, String.toList_ofList]
    simp only [String.toList_append, hcs, toList_quoteIdentifier, String.toList_ofList]
    -- The last part of the name holds no point, so the last point is the one in front of it.
    have hdrop := not_or.mp (mt List.mem_cons.mpr hlast)
    have hschema := schemaChars_append hdrop.2 cs
    simpa [identifierChars] using hschema

end Sql

end EntityStore
