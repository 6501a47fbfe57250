import EntityStore.Proofs.Ddl.Reading
import EntityStore.Proofs.Dml.Reader
import EntityStore.Proofs.Filter.Reading
import EntityStore.Statement

/-!
# Statements about rows carry the record

What a record holds is text, numbers and names of all kinds, and it is put into statements as text.
Here the statements are read back, and what comes out is the record: one statement, one pair of
column and cell for each field that the entity declares, in the order of the record, and the row it
is for (`writes_carry_record`). Nothing is assumed about names and values, so none of them can add,
remove or reorder a column, a value or a statement.
-/

set_option autoImplicit false

namespace EntityStore

open Sql

namespace Dml

open Ddl (table? items? upTo? table?_nameTokens upTo?_concat lexes_table exists_between
  items?_intercalate opens_intercalate)

/-! ## What is in a list -/

theorem mem_intercalate {α : Type} {x t : α} {tss : List (List α)} (h : t ∈ [x].intercalate tss) :
    t = x ∨ ∃ ts ∈ tss, t ∈ ts := by
  induction tss with
  | nil => cases h
  | cons ts tss ih =>
    cases tss with
    | nil => exact .inr ⟨ts, List.mem_cons_self, by simpa using h⟩
    | cons next tss =>
      rw [List.intercalate_cons_cons, List.mem_append, List.mem_append, List.mem_singleton] at h
      obtain (h | rfl) | h := h
      · exact .inr ⟨ts, List.mem_cons_self, h⟩
      · exact .inl rfl
      · obtain hx | ⟨us, hus, ht⟩ := ih h
        · exact .inl hx
        · exact .inr ⟨us, List.mem_cons_of_mem _ hus, ht⟩

theorem before?_append {stop : Token} {ts : List Token} (h : stop ∉ ts) (rest : List Token) :
    before? stop (ts ++ stop :: rest) = some (ts, rest) := by
  induction ts with
  | nil => exact if_pos rfl
  | cons t ts ih =>
    obtain ⟨ht, hts⟩ := not_or.mp (mt List.mem_cons.mpr h)
    rw [List.cons_append, before?, if_neg (Ne.symm ht), ih hts]
    rfl

/-- The tokens of a list: those of its entries, and commas. -/
def Listed (ts : List Token) : Prop := ∀ t ∈ ts, t = .mark ',' ∨ t.isInner = true

/-- Nothing that ends a list, or a statement with a list in it, is in the list. -/
theorem Listed.notMem_ends {ts : List Token} (h : Listed ts) :
    .mark ')' ∉ ts ∧ .mark ';' ∉ ts ∧ .word "where" ∉ ts ∧ .word "returning" ∉ ts := by
  have hnot : ∀ {t : Token}, t ≠ .mark ',' → t.isInner = false → t ∉ ts := by
    intro t hcomma hinner ht
    obtain rfl | hinner' := h t ht
    · exact hcomma rfl
    · exact Bool.noConfusion (hinner.symm.trans hinner')
  exact ⟨hnot (by simp) rfl, hnot (by simp) rfl, hnot (by simp) (by decide),
    hnot (by simp) (by decide)⟩

theorem lexes_list {α : Type} {item? : List Token → Option α} {texts : List String} {as : List α}
    (h : List.Forall₂ (IsEntry item?) texts as) (hne : as ≠ []) :
    ∃ ts, Lexes (",".intercalate texts).toList ts ∧ items? item? ts = some as ∧ Listed ts := by
  have hreads : List.Forall₂ (fun text a => ∃ ts, Lexes text.toList ts
      ∧ item? ts = some a ∧ ∀ t ∈ ts, t.isInner = true) texts as :=
    h.imp fun _ _ hentry => hentry.reads
  obtain ⟨tss, htexts, has⟩ := exists_between hreads
  -- An entry has no comma among its tokens, so the commas between the entries are all there are.
  have hcommas := items?_intercalate (has.imp fun ts a ⟨hitem, hinner⟩ =>
    ⟨hitem, fun hcomma => Bool.noConfusion (hinner _ hcomma)⟩) hne
  refine ⟨_, lexes_commas "," [] rfl nofun htexts, hcommas, fun t ht => ?_⟩
  obtain ⟨hinner, -⟩ := (List.forall₂_and_left _ _).mp (has.imp fun _ _ => And.symm)
  exact (mem_intercalate ht).imp_right fun ⟨ts, hts, hmem⟩ => hinner ts hts t hmem

/-! ## Columns, cells and conditions -/

theorem isEntry_name (name : String) : IsEntry name? (quoteIdentifier name) name :=
  ⟨⟨_, lexes_quoteIdentifier name, rfl, by simp [Token.isInner]⟩, opens_quoteIdentifier name⟩

/-- A column with something behind an equals sign. -/
theorem isEntry_equation {α : Type} {item? : List Token → Option α} {a : α} {value : String}
    {ts : List Token} (name : String) (hlex : Lexes value.toList ts)
    (hinner : ∀ t ∈ ts, t.isInner = true)
    (hitem : item? (.identifier name :: .operator "=" :: ts) = some a) :
    IsEntry item? (quoteIdentifier name ++ " = " ++ value) a := by
  have hequation := Lexes.blank (lexes_quoteIdentifier name)
    (@lexes_operator "=" _ _ (fun _ => rfl) (by decide) hlex) (opens_cons _ (by decide) (by decide))
  refine ⟨⟨_, by simpa using hequation, hitem, ?_⟩, ?_⟩
  · simpa [Token.isInner] using hinner
  · rw [String.toList_append, String.toList_append]
    exact ((opens_quoteIdentifier name).append _).append _

theorem isEntry_assignment {cell : Cell} {value : String} (name : String)
    (h : IsEntry cell? value cell) :
    IsEntry assignment? (quoteIdentifier name ++ " = " ++ value) (name, cell) := by
  obtain ⟨ts, hlex, hcell, hinner⟩ := h.reads
  exact isEntry_equation name hlex hinner (by rw [assignment?, hcell]; rfl)

/-- The condition that a column has a value. -/
theorem isEntry_condition {c : Constant} {value : String} (name : String) (h : Written c value) :
    IsEntry condition? (quoteIdentifier name ++ " = " ++ value)
      (.atom (.compare .equal name c)) := by
  obtain ⟨ts, hlex, hread⟩ := h.reads
  have hconstant : constant? ts = some (c, []) := by simpa using hread []
  have hatom : atom? (.identifier name :: .operator "=" :: ts)
      = some (.compare .equal name c, []) := by
    simp [atom?, columnAtom?, Comparison.ofOperator?, hconstant]
  refine isEntry_equation name hlex (isInner_of_constant? hconstant) ?_
  rw [condition?, Formula.beforeOperand_atom hatom (by simp), Formula.behindOperand_nil]
  rfl

/-! ## The fields of a record -/

/-- The fields that an entity declares, the identifier apart, each as its attribute and the value
for it, in their order. -/
def declared (e : Entity) (fields : List (String × Value)) : List (Attribute × Value) :=
  fields.filterMap fun field =>
    ((e.attribute? field.1).filter (!·.isIdentifier)).map (·, field.2)

/-- Whether a pair of column and cell is what an attribute stores for a value, and is what the
literal of the value says on its own. -/
structure Carries (field : Attribute × Value) (entry : String × Cell) : Prop where
  column : entry.1 = field.1.name
  cell : storing field.1 field.2 = .ok entry.2
  literal : ∃ text, stored field.1 field.2 = .ok text
    ∧ (tokens text.toList).bind cell? = some entry.2

/-- There is only one such pair. -/
theorem Carries.eq {field : Attribute × Value} {entry : String × Cell} {cell : Cell}
    (h : Carries field entry) (hcell : storing field.1 field.2 = .ok cell) :
    entry = (field.1.name, cell) :=
  Prod.ext h.column (Except.ok.inj (h.cell.symm.trans hcell))

/-- Whether a field of a statement is written for a pair of column and cell. -/
structure IsField (field : Field) (entry : String × Cell) : Prop where
  column : field.column = entry.1
  literal : IsEntry cell? field.literal entry.2

theorem name_of_attribute? {e : Entity} {name : String} {a : Attribute}
    (h : e.attribute? name = some a) : a.name = name := by
  simpa using List.find?_some h

/-- The fields of a statement are those that are declared. -/
theorem carries_of_fieldsOf {e : Entity} {fields : List (String × Value)} {written : List Field}
    (h : fieldsOf e fields = .ok written) :
    ∃ entries, List.Forall₂ Carries (declared e fields) entries
      ∧ List.Forall₂ IsField written entries := by
  induction fields generalizing written with
  | nil =>
    cases h
    exact ⟨[], .nil, .nil⟩
  | cons field fields ih =>
    obtain ⟨name, v⟩ := field
    rw [fieldsOf] at h
    -- What is not declared, and the identifier, is left out on both sides.
    cases ha : e.attribute? name with
    | none =>
      rw [ha] at h
      obtain ⟨entries, hcarries, hfields⟩ := ih h
      exact ⟨entries, by simpa [declared, ha] using hcarries, hfields⟩
    | some a =>
      rw [ha] at h
      cases hidentifier : a.isIdentifier with
      | true =>
        simp only [hidentifier, if_true] at h
        obtain ⟨entries, hcarries, hfields⟩ := ih h
        exact ⟨entries, by simpa [declared, ha, hidentifier] using hcarries, hfields⟩
      | false =>
        simp only [hidentifier, Bool.false_eq_true, if_false] at h
        obtain ⟨text, htext, h⟩ := bind_eq_ok_iff.mp h
        obtain ⟨rest, hrest, h⟩ := bind_eq_ok_iff.mp h
        cases h
        obtain ⟨entries, hcarries, hfields⟩ := ih hrest
        obtain ⟨cell, hcell, hentry⟩ := written_stored htext
        obtain ⟨ts, hlex, hread, -⟩ := hentry.reads
        have hfirst : Carries (a, v) (a.name, cell) :=
          ⟨rfl, hcell, text, htext, by rw [hlex.tokens_eq]; exact hread⟩
        refine ⟨(a.name, cell) :: entries, ?_, .cons ⟨rfl, hentry⟩ hfields⟩
        simpa [declared, ha, hidentifier] using And.intro hfirst hcarries

section Declared

variable {e : Entity} {fields : List (String × Value)} {entries : List (String × Cell)}

/-- The columns are names of the record's fields, in their order. -/
theorem columns_eq (h : List.Forall₂ Carries (declared e fields) entries) :
    entries.map Prod.fst = (fields.map Prod.fst).filter fun name =>
      ((e.attribute? name).filter (!·.isIdentifier)).isSome := by
  have hnames : entries.map Prod.fst = (declared e fields).map (·.1.name) := by
    generalize declared e fields = ds at h
    induction h with
    | nil => rfl
    | cons hfirst hrest ih => rw [List.map_cons, List.map_cons, ih, hfirst.column]
  rw [hnames]
  clear h hnames
  -- An attribute is found under its own name, so the names of the fields are those of the attributes.
  induction fields with
  | nil => rfl
  | cons field fields ih =>
    rw [declared] at ih
    rw [List.map_cons, List.filter_cons, declared, List.filterMap_cons]
    cases ha : (e.attribute? field.1).filter (!·.isIdentifier) with
    | none => simpa using ih
    | some a =>
      have hname := name_of_attribute? (Option.mem_filter_iff.mp ha).1
      simpa [hname] using ih

theorem nodup_columns (h : List.Forall₂ Carries (declared e fields) entries)
    (hfields : (fields.map Prod.fst).Nodup) : (entries.map Prod.fst).Nodup := by
  rw [columns_eq h]
  exact hfields.filter _

theorem identifier_notMem_columns (h : List.Forall₂ Carries (declared e fields) entries) :
    identifier ∉ entries.map Prod.fst := by
  rw [columns_eq h]
  intro hmem
  obtain ⟨a, ha⟩ := Option.isSome_iff_exists.mp (List.mem_filter.mp hmem).2
  obtain ⟨hattribute, hother⟩ := Option.mem_filter_iff.mp ha
  rw [Attribute.isIdentifier, name_of_attribute? hattribute] at hother
  simp at hother

end Declared

/-! ## Lists of fields -/

section Lists

variable {written : List Field} {entries : List (String × Cell)}
  (h : List.Forall₂ IsField written entries)

include h

theorem map_column_of_isField : written.map (·.column) = entries.map Prod.fst := by
  induction h with
  | nil => rfl
  | cons hfirst hrest ih => rw [List.map_cons, List.map_cons, ih, hfirst.column]

theorem isEmpty_of_isField : written.isEmpty = entries.isEmpty := by
  cases h <;> rfl

theorem lexes_columnList (hne : entries ≠ []) : ∃ ts, Lexes (columnList written).toList ts
    ∧ items? name? ts = some (entries.map Prod.fst) ∧ Listed ts := by
  rw [columnList, map_column_of_isField h]
  refine lexes_list ?_ (by simpa using hne)
  rw [List.forall₂_map_left_iff, List.forall₂_same]
  exact fun name _ => isEntry_name name

theorem isEntry_literals :
    List.Forall₂ (IsEntry cell?) (written.map (·.literal)) (entries.map Prod.snd) := by
  rw [List.forall₂_map_left_iff, List.forall₂_map_right_iff]
  exact h.imp fun _ _ hfield => hfield.literal

theorem isEntry_assignments : List.Forall₂ (IsEntry assignment?)
    (written.map fun f => quoteIdentifier f.column ++ " = " ++ f.literal) entries := by
  rw [List.forall₂_map_left_iff]
  refine h.imp fun f entry hfield => ?_
  rw [hfield.column]
  exact isEntry_assignment entry.1 hfield.literal

end Lists

theorem opens_list {α : Type} {item? : List Token → Option α} {texts : List String} {as : List α}
    (h : List.Forall₂ (IsEntry item?) texts as) (hne : as ≠ []) :
    Opens (",".intercalate texts).toList := by
  have hboth : List.Forall₂ (fun text a => Opens text.toList ∧ IsEntry item? text a) texts as :=
    h.imp fun _ _ hentry => ⟨hentry.opens, hentry⟩
  obtain ⟨hopens, -⟩ := (List.forall₂_and_left _ _).mp hboth
  refine opens_intercalate hopens ?_
  rintro rfl
  cases h
  exact hne rfl

/-! ## Statements -/

/-- A text that is read as one statement and may stand behind a blank. -/
structure IsStatement (text : String) (s : RowStatement) : Prop where
  reads : ∃ ts, Lexes text.toList ts ∧ statement? ts = some s ∧ .mark ';' ∉ ts
  opens : Opens text.toList

theorem read_of_isStatement {text : String} {s : RowStatement} (h : IsStatement text s) :
    read text = some [s] := by
  obtain ⟨ts, hlex, hstatement, hsemicolon⟩ := h.reads
  rw [read, hlex.tokens_eq, Option.bind_some, List.splitOn_eq_singleton hsemicolon,
    List.mapM_cons, hstatement]
  rfl

theorem read_of_isStatement₂ {text text' : String} {s s' : RowStatement} (h : IsStatement text s)
    (h' : IsStatement text' s') : read (text ++ "; " ++ text') = some [s, s'] := by
  obtain ⟨ts, hlex, hstatement, hsemicolon⟩ := h.reads
  obtain ⟨ts', hlex', hstatement', hsemicolon'⟩ := h'.reads
  have hboth := Lexes.mark (Or.inr (Or.inr (Or.inr rfl))) hlex
    (Lexes.spaces [' '] (List.forall_mem_singleton.mpr rfl) hlex')
  have htokens : tokens (text ++ "; " ++ text').toList = some (ts ++ .mark ';' :: ts') := by
    have h := hboth.tokens_eq
    simpa using h
  have hsplit : ([.mark ';'].intercalate [ts, ts']).splitOn (.mark ';') = [ts, ts'] :=
    List.splitOn_intercalate _ (by simpa using ⟨hsemicolon, hsemicolon'⟩) (List.cons_ne_nil _ _)
  rw [List.intercalate_cons_cons, List.intercalate_singleton, List.append_assoc,
    List.singleton_append] at hsplit
  rw [read, htokens, Option.bind_some, hsplit, List.mapM_cons, hstatement, List.mapM_cons,
    hstatement']
  rfl

theorem notMem_nameTokens {t : Token} (hpoint : t ≠ .mark '.') (hname : ∀ part, t ≠ .identifier part)
    (parts : List String) : t ∉ nameTokens parts := by
  intro ht
  obtain rfl | ⟨ts, hts, ht⟩ := mem_intercalate ht
  · exact hpoint rfl
  · obtain ⟨part, -, rfl⟩ := List.mem_map.mp hts
    exact hname part (List.mem_singleton.mp ht)

theorem semicolon_notMem_nameTokens (parts : List String) : .mark ';' ∉ nameTokens parts :=
  notMem_nameTokens (by simp) (by simp) parts

theorem returning_notMem_nameTokens (parts : List String) : .word "returning" ∉ nameTokens parts :=
  notMem_nameTokens (by simp) (by simp) parts

/-- An insertion, by what stands between the table and the identifier that is asked for. -/
theorem isStatement_insertion (e : Entity) {text : String} {body : List Char} {ts : List Token}
    {s : RowStatement}
    (htext : text.toList = "INSERT INTO ".toList
      ++ (e.quotedTable.toList ++ ' ' :: (body ++ " RETURNING id".toList)))
    (hlex : Lexes body ts) (hopens : Opens body) (hinsert : insert? e.tableParts ts = some s)
    (hhead : ts.head? ≠ some (.mark '.')) (hreturning : .word "returning" ∉ ts)
    (hsemicolon : .mark ';' ∉ ts) : IsStatement text s := by
  have hword : isKeyword "RETURNING" "returning" = true := by decide
  have hid : isKeyword "id" "id" = true := by decide
  have hbody := Lexes.blank hlex (Lexes.keyword hword (lexes_keyword hid) (opens_keyword hid))
    ((opens_keyword hword).append _)
  have hstatement := lexes_table "INSERT INTO " [("INSERT", "insert"), ("INTO", "into")] rfl
    (by decide) e hbody (hopens.append _)
  have htable := @table?_nameTokens e (ts ++ [.word "returning", .word "id"]) (by
    cases ts with
    | nil => nofun
    | cons t ts => exact hhead)
  refine ⟨⟨_, htext ▸ hstatement, ?_, ?_⟩, ?_⟩
  · simp [statement?, htable, before?_append hreturning, hinsert]
  · simp [semicolon_notMem_nameTokens, hsemicolon]
  · rw [htext]
    exact opens_cons _ (by decide) (by decide)

theorem isStatement_insertDefaults {e : Entity} {text : String}
    (htext : text = "INSERT INTO " ++ e.quotedTable ++ " DEFAULT VALUES" ++ " RETURNING id") :
    IsStatement text (.insertDefaults e.tableParts) := by
  have hdefault : isKeyword "DEFAULT" "default" = true := by decide
  have hvalues : isKeyword "VALUES" "values" = true := by decide
  have hbody := Lexes.keyword hdefault (lexes_keyword hvalues) (opens_keyword hvalues)
  refine isStatement_insertion e ?_ hbody ((opens_keyword hdefault).append _) rfl nofun (by decide)
    (by decide)
  simp [htext]

section Fields

variable {e : Entity} {text : String} {written : List Field} {entries : List (String × Cell)}
  (h : List.Forall₂ IsField written entries) (hne : entries ≠ [])

include h hne

theorem isStatement_insert
    (htext : text = "INSERT INTO " ++ e.quotedTable
      ++ (" (" ++ columnList written ++ ") VALUES (" ++ literalList written ++ ")")
      ++ " RETURNING id") :
    IsStatement text (.insert e.tableParts (entries.map Prod.fst) (entries.map Prod.snd)) := by
  obtain ⟨ts, hcolumns, hnames, hts⟩ := lexes_columnList h hne
  obtain ⟨us, hliterals, hcells, hus⟩ := lexes_list (isEntry_literals h) (by simpa using hne)
  obtain ⟨hclose, hsemicolon, -, hreturning⟩ := hts.notMem_ends
  obtain ⟨-, hsemicolon', -, hreturning'⟩ := hus.notMem_ends
  have hvalues : isKeyword "VALUES" "values" = true := by decide
  have hbody := Lexes.mark (Or.inr (Or.inl rfl)) Lexes.nil
    (Lexes.mark (Or.inr (Or.inr (Or.inl rfl))) hcolumns
      (Lexes.spaces [' '] (List.forall_mem_singleton.mpr rfl)
        (Lexes.keyword hvalues hliterals.parens (opens_cons _ (by decide) (by decide)))))
  refine isStatement_insertion e ?_ hbody (opens_cons _ (by decide) (by decide)) ?_ nofun ?_ ?_
  · simp [htext, literalList]
  · simp [insert?, before?_append hclose, hnames, upTo?_concat, hcells]
  · simp [hreturning, hreturning']
  · simp [hsemicolon, hsemicolon']

theorem isStatement_insertUnless {condition : String} {f : Formula Atom}
    (hcondition : IsEntry condition? condition f)
    (htext : text = "INSERT INTO " ++ e.quotedTable ++ " (" ++ columnList written ++ ") SELECT "
      ++ literalList written ++ " WHERE NOT EXISTS (SELECT 1 FROM " ++ e.quotedTable
      ++ (" WHERE " ++ condition) ++ ") RETURNING id") :
    IsStatement text (.insertUnless e.tableParts (entries.map Prod.fst) (entries.map Prod.snd)
      e.tableParts f) := by
  obtain ⟨ts, hcolumns, hnames, hts⟩ := lexes_columnList h hne
  have hentries := isEntry_literals h
  have hnonempty : entries.map Prod.snd ≠ [] := by simpa using hne
  obtain ⟨us, hliterals, hcells, hus⟩ := lexes_list hentries hnonempty
  obtain ⟨vs, hlex, hread, hvs⟩ := hcondition.reads
  obtain ⟨hclose, hsemicolon, -, hreturning⟩ := hts.notMem_ends
  obtain ⟨-, hsemicolon', hend, hreturning'⟩ := hus.notMem_ends
  obtain ⟨-, hsemicolon'', -, hreturning''⟩ := Listed.notMem_ends fun t ht => .inr (hvs t ht)
  have hselect : isKeyword "SELECT" "select" = true := by decide
  have hwhere : isKeyword "WHERE" "where" = true := by decide
  have hone : Lexes "1".toList [.numeral ['1'] []] :=
    lexes_whole (List.cons_ne_nil _ _) (List.forall_mem_singleton.mpr rfl)
  have hfrom := lexes_table "FROM " [("FROM", "from")] rfl (by decide) e
    (Lexes.keyword hwhere hlex hcondition.opens) ((opens_keyword hwhere).append _)
  -- The text is put together from its end: the subselect, its negation, the values, the columns.
  have hinner := Lexes.keyword hselect (Lexes.blank hone hfrom (opens_cons _ (by decide) (by decide)))
    (opens_cons _ (by decide) (by decide))
  have habsence := Lexes.phrase "NOT EXISTS " [("NOT", "not"), ("EXISTS", "exists")] rfl (by decide)
    hinner.parens (opens_cons _ (by decide) (by decide))
  have hrest := Lexes.blank hliterals
    (Lexes.keyword hwhere habsence (opens_cons _ (by decide) (by decide)))
    ((opens_keyword hwhere).append _)
  have hbody := Lexes.mark (Or.inr (Or.inl rfl)) Lexes.nil
    (Lexes.mark (Or.inr (Or.inr (Or.inl rfl))) hcolumns
      (Lexes.spaces [' '] (List.forall_mem_singleton.mpr rfl)
        (Lexes.keyword hselect hrest ((opens_list hentries hnonempty).append _))))
  refine isStatement_insertion e ?_ hbody (opens_cons _ (by decide) (by decide)) ?_ nofun ?_ ?_
  · simp [htext, literalList]
  · have htable := @table?_nameTokens e (.word "where" :: (vs ++ [.mark ')'])) (by simp)
    simp [insert?, before?_append hclose, hnames, before?_append hend, hcells, absence?, htable,
      upTo?_concat, hread]
  · simp [hreturning, hreturning', hreturning'', returning_notMem_nameTokens]
  · simp [hsemicolon, hsemicolon', hsemicolon'', semicolon_notMem_nameTokens]

theorem isStatement_update {condition : String} {f : Formula Atom}
    (hcondition : IsEntry condition? condition f)
    (htext : text = "UPDATE " ++ e.quotedTable ++ " SET " ++ assignments written
      ++ (" WHERE " ++ condition)) :
    IsStatement text (.update e.tableParts entries f) := by
  have hentries := isEntry_assignments h
  obtain ⟨ts, hassignments, hread, hts⟩ := lexes_list hentries hne
  obtain ⟨us, hlex, hread', hus⟩ := hcondition.reads
  obtain ⟨-, hsemicolon, hend, -⟩ := hts.notMem_ends
  obtain ⟨-, hsemicolon', -, -⟩ := Listed.notMem_ends fun t ht => .inr (hus t ht)
  have hset : isKeyword "SET" "set" = true := by decide
  have hwhere : isKeyword "WHERE" "where" = true := by decide
  have hbody := Lexes.keyword hset (Lexes.blank hassignments
    (Lexes.keyword hwhere hlex hcondition.opens) ((opens_keyword hwhere).append _))
    ((opens_list hentries hne).append _)
  have hstatement := lexes_table "UPDATE " [("UPDATE", "update")] rfl (by decide) e hbody
    ((opens_keyword hset).append _)
  have htable := @table?_nameTokens e (.word "set" :: (ts ++ .word "where" :: us)) (by simp)
  refine ⟨⟨_, by simpa [htext, assignments] using hstatement, ?_, ?_⟩, ?_⟩
  · simp [statement?, htable, update?, before?_append hend, hread, hread']
  · simp [hsemicolon, hsemicolon', semicolon_notMem_nameTokens]
  · simp only [htext, String.toList_append, List.append_assoc]
    exact @opens_cons 'U' _ (by decide) (by decide)

end Fields

/-! ## What a record becomes -/

/-- The pairs of column and cell for a record: one for each declared field, no column twice and the
identifier not at all. -/
structure EntriesOf (e : Entity) (r : Record) (entries : List (String × Cell)) : Prop where
  carried : List.Forall₂ Carries (declared e r.fields) entries
  distinct : (entries.map Prod.fst).Nodup
  others : identifier ∉ entries.map Prod.fst

theorem entriesOf_of_fieldsOf {e : Entity} {r : Record} {written : List Field}
    (h : fieldsOf e r.fields = .ok written) :
    ∃ entries, EntriesOf e r entries ∧ List.Forall₂ IsField written entries := by
  obtain ⟨entries, hcarried, hfields⟩ := carries_of_fieldsOf h
  exact ⟨entries,
    ⟨hcarried, nodup_columns hcarried r.distinct, identifier_notMem_columns hcarried⟩, hfields⟩

/-- Whether a constant is what a row of an entity is named with by a value. It is never nothing. -/
structure Identifies (e : Entity) (id : Value) (c : Constant) : Prop where
  value : ∃ a, e.attribute? identifier = some a ∧ comparand a id = .ok c
  literal : ∃ text, identifierLiteral e id = .ok text
    ∧ (tokens text.toList).bind constant? = some (c, [])
  present : c ≠ .null

theorem identifies_of_identifierLiteral {e : Entity} {id : Value} {text : String}
    (h : identifierLiteral e id = .ok text) : ∃ c, Identifies e id c ∧ Written c text := by
  have hliteral := h
  unfold identifierLiteral at h
  cases ha : e.attribute? identifier with
  | none =>
    rw [ha] at h
    cases h
  | some a =>
    rw [ha] at h
    obtain ⟨stored, hstored, h⟩ := bind_eq_ok_iff.mp h
    split at h
    · cases h
    next hpresent =>
    cases h
    -- What is left is no literal for absence, so the constant it denotes is something.
    simp only [Bool.or_eq_true, decide_eq_true_eq, not_or] at hpresent
    obtain ⟨hnull, hdefault⟩ := hpresent
    obtain ⟨c, hc, hne, hwritten⟩ := written_of_stored hstored hnull hdefault
    obtain ⟨ts, hlex, hread⟩ := hwritten.reads
    refine ⟨c, ⟨⟨a, ha, hc⟩, ⟨text, hliteral, ?_⟩, hne⟩, hwritten⟩
    rw [hlex.tokens_eq]
    simpa using hread []

theorem tail_of_identifierTail {e : Entity} {id : Value} {tail : String}
    (h : identifierTail e id = .ok tail) : ∃ text, identifierLiteral e id = .ok text
      ∧ tail = " WHERE " ++ (quoteIdentifier identifier ++ " = " ++ text) := by
  obtain ⟨text, htext, h⟩ := bind_eq_ok_iff.mp h
  cases h
  exact ⟨text, htext, by simp only [String.append_assoc]⟩

/-- What is inserted for pairs of column and cell: a row of defaults if there are none. -/
def insertion (table : TableRef) (entries : List (String × Cell)) : RowStatement :=
  if entries.isEmpty then .insertDefaults table
  else .insert table (entries.map Prod.fst) (entries.map Prod.snd)

/-- An insertion and an update, whenever they can be written, are read as one statement that puts
the declared fields of the record, in their order, where they belong. An update is of the row that
the identifier names. -/
theorem writes_carry_record (e : Entity) (r : Record) :
    (∀ text, Sql.insert e r = .ok text →
      ∃ entries, EntriesOf e r entries ∧ read text = some [insertion e.tableParts entries])
    ∧ ∀ id text, Sql.update? e id r = .ok (some text) →
      ∃ entries c, EntriesOf e r entries ∧ Identifies e id c
        ∧ read text = some [.update e.tableParts entries (.atom (.compare .equal identifier c))] := by
  constructor
  · intro text h
    obtain ⟨written, hwritten, h⟩ := bind_eq_ok_iff.mp h
    obtain ⟨entries, hentries, hfields⟩ := entriesOf_of_fieldsOf hwritten
    refine ⟨entries, hentries, ?_⟩
    cases h
    rw [isEmpty_of_isField hfields, insertion]
    cases hempty : entries.isEmpty with
    | true => exact read_of_isStatement (isStatement_insertDefaults rfl)
    | false =>
      have hne : entries ≠ [] := by simpa using hempty
      exact read_of_isStatement (isStatement_insert hfields hne rfl)
  · intro id text h
    obtain ⟨written, hwritten, h⟩ := bind_eq_ok_iff.mp h
    obtain ⟨entries, hentries, hfields⟩ := entriesOf_of_fieldsOf hwritten
    rw [isEmpty_of_isField hfields] at h
    split at h
    -- Without a field to set there is no text.
    · cases h
    next hempty =>
    have hne : entries ≠ [] := by simpa using hempty
    obtain ⟨tail, htail, h⟩ := bind_eq_ok_iff.mp h
    cases h
    obtain ⟨literal, hliteral, rfl⟩ := tail_of_identifierTail htail
    obtain ⟨c, hc, hliteral⟩ := identifies_of_identifierLiteral hliteral
    exact ⟨entries, c, hentries, hc,
      read_of_isStatement (isStatement_update hfields hne (isEntry_condition identifier hliteral) rfl)⟩

/-- Notes with a title and a number that the table counts up. -/
def numberedNote : Entity :=
  .declare "note" none [.plain "title" .string,
    { Attribute.plain "position" (.number .integer) with autoIncrement := true }] []

/-- A record whose title and whose undeclared key would end what they stand in, if they could. -/
def hostile : Record :=
  .ofFields [("id", .int 7), ("title", .text "'); DROP TABLE note; '"),
    ("x\") VALUES (1); ", .bool true), ("position", .null)]

theorem entries_hostile {entries : List (String × Cell)} (h : EntriesOf numberedNote hostile entries) :
    entries = [("title", .constant (.text "'); DROP TABLE note; '")), ("position", .default)] := by
  obtain ⟨title, position, hdeclared⟩ : ∃ title position,
      declared numberedNote hostile.fields = [title, position] := ⟨_, _, rfl⟩
  have hcarried := h.carried
  rw [hdeclared] at hcarried
  cases hdeclared
  cases hcarried with
  | cons hfirst hrest =>
    cases hrest with
    | cons hsecond hnil =>
      cases hnil
      rw [hfirst.eq rfl, hsecond.eq rfl]
      rfl

theorem writes_carry_hostile :
    (∃ text, Sql.insert numberedNote hostile = .ok text
      ∧ read text = some [.insert (none, "note") ["title", "position"]
        [.constant (.text "'); DROP TABLE note; '"), .default]])
    ∧ ∃ text, Sql.update? numberedNote (.int 7) hostile = .ok (some text)
      ∧ read text = some [.update (none, "note")
        [("title", .constant (.text "'); DROP TABLE note; '")), ("position", .default)]
        (.atom (.compare .equal "id" (.number 7)))] := by
  obtain ⟨hinsert, hupdate⟩ := writes_carry_record numberedNote hostile
  constructor
  · obtain ⟨entries, hentries, hread⟩ := hinsert _ rfl
    obtain rfl := entries_hostile hentries
    exact ⟨_, rfl, hread⟩
  · obtain ⟨entries, c, hentries, hc, hread⟩ := hupdate (.int 7) _ rfl
    obtain rfl := entries_hostile hentries
    obtain ⟨a, ha, hcomparand⟩ := hc.value
    cases ha
    cases hcomparand
    exact ⟨_, rfl, hread⟩

end Dml

end EntityStore
