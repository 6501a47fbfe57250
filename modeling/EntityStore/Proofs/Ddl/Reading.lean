import EntityStore.Proofs.Ddl.Reader
import EntityStore.Proofs.Reconcile.Statements
import EntityStore.Proofs.Sql.Constant

/-!
# Statements about tables are read as what they say

Every statement that an entity can need is read as what it is meant for (`understands`), whatever
the names of tables, columns and indexes are made of. Only an access method stands in a statement as
it was declared, so it must be a plain word.

A statement is put together from phrases, names and lists. For each of these the text is cut into
certain tokens (`Lexes`), and the reader makes of the tokens what the text was made from.
-/

set_option autoImplicit false

namespace EntityStore

open Sql

namespace Ddl

/-! ## Tables and lists of names -/

theorem table?_nameTokens (e : Entity) {ts : List Token} (hts : ts.head? ≠ some (.mark '.')) :
    table? (nameTokens (Text.pieces '.' e.table) ++ ts) = some (e.tableParts, ts) := by
  rw [table?, parts?_nameTokens (pieces_ne_nil _) hts, Option.map_some, qualified_pieces]

def listTokens (names : List String) : List Token :=
  [.mark ','].intercalate (names.map fun name => [.identifier name])

theorem lexes_quoteColumns (names : List String) :
    Lexes (quoteColumns names).toList (listTokens names) := by
  refine lexes_commas "," [] rfl nofun ?_
  rw [List.forall₂_map_left_iff, List.forall₂_map_right_iff, List.forall₂_same]
  exact fun name _ => lexes_quoteIdentifier name

theorem names?_listTokens {names : List String} (hne : names ≠ []) :
    names? (listTokens names ++ [.mark ')']) = some names := by
  induction names with
  | nil => exact absurd rfl hne
  | cons name names ih =>
    cases names with
    | nil => rfl
    | cons next names =>
      have hrest := ih (List.cons_ne_nil _ _)
      simp only [listTokens, List.map_cons, List.intercalate_cons_cons, List.cons_append,
        List.nil_append] at hrest ⊢
      rw [names?, hrest]
      rfl

theorem columns?_listTokens (names : List String) :
    columns? (.mark '(' :: (listTokens names ++ [.mark ')'])) = some names := by
  cases names with
  | nil => rfl
  | cons name names =>
    have hnames := names?_listTokens (List.cons_ne_nil name names)
    rw [columns?]
    · exact hnames
    · cases names <;> simp [listTokens]

/-! ## Definitions -/

def sizeTokens (a : Attribute) : List Token :=
  match a.size with
  | some n => [.mark '(', .numeral (Nat.toDigits 10 n) [], .mark ')']
  | none => []

def typeTokens (a : Attribute) : List Token :=
  match a.type with
  | .string | .json | .array => .word "varchar" :: sizeTokens a
  | .text => .word "text" :: sizeTokens a
  | .number .float => .word "float" :: sizeTokens a
  | .number .numeric => .word "numeric" :: sizeTokens a
  | .number .integer => .word "integer" :: sizeTokens a
  | .date => [.word "timestamp", .word "with", .word "time", .word "zone"]
  | .boolean => [.word "boolean"]

def definitionTokens (a : Attribute) : List Token :=
  typeTokens a ++ if a.nullable then [] else [.word "not", .word "null"]

theorem lexes_sized {word : String} (hk : isKeyword word word = true) (a : Attribute) :
    Lexes (word ++ a.sizeSuffix).toList (.word word :: sizeTokens a) := by
  have hword := lexes_keyword hk
  unfold Attribute.sizeSuffix sizeTokens
  cases a.size with
  | none =>
    rw [String.append_empty]
    exact hword
  | some n =>
    have hdigits : Lexes (Nat.toDigits 10 n) [.numeral (Nat.toDigits 10 n) []] :=
      lexes_whole (Nat.toDigits_ne_nil) fun _ => Numeral.isDigit_toDigits
    have h := Lexes.mark (Or.inr (Or.inl rfl)) hword
      (Lexes.mark (Or.inr (Or.inr (Or.inl rfl))) hdigits Lexes.nil)
    simpa [Numeral.toList_ofNat] using h

theorem lexes_columnType (a : Attribute) : Lexes a.columnType.toList (typeTokens a) := by
  unfold Attribute.columnType typeTokens
  cases a.type with
  | number kind => cases kind <;> exact lexes_sized (by decide) a
  | date =>
    have hzone : isKeyword "zone" "zone" = true := by decide
    have h := Lexes.phrase "timestamp with time "
      [("timestamp", "timestamp"), ("with", "with"), ("time", "time")] rfl (by decide)
      (lexes_keyword hzone) (opens_keyword hzone)
    rw [← String.toList_append] at h
    exact h
  | boolean =>
    have hboolean : isKeyword "boolean" "boolean" = true := by decide
    exact lexes_keyword hboolean
  | string | text | json | array => exact lexes_sized (by decide) a

theorem opens_columnType (a : Attribute) : Opens a.columnType.toList := by
  have hsized : ∀ {word : String}, isKeyword word word = true →
      Opens (word ++ a.sizeSuffix).toList := by
    intro word hk
    rw [String.toList_append]
    exact (opens_keyword hk).append _
  unfold Attribute.columnType
  cases a.type with
  | number kind => cases kind <;> exact hsized (by decide)
  | date =>
    have htimestamp : isKeyword "timestamp" "timestamp" = true := by decide
    have h := (opens_keyword htimestamp).append " with time zone".toList
    rw [← String.toList_append] at h
    exact h
  | boolean =>
    have hboolean : isKeyword "boolean" "boolean" = true := by decide
    exact opens_keyword hboolean
  | string | text | json | array => exact hsized (by decide)

theorem modifiers?_sizeTokens (a : Attribute) (ts : List Token) :
    modifiers? (sizeTokens a ++ ts) = (modifiers? ts).map (a.sizeSuffix ++ ·) := by
  unfold sizeTokens Attribute.sizeSuffix
  cases a.size with
  | none =>
    simp only [List.nil_append, String.empty_append]
    exact Option.map_id'.symm
  | some n =>
    have hdigits : String.ofList (Nat.toDigits 10 n) = Numeral.ofNat n := by
      rw [← Numeral.toList_ofNat, String.ofList_toList]
    dsimp only
    rw [← hdigits]
    rfl

/-- A type is read as the text it is written with, whatever constraints follow. -/
theorem definition?_typeTokens (a : Attribute) (ts : List Token) :
    definition? (typeTokens a ++ ts) = (modifiers? ts).map (a.columnType ++ ·) := by
  have hsized : ∀ word : String, spelled word = word →
      definition? (.word word :: sizeTokens a ++ ts)
        = (modifiers? ts).map (word ++ a.sizeSuffix ++ ·) := by
    intro word hword
    rw [List.cons_append, definition?, modifiers?_sizeTokens, Option.map_map, hword]
    refine congrArg (Option.map · (modifiers? ts)) (funext fun text => ?_)
    exact String.append_assoc.symm
  unfold Attribute.columnType typeTokens
  cases a.type with
  | number kind => cases kind <;> exact hsized _ (by decide)
  | date =>
    have hwords : spelled "timestamp" = "timestamp" ∧ spelled "with" = "with"
        ∧ spelled "time" = "time" ∧ spelled "zone" = "zone" := by decide
    simp only [List.cons_append, List.nil_append, definition?, modifiers?, Option.map_map, hwords]
    refine congrArg (Option.map · (modifiers? ts)) (funext fun text => ?_)
    simp only [Function.comp_apply, ← String.append_assoc]
    rfl
  | boolean => rfl
  | string | text | json | array => exact hsized _ (by decide)

theorem definition?_columnType (a : Attribute) : definition? (typeTokens a) = some a.columnType := by
  have h := definition?_typeTokens a []
  rw [List.append_nil] at h
  rw [h]
  exact congrArg some String.append_empty

theorem definition?_columnDefinition (a : Attribute) :
    definition? (definitionTokens a) = some a.columnDefinition := by
  rw [definitionTokens, definition?_typeTokens, Attribute.columnDefinition]
  cases a.nullable with
  | true => exact congrArg some String.append_empty
  | false => rfl

theorem lexes_columnDefinition (a : Attribute) :
    Lexes a.columnDefinition.toList (definitionTokens a) := by
  have htype := lexes_columnType a
  unfold Attribute.columnDefinition definitionTokens
  cases a.nullable with
  | true =>
    rw [if_pos rfl, if_pos rfl, List.append_nil]
    exact htype
  | false =>
    have hnot : isKeyword "NOT" "not" = true := by decide
    have hnull : isKeyword "NULL" "null" = true := by decide
    have h := Lexes.blank htype (Lexes.keyword hnot (lexes_keyword hnull) (opens_keyword hnull))
      ((opens_keyword hnot).append _)
    rw [if_neg Bool.false_ne_true, if_neg Bool.false_ne_true, String.toList_append]
    exact h

theorem opens_columnDefinition (a : Attribute) : Opens a.columnDefinition.toList := by
  unfold Attribute.columnDefinition
  split
  · exact opens_columnType a
  · rw [String.toList_append]
    exact (opens_columnType a).append _

theorem not_mem_definitionTokens (a : Attribute) : .mark ',' ∉ definitionTokens a := by
  have hsize : .mark ',' ∉ sizeTokens a := by
    unfold sizeTokens
    cases a.size <;> simp
  have htype : .mark ',' ∉ typeTokens a := by
    unfold typeTokens
    cases a.type with
    | number kind => cases kind <;> simp [hsize]
    | date | boolean => simp
    | string | text | json | array => simp [hsize]
  unfold definitionTokens
  cases a.nullable <;> simp [htype]

theorem not_mem_typeTokens (a : Attribute) : .mark ',' ∉ typeTokens a :=
  fun h => not_mem_definitionTokens a (List.mem_append_left _ h)

/-! ## Lists of columns and of changes -/

/-- A text that is read as one thing of a list. -/
def IsItem {α : Type} (item? : List Token → Option α) (text : String) (a : α) : Prop :=
  ∃ ts, Lexes text.toList ts ∧ item? ts = some a ∧ .mark ',' ∉ ts

theorem mapM_of_forall₂ {α β : Type} {f : α → Option β} {as : List α} {bs : List β}
    (h : List.Forall₂ (fun a b => f a = some b) as bs) : as.mapM f = some bs := by
  induction h with
  | nil => rfl
  | cons hfirst hrest ih =>
    rw [List.mapM_cons, hfirst, ih]
    rfl

/-- What is between two lists, entry by entry, is a list. -/
theorem exists_between {α β γ : Type} {R : α → β → Prop} {S : β → γ → Prop} {as : List α}
    {cs : List γ} (h : List.Forall₂ (fun a c => ∃ b, R a b ∧ S b c) as cs) :
    ∃ bs, List.Forall₂ R as bs ∧ List.Forall₂ S bs cs := by
  induction h with
  | nil => exact ⟨[], .nil, .nil⟩
  | cons hfirst hrest ih =>
    obtain ⟨b, hR, hS⟩ := hfirst
    obtain ⟨bs, hRs, hSs⟩ := ih
    exact ⟨b :: bs, .cons hR hRs, .cons hS hSs⟩

/-- Tokens with commas between them are read as the list of what they are read as alone. -/
theorem items?_intercalate {α : Type} {item? : List Token → Option α} {tss : List (List Token)}
    {as : List α} (h : List.Forall₂ (fun ts a => item? ts = some a ∧ .mark ',' ∉ ts) tss as)
    (hne : as ≠ []) : items? item? ([.mark ','].intercalate tss) = some as := by
  obtain ⟨hcomma, hitems⟩ := (List.forall₂_and_left _ _).mp (h.imp fun _ _ => And.symm)
  have htss : tss ≠ [] := by
    rintro rfl
    cases h
    exact hne rfl
  rw [items?, List.splitOn_intercalate _ hcomma htss, mapM_of_forall₂ hitems]

/-- Texts with commas between them are read as the list of what they are read as alone. -/
theorem items?_of_forall₂ {α : Type} {item? : List Token → Option α} (separator : String)
    (blanks : List Char) {texts : List String} {as : List α}
    (hs : separator.toList = ',' :: blanks) (hb : ∀ c ∈ blanks, isSpace c = true)
    (h : List.Forall₂ (IsItem item?) texts as) (hne : as ≠ []) :
    ∃ ts, Lexes (separator.intercalate texts).toList ts ∧ items? item? ts = some as := by
  obtain ⟨tss, htexts, has⟩ := exists_between h
  exact ⟨_, lexes_commas separator blanks hs hb htexts, items?_intercalate has hne⟩

/-- A list of texts may stand behind a blank if each of them may. -/
theorem opens_intercalate {separator : String} {texts : List String}
    (h : ∀ text ∈ texts, Opens text.toList) (hne : texts ≠ []) :
    Opens (separator.intercalate texts).toList := by
  cases texts with
  | nil => exact absurd rfl hne
  | cons text texts =>
    have htext := h text List.mem_cons_self
    cases texts with
    | nil => simpa using htext
    | cons next texts =>
      rw [String.intercalate_cons_cons, String.toList_append, String.toList_append]
      exact (htext.append _).append _

/-- A column change that an attribute can call for: its type or definition is one that attributes
have. -/
def Proper : ColumnChange → Prop
  | .add _ definition => ∃ a : Attribute, definition = a.columnDefinition
  | .alterType _ type => ∃ a : Attribute, type = a.columnType
  | .setNotNull _ | .dropNotNull _ | .drop _ => True

theorem proper_of_mem_between {e : Entity} {live : List LiveColumn} {c : ColumnChange}
    (h : c ∈ ColumnChange.between e live) : Proper c := by
  unfold ColumnChange.between at h
  -- Additions, alterations and removals, as the comparison puts them together.
  rcases List.mem_append.mp h with h | h
  · rcases List.mem_append.mp h with h | h
    · obtain ⟨a, -, ha⟩ := List.mem_filterMap.mp h
      unfold ColumnChange.addition? at ha
      split at ha
      · cases ha
      · cases ha
        exact ⟨a, rfl⟩
    · obtain ⟨a, -, ha⟩ := List.mem_flatMap.mp h
      unfold ColumnChange.alterationsIn ColumnChange.alterations at ha
      split at ha
      · rcases List.mem_append.mp ha with ha | ha
        · split at ha
          · cases ha
          · cases List.mem_singleton.mp ha
            exact ⟨a, rfl⟩
        · split at ha
          · cases List.mem_singleton.mp ha
            trivial
          · cases List.mem_singleton.mp ha
            trivial
          · cases ha
      · cases ha
  · obtain ⟨l, -, hl⟩ := List.mem_filterMap.mp h
    unfold ColumnChange.removal? at hl
    split at hl
    · cases hl
    · cases hl
      trivial

theorem lexes_named (written : String) (words : List (String × String))
    (hwritten : written.toList = words.flatMap fun word => word.1.toList ++ [' '])
    (hk : ∀ word ∈ words, isKeyword word.1 word.2 = true) (name : String) :
    Lexes (written ++ quoteIdentifier name).toList
      (words.map (.word ·.2) ++ [.identifier name]) := by
  rw [String.toList_append]
  exact Lexes.phrase written words hwritten hk (lexes_quoteIdentifier name)
    (opens_quoteIdentifier name)

theorem isItem_columnChange {c : ColumnChange} (h : Proper c) : IsItem columnChange? c.text c := by
  have halter := lexes_named "ALTER COLUMN " [("ALTER", "alter"), ("COLUMN", "column")] rfl
    (by decide)
  have hnull : isKeyword "NULL" "null" = true := by decide
  cases c with
  | add name definition =>
    obtain ⟨a, rfl⟩ := h
    have hadd := lexes_named "ADD COLUMN " [("ADD", "add"), ("COLUMN", "column")] rfl (by decide) name
    have hl := Lexes.blank hadd (lexes_columnDefinition a) (opens_columnDefinition a)
    show IsItem columnChange? ("ADD COLUMN " ++ quoteIdentifier name ++ " " ++ a.columnDefinition) _
    refine ⟨_, by simpa using hl, ?_, ?_⟩
    · simp [columnChange?, definition?_columnDefinition]
    · simp [not_mem_definitionTokens]
  | alterType name type =>
    obtain ⟨a, rfl⟩ := h
    have htype : isKeyword "TYPE" "type" = true := by decide
    have hl := Lexes.blank (halter name)
      (Lexes.keyword htype (lexes_columnType a) (opens_columnType a)) ((opens_keyword htype).append _)
    show IsItem columnChange? ("ALTER COLUMN " ++ quoteIdentifier name ++ " TYPE " ++ a.columnType) _
    refine ⟨_, by simpa using hl, ?_, ?_⟩
    · simp [columnChange?, definition?_columnType]
    · simp [not_mem_typeTokens]
  | setNotNull name =>
    have hl := Lexes.blank (halter name) (Lexes.phrase "SET NOT " [("SET", "set"), ("NOT", "not")]
      rfl (by decide) (lexes_keyword hnull) (opens_keyword hnull))
      (opens_cons _ (by decide) (by decide))
    show IsItem columnChange? ("ALTER COLUMN " ++ quoteIdentifier name ++ " SET NOT NULL") _
    exact ⟨_, by simpa using hl, rfl, by simp⟩
  | dropNotNull name =>
    have hl := Lexes.blank (halter name) (Lexes.phrase "DROP NOT " [("DROP", "drop"), ("NOT", "not")]
      rfl (by decide) (lexes_keyword hnull) (opens_keyword hnull))
      (opens_cons _ (by decide) (by decide))
    show IsItem columnChange? ("ALTER COLUMN " ++ quoteIdentifier name ++ " DROP NOT NULL") _
    exact ⟨_, by simpa using hl, rfl, by simp⟩
  | drop name =>
    have hdrop := lexes_named "DROP COLUMN " [("DROP", "drop"), ("COLUMN", "column")] rfl
      (by decide) name
    exact ⟨_, hdrop, rfl, by simp⟩

theorem opens_columnChange (c : ColumnChange) : Opens c.text.toList := by
  have hopens : ∀ {word read phrase : String}, isKeyword word read = true → ∀ text : String,
      phrase.toList = word.toList ++ text.toList → Opens phrase.toList := by
    intro word read phrase hk text hphrase
    rw [hphrase]
    exact (opens_keyword hk).append _
  have hadd : Opens "ADD COLUMN ".toList := @hopens "ADD" "add" _ (by decide) " COLUMN " rfl
  have halter : Opens "ALTER COLUMN ".toList :=
    @hopens "ALTER" "alter" _ (by decide) " COLUMN " rfl
  have hdrop : Opens "DROP COLUMN ".toList := @hopens "DROP" "drop" _ (by decide) " COLUMN " rfl
  cases c with
  | add name definition =>
    show Opens ("ADD COLUMN " ++ quoteIdentifier name ++ " " ++ definition).toList
    rw [String.toList_append, String.toList_append, String.toList_append]
    exact ((hadd.append _).append _).append _
  | alterType name type =>
    show Opens ("ALTER COLUMN " ++ quoteIdentifier name ++ " TYPE " ++ type).toList
    rw [String.toList_append, String.toList_append, String.toList_append]
    exact ((halter.append _).append _).append _
  | setNotNull name =>
    show Opens ("ALTER COLUMN " ++ quoteIdentifier name ++ " SET NOT NULL").toList
    rw [String.toList_append, String.toList_append]
    exact (halter.append _).append _
  | dropNotNull name =>
    show Opens ("ALTER COLUMN " ++ quoteIdentifier name ++ " DROP NOT NULL").toList
    rw [String.toList_append, String.toList_append]
    exact (halter.append _).append _
  | drop name =>
    show Opens ("DROP COLUMN " ++ quoteIdentifier name).toList
    rw [String.toList_append]
    exact hdrop.append _

theorem isItem_column (a : Attribute) :
    IsItem column? (quoteIdentifier a.name ++ " " ++ a.columnDefinition)
      (a.name, a.columnDefinition) := by
  have hl := Lexes.blank (lexes_quoteIdentifier a.name) (lexes_columnDefinition a)
    (opens_columnDefinition a)
  refine ⟨_, by simpa using hl, ?_, ?_⟩
  · simp [column?, definition?_columnDefinition]
  · simp [not_mem_definitionTokens]

theorem isItem_identifier :
    IsItem column? (quoteIdentifier identifier ++ " SERIAL PRIMARY KEY")
      (identifier, "SERIAL PRIMARY KEY") := by
  have hkey : isKeyword "KEY" "key" = true := by decide
  have hl := Lexes.blank (lexes_quoteIdentifier identifier)
    (Lexes.phrase "SERIAL PRIMARY " [("SERIAL", "serial"), ("PRIMARY", "primary")] rfl (by decide)
      (lexes_keyword hkey) (opens_keyword hkey)) (opens_cons _ (by decide) (by decide))
  exact ⟨_, by simpa using hl, rfl, by simp⟩

/-! ## Statements -/

theorem isQuery_columnsQueryStart : isQuery columnsQueryStart = true := by
  unfold columnsQueryStart
  repeat apply isQuery_append
  decide

theorem isQuery_indexesQueryStart : isQuery indexesQueryStart = true := by
  unfold indexesQueryStart
  repeat apply isQuery_append
  decide

/-- What begins as no query is none. -/
theorem exactly_of_changes {sql text : String} (hc : Changes sql) (h : isQuery text = true) :
    Scan.exactly text.toList sql.toList = none := by
  obtain ⟨first, rest, hsql, hne⟩ := hc
  obtain ⟨more, hmore⟩ := List.isPrefixOf_iff_prefix.mp h
  rw [← hmore, hsql]
  exact if_neg (Ne.symm hne)

theorem columnsQuery?_of_changes {sql : String} (hc : Changes sql) :
    columnsQuery? sql.toList = none := by
  unfold columnsQuery?
  rw [exactly_of_changes hc isQuery_columnsQueryStart]
  rfl

theorem indexesQuery?_of_changes {sql : String} (hc : Changes sql) :
    indexesQuery? sql.toList = none := by
  unfold indexesQuery?
  rw [exactly_of_changes hc isQuery_indexesQueryStart]
  rfl

theorem upTo?_concat (c : Char) (ts : List Token) : upTo? c (ts ++ [.mark c]) = some ts := by
  rw [upTo?, List.getLast?_concat, if_pos rfl, List.dropLast_concat]

/-- A text whose tokens say what is changed. -/
def Says (sql : String) (c : SchemaChange) : Prop :=
  ∃ ts, Lexes sql.toList ts ∧ change? ts = some c

/-- With a semicolon behind it, a text that begins as no query does is read as what it says. -/
theorem Says.read {sql : String} {c : SchemaChange} (h : Says sql c) (hc : Changes sql) :
    Ddl.read (sql ++ ";") = some (.change c) := by
  obtain ⟨ts, hl, h⟩ := h
  have htokens : tokens (sql ++ ";").toList = some (ts ++ [.mark ';']) := by
    rw [String.toList_append]
    exact (Lexes.mark (Or.inr (Or.inr (Or.inr rfl))) hl Lexes.nil).tokens_eq
  have hstatement : statement? (sql ++ ";").toList = some c := by
    rw [statement?, htokens, Option.bind_some, upTo?_concat, Option.bind_some, h]
  rw [Ddl.read, columnsQuery?_of_changes (hc.append ";"), indexesQuery?_of_changes (hc.append ";"),
    hstatement, Option.map_none, Option.none_or, Option.map_none, Option.none_or, Option.map_some]

/-- A closing bracket on a line of its own. -/
theorem lexes_lastLine {v : List Char} {ts : List Token} (hv : Lexes v ts) :
    Lexes (v ++ ['\n', ')']) (ts ++ [.mark ')']) := by
  intro rest hr
  have hboundary : Boundary ('\n' :: ')' :: rest) := by
    refine ⟨fun c hc => Or.inr (Or.inl (Option.some.inj hc).symm), ?_⟩
    simp [gap, isLineEnd, isSpace]
  rw [List.append_assoc, List.cons_append, List.cons_append, List.nil_append, hv _ hboundary,
    tokens_space (by decide), tokens_mark (by decide) _ (fun h => absurd h (by decide)),
    Option.map_map]
  congr 1
  funext us
  simp

theorem lexes_table (written : String) (words : List (String × String))
    (hwritten : written.toList = words.flatMap fun word => word.1.toList ++ [' '])
    (hk : ∀ word ∈ words, isKeyword word.1 word.2 = true) (e : Entity) {w : List Char}
    {us : List Token} (hw : Lexes w us) (ho : Opens w) :
    Lexes (written.toList ++ (e.quotedTable.toList ++ ' ' :: w))
      (words.map (.word ·.2) ++ (nameTokens (Text.pieces '.' e.table) ++ us)) :=
  Lexes.phrase written words hwritten hk (Lexes.blank (lexes_quoteQualified e.table) hw ho)
    ((opens_quoteQualified e.table).append _)

theorem says_createTable (e : Entity) :
    Says e.createTable (.createTable e.tableParts e.definitions) := by
  have hitems : List.Forall₂ (IsItem column?)
      ((quoteIdentifier identifier ++ " SERIAL PRIMARY KEY")
        :: e.columns.map fun a => quoteIdentifier a.name ++ " " ++ a.columnDefinition)
      e.definitions := by
    refine .cons isItem_identifier ?_
    rw [List.forall₂_map_left_iff, List.forall₂_map_right_iff, List.forall₂_same]
    exact fun a _ => isItem_column a
  have hblank : ∀ c ∈ ['\n', ' ', ' '], isSpace c = true := List.all_eq_true.mp rfl
  obtain ⟨ts, hl, hts⟩ := items?_of_forall₂ ",\n  " ['\n', ' ', ' '] rfl hblank hitems
    (List.cons_ne_nil _ _)
  have hbody := Lexes.mark (Or.inr (Or.inl rfl)) Lexes.nil
    (Lexes.spaces ['\n', ' ', ' '] hblank (lexes_lastLine hl))
  have hstatement := lexes_table "CREATE TABLE " [("CREATE", "create"), ("TABLE", "table")] rfl
    (by decide) e hbody (opens_cons _ (by decide) (by decide))
  show Says ("CREATE TABLE " ++ e.quotedTable ++ " (\n  " ++ ",\n  ".intercalate
    ((quoteIdentifier identifier ++ " SERIAL PRIMARY KEY")
      :: e.columns.map fun a => quoteIdentifier a.name ++ " " ++ a.columnDefinition) ++ "\n)") _
  refine ⟨_, by simpa using hstatement, ?_⟩
  have htable := @table?_nameTokens e (.mark '(' :: (ts ++ [.mark ')'])) (by simp)
  simp [change?, htable, createTable?, upTo?_concat, hts]

theorem read_createTable (e : Entity) :
    read (e.createTable ++ ";") = some (.change (.createTable e.tableParts e.definitions)) :=
  (says_createTable e).read (Changes.createTable e)

/-- A list is not read from tokens whose first item is not one. -/
theorem items?_append_eq_none {α : Type} {item? : List Token → Option α} (front : List Token)
    (hfront : .mark ',' ∉ front) (h : ∀ ts, item? (front ++ ts) = none) (ts : List Token) :
    items? item? (front ++ ts) = none := by
  have hsplit : ∃ first rest, (front ++ ts).splitOn (.mark ',') = (front ++ first) :: rest := by
    clear h
    induction front with
    | nil => exact List.exists_cons_of_ne_nil (List.splitOn_ne_nil (.mark ',') ts)
    | cons t front ih =>
      obtain ⟨ht, hfront⟩ := not_or.mp (mt List.mem_cons.mpr hfront)
      obtain ⟨first, rest, hrest⟩ := ih hfront
      have hne : (t == .mark ',') = false := beq_eq_false_iff_ne.mpr (Ne.symm ht)
      refine ⟨first, rest, ?_⟩
      rw [List.cons_append, List.splitOn_cons_eq_if_modifyHead, hne, hrest]
      rfl
  obtain ⟨first, rest, hrest⟩ := hsplit
  rw [items?, hrest, List.mapM_cons, h]
  rfl

theorem alterTable?_of_items {table : TableRef} {ts : List Token} {changes : List ColumnChange}
    (h : items? columnChange? ts = some changes) :
    alterTable? table ts = some (.alterTable table changes) := by
  unfold alterTable?
  split
  -- No change of a column begins as a change of a constraint does.
  · have hnone : ∀ ts, columnChange? ([.word "add", .word "constraint"] ++ ts) = none := fun _ => rfl
    cases (items?_append_eq_none _ (by decide) hnone _).symm.trans h
  · cases h
  · rw [h]
    rfl

theorem says_alterTable {e : Entity} {changes : List ColumnChange} {sql : String}
    (hproper : ∀ c ∈ changes, Proper c) (h : e.alterTable? changes = some sql) :
    Says sql (.alterTable e.tableParts changes) := by
  unfold Entity.alterTable? at h
  split at h
  · cases h
  next hempty =>
  cases h
  have hne : changes ≠ [] := by simpa using hempty
  have hitems : List.Forall₂ (IsItem columnChange?) (changes.map ColumnChange.text) changes := by
    rw [List.forall₂_map_left_iff, List.forall₂_same]
    exact fun c hc => isItem_columnChange (hproper c hc)
  obtain ⟨ts, hl, hts⟩ := items?_of_forall₂ ", " [' '] rfl (List.forall_mem_singleton.mpr rfl)
    hitems hne
  have hopens : Opens (", ".intercalate (changes.map ColumnChange.text)).toList := by
    refine opens_intercalate (fun text htext => ?_) (by simpa using hne)
    obtain ⟨c, -, rfl⟩ := List.mem_map.mp htext
    exact opens_columnChange c
  have hstatement := lexes_table "ALTER TABLE " [("ALTER", "alter"), ("TABLE", "table")] rfl
    (by decide) e hl hopens
  refine ⟨_, by simpa using hstatement, ?_⟩
  -- No change begins with a point, so the name of the table ends where it was written to.
  have hhead : ts.head? ≠ some (.mark '.') := by
    cases ts with
    | nil => nofun
    | cons t ts =>
      rintro ⟨⟩
      have hnone : ∀ ts, columnChange? ([.mark '.'] ++ ts) = none := fun _ => rfl
      cases (items?_append_eq_none _ (by decide) hnone ts).symm.trans hts
  have htable := table?_nameTokens e hhead
  simp [change?, htable, alterTable?_of_items hts]

theorem read_alterTable {e : Entity} {changes : List ColumnChange} {sql : String}
    (hproper : ∀ c ∈ changes, Proper c) (h : e.alterTable? changes = some sql) :
    read (sql ++ ";") = some (.change (.alterTable e.tableParts changes)) :=
  (says_alterTable hproper h).read (Changes.alterTable h)

/-! ## Index changes -/

theorem lexes_columns (names : List String) :
    Lexes ('(' :: ((quoteColumns names).toList ++ [')']))
      (.mark '(' :: (listTokens names ++ [.mark ')'])) :=
  (lexes_quoteColumns names).parens

theorem says_addConstraint (e : Entity) {i : Index} (hi : i.isConstraint = true) :
    Says (IndexChange.create e.quotedTable i).text (.addConstraint e.tableParts i.name i.columns) := by
  have hunique : isKeyword "UNIQUE" "unique" = true := by decide
  have hname := lexes_named "ADD CONSTRAINT " [("ADD", "add"), ("CONSTRAINT", "constraint")] rfl
    (by decide) i.name
  have hadd := Lexes.blank hname (Lexes.keyword hunique (lexes_columns i.columns)
    (opens_cons _ (by decide) (by decide))) ((opens_keyword hunique).append _)
  have hopens : Opens ("ADD CONSTRAINT " ++ quoteIdentifier i.name).toList := by
    rw [String.toList_append]
    exact opens_cons _ (by decide) (by decide)
  have hstatement := lexes_table "ALTER TABLE " [("ALTER", "alter"), ("TABLE", "table")] rfl
    (by decide) e hadd (hopens.append _)
  refine ⟨_, by simpa [IndexChange.text, hi] using hstatement, ?_⟩
  have htable := @table?_nameTokens e (.word "add" :: .word "constraint" :: .identifier i.name
    :: .word "unique" :: .mark '(' :: (listTokens i.columns ++ [.mark ')'])) (by simp)
  simp [change?, htable, alterTable?, columns?_listTokens]

theorem says_dropConstraint (e : Entity) (name : String) :
    Says (IndexChange.drop e.quotedTable name true).text (.dropConstraint e.tableParts name) := by
  have hname := lexes_named "DROP CONSTRAINT " [("DROP", "drop"), ("CONSTRAINT", "constraint")] rfl
    (by decide) name
  have hopens : Opens ("DROP CONSTRAINT " ++ quoteIdentifier name).toList := by
    rw [String.toList_append]
    exact opens_cons _ (by decide) (by decide)
  have hstatement := lexes_table "ALTER TABLE " [("ALTER", "alter"), ("TABLE", "table")] rfl
    (by decide) e hname hopens
  refine ⟨_, by simpa [IndexChange.text] using hstatement, ?_⟩
  have htable := @table?_nameTokens e [.word "drop", .word "constraint", .identifier name] (by simp)
  simp [change?, htable, alterTable?]

/-- An index is named together with the schema of its table. -/
theorem says_dropIndex (e : Entity) (name : String) :
    Says (IndexChange.drop e.quotedTable name false).text (.dropIndex e.tableParts.1 name) := by
  have hne : (Text.pieces '.' e.table).dropLast ++ [name] ≠ [] := by simp
  obtain ⟨hl, cs, hcs⟩ := lexes_points hne
  have hopens : Opens (".".intercalate
      (((Text.pieces '.' e.table).dropLast ++ [name]).map quoteIdentifier)).toList := by
    rw [hcs]
    exact opens_cons cs (by decide) (by decide)
  have hstatement := Lexes.phrase "DROP INDEX " [("DROP", "drop"), ("INDEX", "index")] rfl
    (by decide) hl hopens
  rw [← schemaPart_append] at hstatement
  refine ⟨_, by simpa [IndexChange.text, Entity.quotedTable] using hstatement, ?_⟩
  have hparts := @parts?_nameTokens _ hne [] (by simp)
  have hschema : qualified ((Text.pieces '.' e.table).dropLast ++ [name])
      = (e.tableParts.1, name) := by
    rw [← qualified_pieces]
    simp [qualified]
  rw [List.append_nil] at hparts
  simp [change?, table?, hparts, hschema]

/-- What stands behind the name of an index that is created. -/
def indexTail (e : Entity) (i : Index) : String :=
  "ON " ++ e.quotedTable ++ (match i.method with
    | some method => " USING " ++ method
    | none => "") ++ " (" ++ quoteColumns i.columns ++ ")"

/-- An access method is read as a word, in lower case. -/
theorem lexes_indexTail (e : Entity) {i : Index}
    (hm : ∀ method ∈ i.method, isKeyword method (Text.lower method) = true) :
    ∃ ts, Lexes (indexTail e i).toList ts ∧ ∀ unique, createIndex? unique (.identifier i.name :: ts)
      = some (.createIndex e.tableParts unique i.name (i.method.map Text.lower) i.columns) := by
  have hcolumns := lexes_columns i.columns
  have hopens : Opens ('(' :: ((quoteColumns i.columns).toList ++ [')'])) :=
    opens_cons _ (by decide) (by decide)
  unfold indexTail
  cases hmethod : i.method with
  | none =>
    have hl := lexes_table "ON " [("ON", "on")] rfl (by decide) e hcolumns hopens
    refine ⟨_, by simpa using hl, fun unique => ?_⟩
    have htable := @table?_nameTokens e (.mark '(' :: (listTokens i.columns ++ [.mark ')'])) (by simp)
    simp [createIndex?, htable, columns?_listTokens]
  | some method =>
    rw [hmethod] at hm
    have hword := hm method rfl
    have husing : isKeyword "USING" "using" = true := by decide
    have hl := lexes_table "ON " [("ON", "on")] rfl (by decide) e
      (Lexes.keyword husing (Lexes.keyword hword hcolumns hopens) ((opens_keyword hword).append _))
      ((opens_keyword husing).append _)
    refine ⟨_, by simpa using hl, fun unique => ?_⟩
    have htable := @table?_nameTokens e (.word "using" :: .word (Text.lower method) :: .mark '('
      :: (listTokens i.columns ++ [.mark ')'])) (by simp)
    simp [createIndex?, htable, columns?_listTokens]

theorem says_createIndex (e : Entity) {i : Index} (hi : i.isConstraint = false)
    (hm : ∀ method ∈ i.method, isKeyword method (Text.lower method) = true) :
    Says (IndexChange.create e.quotedTable i).text
      (.createIndex e.tableParts i.isUnique i.name (i.method.map Text.lower) i.columns) := by
  obtain ⟨ts, hl, hts⟩ := lexes_indexTail e hm
  have hopens : Opens (indexTail e i).toList := by
    unfold indexTail
    simp only [String.toList_append, List.append_assoc]
    exact @opens_cons 'O' _ (by decide) (by decide)
  have htext : (IndexChange.create e.quotedTable i).text = "CREATE "
      ++ (if i.isUnique then "UNIQUE " else "") ++ "INDEX " ++ quoteIdentifier i.name ++ " "
      ++ indexTail e i := by
    rw [← String.toList_inj]
    simp only [IndexChange.text, hi, indexTail, Bool.false_eq_true, if_false, String.toList_append,
      List.append_assoc]
    cases i.method <;> rfl
  rw [htext]
  -- With and without `UNIQUE` the statement begins with another phrase.
  cases hunique : i.isUnique with
  | true =>
    have hname := lexes_named "CREATE UNIQUE INDEX " [("CREATE", "create"), ("UNIQUE", "unique"),
      ("INDEX", "index")] rfl (by decide) i.name
    have hstatement := Lexes.blank hname hl hopens
    exact ⟨_, by simpa using hstatement, by simp [change?, hts]⟩
  | false =>
    have hname := lexes_named "CREATE INDEX " [("CREATE", "create"), ("INDEX", "index")] rfl
      (by decide) i.name
    have hstatement := Lexes.blank hname hl hopens
    exact ⟨_, by simpa using hstatement, by simp [change?, hts]⟩

/-- Words that are in lower case already are the words they are read as. -/
theorem words_of_isKeyword {method : Option String}
    (h : ∀ word ∈ method, isKeyword word word = true) :
    (∀ word ∈ method, isKeyword word (Text.lower word) = true) ∧ method.map Text.lower = method := by
  cases method with
  | none => simp
  | some word =>
    have hword := h word rfl
    have hlower := lower_of_isKeyword hword
    simp [hlower, hword]

/-! ## Queries -/

theorem exactly_append (cs rest : List Char) : Scan.exactly cs (cs ++ rest) = some ((), rest) := by
  induction cs with
  | nil => rfl
  | cons c cs ih => rw [List.cons_append, Scan.exactly, if_pos rfl, ih]

theorem constant?_quoteText (s : String) {rest : List Char} (hq : rest.head? ≠ some '\'')
    (hg : gap .sameLine rest = none) :
    constant? ((quoteText s).toList ++ rest) = some (s, rest) := by
  rw [constant?, toList_quoteText, lexeme_constantChars _ hq hg, String.ofList_toList]

/-- A constant with a blank and something else behind it. -/
theorem constant?_blank (s : String) {c : Char} (hs : isSpace c = false) (hm : c ≠ '-')
    (rest : List Char) :
    constant? ((quoteText s).toList ++ ' ' :: c :: rest) = some (s, ' ' :: c :: rest) := by
  have hgap : gap .sameLine (c :: rest) = none := opens_cons [] hs hm rest
  refine constant?_quoteText s (by simp) ?_
  rw [← hgap]
  rfl

/-- The schema in a query is a constant, or a call of a function if there is none. -/
theorem schema?_of_option (schema : Option String) {c : Char} (hs : isSpace c = false) (hm : c ≠ '-')
    (rest : List Char) :
    schema? ((match schema with
      | some schema => quoteText schema
      | none => "current_schema()").toList ++ ' ' :: c :: rest) = some (schema, ' ' :: c :: rest) := by
  cases schema with
  | none =>
    dsimp only
    rw [schema?, Scan.or, Scan.map, exactly_append]
    rfl
  | some schema =>
    have hnone : Scan.exactly "current_schema()".toList
        ((quoteText schema).toList ++ ' ' :: c :: rest) = none := by
      rw [toList_quoteText]
      rfl
    dsimp only
    rw [schema?, Scan.or, Scan.map, hnone, Scan.map, constant?_blank schema hs hm]
    rfl

theorem columnsQuery_eq (e : Entity) : Catalog.columnsQuery e = columnsQueryStart
    ++ quoteText e.tableParts.2 ++ " AND table_schema = " ++ (match e.tableParts.1 with
      | some schema => quoteText schema
      | none => "current_schema()") ++ " ORDER BY ordinal_position" := by
  unfold Catalog.columnsQuery columnsQueryStart
  rfl

theorem columnsQuery?_columnsQuery (e : Entity) :
    columnsQuery? (Catalog.columnsQuery e).toList = some e.tableParts := by
  obtain ⟨middle, hmiddle⟩ : ∃ cs, " AND table_schema = ".toList = ' ' :: 'A' :: cs := ⟨_, rfl⟩
  obtain ⟨last, hlast⟩ : ∃ cs, " ORDER BY ordinal_position".toList = ' ' :: 'O' :: cs := ⟨_, rfl⟩
  have hend := exactly_append (' ' :: 'O' :: last) []
  rw [List.append_nil] at hend
  rw [columnsQuery_eq]
  simp only [String.toList_append, List.append_assoc]
  rw [columnsQuery?, exactly_append, hmiddle, hlast, List.cons_append, List.cons_append]
  simp only [Option.bind_eq_bind, Option.bind_some]
  rw [constant?_blank _ (by decide) (by decide), Option.bind_some, ← List.cons_append,
    ← List.cons_append, exactly_append, Option.bind_some,
    schema?_of_option _ (by decide) (by decide), Option.bind_some, hend]
  rfl

theorem indexesQuery_eq (e : Entity) : Catalog.indexesQuery e
    = indexesQueryStart ++ (quoteText e.quotedTable ++ indexesQueryEnd) := by
  unfold Catalog.indexesQuery indexesQueryStart indexesQueryEnd
  simp only [String.append_assoc]

theorem toList_indexesQueryEnd : ∃ rest, indexesQueryEnd.toList = ':' :: rest := by
  obtain ⟨middle, hmiddle⟩ : ∃ cs, "::regclass AND indisprimary = false) a) b ".toList = ':' :: cs :=
    ⟨_, rfl⟩
  unfold indexesQueryEnd
  simp only [String.toList_append, List.append_assoc]
  rw [hmiddle, List.cons_append]
  exact ⟨_, rfl⟩

/-- The name of a table in the query for its indexes, with what is behind it. -/
theorem constant?_indexesQuery (e : Entity) :
    constant? ((quoteText e.quotedTable).toList ++ indexesQueryEnd.toList)
      = some (e.quotedTable, indexesQueryEnd.toList) := by
  obtain ⟨rest, hrest⟩ := toList_indexesQueryEnd
  have hgap : gap .sameLine (':' :: rest) = none := opens_cons [] (by decide) (by decide) rest
  rw [hrest]
  exact constant?_quoteText e.quotedTable (by simp) hgap

theorem indexesQuery?_indexesQuery (e : Entity) :
    indexesQuery? (Catalog.indexesQuery e).toList = some e.tableParts := by
  have htokens : tokens e.quotedTable.toList = _ := (lexes_quoteQualified e.table).tokens_eq
  have htable := @table?_nameTokens e [] (by simp)
  rw [List.append_nil] at htable
  rw [indexesQuery_eq, String.toList_append, String.toList_append, indexesQuery?, exactly_append]
  simp only [Option.bind_eq_bind, Option.bind_some, constant?_indexesQuery, htokens, htable]

theorem prefix_of_exactly {ws cs : List Char} {found : Unit × List Char}
    (h : Scan.exactly ws cs = some found) : ws <+: cs := by
  induction ws generalizing cs with
  | nil => exact List.nil_prefix
  | cons w ws ih =>
    cases cs with
    | nil => cases h
    | cons c cs =>
      rw [Scan.exactly] at h
      split at h
      · next hc => exact hc ▸ List.cons_prefix_cons.mpr ⟨rfl, ih h⟩
      · cases h

/-- The query for indexes is no query for columns. -/
theorem columnsQuery?_indexesQuery (e : Entity) :
    columnsQuery? (Catalog.indexesQuery e).toList = none := by
  have hcolumns : "SELECT co".toList <+: columnsQueryStart.toList := by
    unfold columnsQueryStart
    simp only [String.toList_append, List.append_assoc]
    exact (show "SELECT co".toList <+: _ by decide).trans (List.prefix_append _ _)
  have hindexes : "SELECT c.".toList <+: (Catalog.indexesQuery e).toList := by
    unfold Catalog.indexesQuery
    simp only [String.toList_append, List.append_assoc]
    exact (show "SELECT c.".toList <+: _ by decide).trans (List.prefix_append _ _)
  unfold columnsQuery?
  cases h : Scan.exactly columnsQueryStart.toList (Catalog.indexesQuery e).toList with
  | none => rfl
  | some found =>
    have hboth := hcolumns.trans (prefix_of_exactly h)
    have heq := List.prefix_of_prefix_length_le hboth hindexes (by decide)
    exact absurd (heq.eq_of_length (by decide)) (by decide)

/-! ## All statements of an entity -/

theorem of_mem_between {e : Entity} {live : List LiveIndex} {c : IndexChange}
    (h : c ∈ IndexChange.between e live) :
    (∃ i ∈ e.indexes, c = .create e.quotedTable i)
      ∨ ∃ name constraint, c = .drop e.quotedTable name constraint := by
  unfold IndexChange.between at h
  rcases List.mem_append.mp h with h | h
  · rcases List.mem_append.mp h with h | h
    · obtain ⟨i, hi, hc⟩ := List.mem_filterMap.mp h
      unfold IndexChange.addition? at hc
      split at hc
      · cases hc
      · exact Or.inl ⟨i, hi, (Option.some.inj hc).symm⟩
    · obtain ⟨i, hi, hc⟩ := List.mem_flatMap.mp h
      unfold IndexChange.replacement at hc
      split at hc
      · split at hc
        · rcases List.mem_cons.mp hc with hc | hc
          · exact Or.inr ⟨_, _, hc⟩
          · exact Or.inl ⟨i, hi, List.mem_singleton.mp hc⟩
        · cases hc
      · cases hc
  · obtain ⟨l, -, hc⟩ := List.mem_filterMap.mp h
    unfold IndexChange.removal? at hc
    split at hc
    · cases hc
    · exact Or.inr ⟨_, _, (Option.some.inj hc).symm⟩

/-- The reader takes every statement that an entity can need for what it says, as long as the access
methods of its indexes are plain words. -/
theorem understands {e : Entity} (hm : ∀ i ∈ e.indexes, i.isConstraint = false →
    ∀ method ∈ i.method, isKeyword method method = true) : Understands read e where
  columns := by
    rw [read, columnsQuery?_columnsQuery, Option.map_some, Option.some_or]
  indexes := by
    rw [read, columnsQuery?_indexesQuery, indexesQuery?_indexesQuery, Option.map_none,
      Option.none_or, Option.map_some, Option.some_or]
  createTable := read_createTable e
  alterTable _ _ h := read_alterTable (fun _ => proper_of_mem_between) h
  index live c hc := by
    rcases of_mem_between hc with ⟨i, hi, rfl⟩ | ⟨name, constraint, rfl⟩
    · rw [IndexChange.request]
      cases hconstraint : i.isConstraint with
      | true => exact (says_addConstraint e hconstraint).read (Changes.indexChange _)
      | false =>
        obtain ⟨hword, hlower⟩ := words_of_isKeyword (hm i hi hconstraint)
        have hsays := says_createIndex e hconstraint hword
        rw [hlower] at hsays
        exact hsays.read (Changes.indexChange _)
    · rw [IndexChange.request]
      cases constraint with
      | true => exact (says_dropConstraint e name).read (Changes.indexChange _)
      | false => exact (says_dropIndex e name).read (Changes.indexChange _)

end Ddl

end EntityStore
