import EntityStore.Proofs.Change.Columns
import EntityStore.Proofs.Ddl.Reading

/-!
# A database that reads every statement

The database that keeps tables, with nothing left open: statements are read by their tokens, a type
is reported as the catalog does it, and nothing is refused. Types of text have a length, numbers of
a given precision have a precision and a scale, and a floating-point type is one of two, by the
number of its bits. Of no other type is the size reported, so a column comes back under the type that is
expected for its attribute unless it has a size that is lost (`sameLetters_reportedType_iff`).
-/

set_option autoImplicit false

namespace EntityStore

/-- Whether an attribute has a size of which the catalog says nothing. -/
def Attribute.LosesSize (a : Attribute) : Prop :=
  a.size ≠ none ∧ (a.type = .text ∨ a.type = .number .integer)

instance (a : Attribute) : Decidable a.LosesSize := inferInstanceAs (Decidable (_ ∧ _))

theorem Attribute.sizeSuffix_eq_empty_iff {a : Attribute} : a.sizeSuffix = "" ↔ a.size = none := by
  unfold sizeSuffix
  cases a.size with
  | none => simp
  | some n => simp [← String.toList_inj]

/-- A text with something behind it is another text, also without regard to letter case. -/
theorem Text.sameLetters_append_iff {s t : String} : sameLetters s (s ++ t) = true ↔ t = "" := by
  rw [sameLetters, beq_iff_eq, String.toList_append, List.map_append]
  constructor
  · intro h
    have hlength := congrArg List.length h
    rw [List.length_append, List.length_map, List.length_map] at hlength
    exact String.toList_eq_nil_iff.mp (List.eq_nil_of_length_eq_zero (by omega))
  · rintro rfl
    simp

namespace Ddl

/-- A type's name without its size, and the numbers of the size. -/
def splitType (type : String) : String × List (Option Nat) :=
  let (name, size) := type.toList.span (· != '(')
  (String.ofList name, ((size.drop 1).takeWhile (· != ')')).splitOn ','
    |>.map Numeral.nat?)

/-- How the catalog reports a type. -/
def reportType (type : String) : ReportedType :=
  let (name, sizes) := splitType type
  let first := (sizes[0]?).join
  let second := (sizes[1]?).join
  match name with
  | "varchar" => ⟨"varchar", first, none, none⟩
  | "text" => ⟨"text", none, none, none⟩
  | "integer" => ⟨"int4", none, some 32, some 0⟩
  | "float" =>
    if first.any (· ≤ 24) then ⟨"float4", none, some 24, none⟩ else ⟨"float8", none, some 53, none⟩
  | "numeric" => ⟨"numeric", none, first, first.map fun _ => second.getD 0⟩
  | "boolean" => ⟨"bool", none, none, none⟩
  | "timestamp with time zone" => ⟨"timestamptz", none, none, none⟩
  | other => ⟨other, none, none, none⟩

/-- The database with nothing left open. -/
def database : Database where
  read := read
  report := reportType
  schema := "public"
  refuse _ _ := none

theorem read_database : database.read = read := by
  simp only [database]

/-! ## Declared types -/

theorem splitType_sized {word : String} (hword : '(' ∉ word.toList) (a : Attribute) :
    splitType (word ++ a.sizeSuffix) = (word, [a.size]) := by
  have hbefore : ∀ c ∈ word.toList, (c != '(') = true := by
    intro c hc
    exact bne_iff_ne.mpr fun h => hword (h ▸ hc)
  unfold splitType Attribute.sizeSuffix
  cases a.size with
  | none =>
    rw [String.append_empty, ← List.append_nil word.toList, Sql.span_append hbefore (by simp)]
    exact congrArg (·, [none]) String.ofList_toList
  | some n =>
    have hdigits : ∀ c ∈ Nat.toDigits 10 n, c.isDigit = true := fun _ => Numeral.isDigit_toDigits
    have hchars : (word ++ ("(" ++ Numeral.ofNat n ++ ")")).toList
        = word.toList ++ ('(' :: (Nat.toDigits 10 n ++ [')'])) := by
      simp [Numeral.toList_ofNat]
    -- No digit is a bracket or a comma, so the digits are cut off as one piece.
    have hclose : ∀ c ∈ Nat.toDigits 10 n, (c != ')') = true := by
      intro c hc
      refine bne_iff_ne.mpr fun h => ?_
      have hdigit := hdigits c hc
      rw [h] at hdigit
      cases hdigit
    have hcomma : ',' ∉ Nat.toDigits 10 n := fun h => by cases hdigits _ h
    have hnumber : Numeral.nat? (Nat.toDigits 10 n) = some n :=
      Numeral.nat?_eq_some_iff.mpr ⟨Nat.toDigits_ne_nil, hdigits, Numeral.value_toDigits n⟩
    dsimp only
    rw [hchars, Sql.span_append hbefore (by simp), String.ofList_toList]
    simp only [List.drop_succ_cons, List.drop_zero]
    rw [List.takeWhile_append_of_pos hclose, List.takeWhile_cons_of_neg (by simp), List.append_nil,
      List.splitOn_eq_singleton hcomma, List.map_singleton, hnumber]

/-- How the column of an attribute is reported. Only texts of bounded length and decimal numbers keep
their size, and a floating-point number keeps which side of twenty-four bits it is on. -/
theorem reportType_columnType (a : Attribute) : reportType a.columnType =
    match a.type with
    | .string | .json | .array => ⟨"varchar", a.size, none, none⟩
    | .text => ⟨"text", none, none, none⟩
    | .number .integer => ⟨"int4", none, some 32, some 0⟩
    | .number .float =>
      if a.size.any (· ≤ 24) then ⟨"float4", none, some 24, none⟩ else ⟨"float8", none, some 53, none⟩
    | .number .numeric => ⟨"numeric", none, a.size, a.size.map fun _ => 0⟩
    | .date => ⟨"timestamptz", none, none, none⟩
    | .boolean => ⟨"bool", none, none, none⟩ := by
  unfold Attribute.columnType
  cases a.type with
  | date | boolean =>
    dsimp only
    decide
  | number kind =>
    cases kind <;> (unfold reportType; rw [splitType_sized (by decide)]) <;> rfl
  | string | text | json | array =>
    unfold reportType
    rw [splitType_sized (by decide)]
    rfl

variable {a : Attribute} {c : Column}

/-- A column whose size is lost is reported under the type without the size. -/
theorem reportedType_of_losesSize (hc : c.type = reportType a.columnType) (h : a.LosesSize) :
    a.reportedType = c.live.canonicalType ++ a.sizeSuffix := by
  rw [reportType_columnType] at hc
  obtain ⟨-, htype | htype⟩ := h
  · have hword : c.live.canonicalType = "text" := by
      rw [htype] at hc
      rw [LiveColumn.canonicalType, Column.live, hc]
      rfl
    rw [hword, Attribute.reportedType, Attribute.columnType, htype]
  · have hword : c.live.canonicalType = "integer" := by
      rw [htype] at hc
      rw [LiveColumn.canonicalType, Column.live, hc]
      rfl
    rw [hword, Attribute.reportedType, Attribute.columnType, htype]

/-- Every other column is reported under the type that is expected. -/
theorem canonicalType_of_not_losesSize (hsize : ∀ n, a.size = some n → n ≤ Numeral.maxNat32)
    (hc : c.type = reportType a.columnType) (h : ¬ a.LosesSize) :
    c.live.canonicalType = a.reportedType := by
  have hread : readCount a.size = a.size := by
    cases hn : a.size with
    | none => rfl
    | some n => simp [readCount, hsize n hn]
  rw [reportType_columnType] at hc
  rw [LiveColumn.canonicalType, Column.live, hc]
  unfold Attribute.reportedType Attribute.columnType Attribute.sizeSuffix
  cases htype : a.type with
  | date | boolean => cases a.size <;> rfl
  | string | json | array =>
    have hword : declaredTypeName "varchar" = "varchar" := rfl
    simp only [hword, hread, true_or, if_true]
    cases a.size <;> simp [← String.toList_inj]
  -- Every size of a text is lost, and so is that of a whole number: here neither has one.
  | text =>
    cases hn : a.size with
    | none => rfl
    | some n => exact absurd ⟨by simp [hn], .inl htype⟩ h
  | number kind =>
    cases kind with
    | integer =>
      cases hn : a.size with
      | none => rfl
      | some n => exact absurd ⟨by simp [hn], .inr htype⟩ h
    | float =>
      cases a.size with
      | none => rfl
      -- Of a floating-point number the size says which of two types it is.
      | some n => by_cases hn : n ≤ 24 <;> simp only [Option.any_some, hn, decide_true, decide_false] <;> rfl
    | numeric =>
      simp only [declaredTypeName, hread]
      cases a.size with
      | none => rfl
      | some n => simp [readCount, Option.filter, ← String.toList_inj]

/-- A column is reported under the type that is expected for its attribute unless the size is lost. -/
theorem sameLetters_reportedType_iff (hsize : ∀ n, a.size = some n → n ≤ Numeral.maxNat32)
    (hc : c.type = reportType a.columnType) :
    Text.sameLetters c.live.canonicalType a.reportedType = true ↔ ¬ a.LosesSize := by
  constructor
  · intro hsame hlost
    rw [reportedType_of_losesSize hc hlost, Text.sameLetters_append_iff,
      Attribute.sizeSuffix_eq_empty_iff] at hsame
    exact hlost.1 hsame
  · intro hkept
    rw [canonicalType_of_not_losesSize hsize hc hkept]
    exact Text.sameLetters_self _

/-- Every type without a size is reported under the name that is expected for it. -/
theorem reports_of_size_eq_none {a : Attribute} (h : a.size = none) : database.Reports a := by
  intro c hc
  have hsize : ∀ n, a.size = some n → n ≤ Numeral.maxNat32 := by
    intro n hn
    cases h.symm.trans hn
  exact (sameLetters_reportedType_iff hsize hc).mpr fun hlost => hlost.1 h

example : (reportType "numeric(10)", reportType "varchar")
    = (⟨"numeric", none, some 10, some 0⟩, ⟨"varchar", none, none, none⟩) := by
  decide

end Ddl

end EntityStore
