import EntityStore.Proofs.Sql.Stored

/-!
# What an attribute makes of a value

An attribute stores a value, takes it for nothing, or refuses it. Which of the three, is decided by
the type of the attribute and is said here without any text: `Value.absentFor` is what counts as
nothing, and `Value.refusal?` is what only a date does, to say no and why. All encoding follows these
two. What is refused is an error and nothing else is (`error?_encode`); what counts as nothing becomes
the word for absence and nothing else does (`comparand_eq_null_iff`, `storing_eq_default_iff`).
-/

set_option autoImplicit false

namespace EntityStore

/-! ## The error of a result -/

section Errors

variable {ε α β : Type}

/-- The error that a result is, if it is one. -/
def error? : Except ε α → Option ε
  | .error e => some e
  | .ok _ => none

theorem error?_eq_some_iff {x : Except ε α} {e : ε} : error? x = some e ↔ x = .error e := by
  cases x <;> simp [error?]

theorem error?_eq_none_iff {x : Except ε α} : error? x = none ↔ ∃ a, x = .ok a := by
  cases x <;> simp [error?]

/-- Of two results in a row the error of the first comes first. -/
theorem error?_bind {x : Except ε α} {f : α → Except ε β} {rest : Option ε}
    (h : ∀ a, x = .ok a → error? (f a) = rest) : error? (x >>= f) = (error? x).or rest := by
  cases x with
  | error e => rfl
  | ok a => exact h a rfl

/-- What is done with a result and cannot fail adds no error. -/
theorem error?_bind_ok {x : Except ε α} {f : α → Except ε β}
    (h : ∀ a, x = .ok a → error? (f a) = none) : error? (x >>= f) = error? x :=
  (error?_bind h).trans Option.or_none

theorem error?_map (f : α → β) (x : Except ε α) : error? (x.map f) = error? x := by
  cases x <;> rfl

end Errors

/-! ## Three kinds of values -/

namespace Value

/-- Whether a value counts as nothing for a type. -/
def absentFor : AttributeType → Value → Bool
  | _, .null => true
  | .number _, .bool b | .date, .bool b => !b
  | .number _, .text s | .date, .text s => s.toList.all Text.isBlank
  | .date, .int n => n == 0
  | .date, .float x => x.isZero
  | _, _ => false

/-- Why a value cannot be stored under a type, if it cannot: it is to be a date, and is of a kind that
is no date, or too far from today, or a text in no notation for dates. -/
def refusal? : AttributeType → Value → Option Error
  | .date, .bool true => some (.valueNotDate "true")
  | .date, .document d => some (.valueNotDate d.compact)
  | .date, .int ms => if (Instant.ofMillis? ms).isSome then none else some (.instantOutOfRange ms)
  | .date, .float x =>
    if !x.isFinite then some (.valueNotDate (Layout.query.text x))
    else if (Instant.ofMillis? x.truncate64).isSome then none
    else some (.instantOutOfRange x.truncate64)
  | .date, .text s =>
    if s.toList.all Text.isBlank || (Instant.ofText? (Text.trim s)).isSome then none
    else some (.textNotDate s)
  | _, _ => none

end Value

/-- The error of the first value that is refused. -/
def firstRefusal? (values : List (Attribute × Value)) : Option Error :=
  values.findSome? fun value => value.2.refusal? value.1.type

theorem firstRefusal?_append (first rest : List (Attribute × Value)) :
    firstRefusal? (first ++ rest) = (firstRefusal? first).or (firstRefusal? rest) :=
  List.findSome?_append

theorem exists_of_firstRefusal? {values : List (Attribute × Value)} {err : Error}
    (h : firstRefusal? values = some err) :
    ∃ a v, (a, v) ∈ values ∧ v.refusal? a.type = some err := by
  obtain ⟨⟨a, v⟩, hmem, hv⟩ := List.exists_of_findSome?_eq_some h
  exact ⟨a, v, hmem, hv⟩

theorem firstRefusal?_eq_none_iff {values : List (Attribute × Value)} :
    firstRefusal? values = none ↔ ∀ a v, (a, v) ∈ values → v.refusal? a.type = none := by
  simp [firstRefusal?, List.findSome?_eq_none_iff]

/-! ## Blank texts and zeros -/

theorem Text.isEmpty_trim (s : String) : (trim s).isEmpty = s.toList.all isBlank := by
  have htrim : trimBoth s.toList = [] ↔ trimLeft s.toList = [] := by
    refine ⟨fun h => ?_, fun h => by rw [trimBoth, h]; rfl⟩
    cases hleft : trimLeft s.toList with
    | nil => rfl
    | cons c cs =>
      -- The first character that is left is not blank, so cutting behind it leaves it.
      have hhead := List.head?_dropWhile_not isBlank s.toList
      rw [trimBoth, trimRight, List.reverse_eq_nil_iff] at h
      have hall := trimLeft_eq_nil_iff.mp h c (by rw [hleft]; simp)
      rw [trimLeft] at hleft
      rw [hleft] at hhead
      simp [hall] at hhead
  rw [Bool.eq_iff_iff, List.all_eq_true, ← trimLeft_eq_nil_iff, ← htrim, String.isEmpty_iff, trim,
    String.ofList_eq_empty_iff]

theorem Double.truncate64_of_isZero {x : Double} (h : x.isZero = true) : x.truncate64 = 0 := by
  cases x with
  | nan | infinity negative => cases h
  | finite negative m e =>
    cases m with
    | succ m => cases h
    | zero =>
      have hzero : ∀ a b, magnitude 0 e = (a, b) → a / b = 0 := by
        intro a b hab
        unfold magnitude at hab
        split at hab <;> (cases hab; simp)
      rw [truncate64]
      cases hab : magnitude 0 e with
      | mk a b =>
        simp only [hzero a b hab]
        cases negative <;> decide

namespace Sql

/-! ## Dates -/

theorem isSome_ofMillis?_zero : (Instant.ofMillis? 0).isSome = true := by
  decide

theorem error?_instantOfMillis (ms : Int) : error? (instantOfMillis ms)
    = if (Instant.ofMillis? ms).isSome then none else some (.instantOutOfRange ms) := by
  unfold instantOfMillis
  cases Instant.ofMillis? ms <;> rfl

/-- A date is refused exactly for the reasons for which it can be. -/
theorem error?_toInstant {v : Value} (hv : v.isNull = false) :
    error? (toInstant v) = v.refusal? .date := by
  cases v with
  | null => cases hv
  | bool b => cases b <;> rfl
  | date t | document d => rfl
  | int ms =>
    simp only [toInstant, Value.refusal?]
    split
    · next h => rw [h, if_pos isSome_ofMillis?_zero]; rfl
    · rw [error?_map, error?_instantOfMillis]
  | float x =>
    simp only [toInstant, Value.refusal?, Value.shown]
    split
    · rfl
    split
    · next h =>
      rw [Double.truncate64_of_isZero h, if_pos isSome_ofMillis?_zero]
      rfl
    · rw [error?_map, error?_instantOfMillis]
  | text s =>
    simp only [toInstant, Value.refusal?, Text.isEmpty_trim]
    cases s.toList.all Text.isBlank with
    | true => rfl
    | false => cases Instant.ofText? (Text.trim s) <;> rfl

/-- A date is nothing exactly if it counts as that. -/
theorem toInstant_eq_none_iff {v : Value} (hv : v.isNull = false) :
    toInstant v = .ok none ↔ v.absentFor .date = true := by
  cases v with
  | null => cases hv
  | bool b => cases b <;> simp [toInstant, Value.absentFor]
  | date t | document d => simp [toInstant, Value.absentFor]
  | int ms =>
    simp only [toInstant, Value.absentFor, beq_iff_eq]
    split
    · next h => simp [h]
    · next h => simp [h, map_eq_ok_iff]
  -- What is not finite is refused before it is compared with zero.
  | float x =>
    simp only [toInstant, Value.absentFor]
    split
    · next h =>
      have hzero : x.isZero = false := by
        cases x with
        | finite negative m e => cases h
        | nan | infinity negative => rfl
      simp [hzero]
    split
    · next h => simp [h]
    · next h => simp [h, map_eq_ok_iff]
  | text s =>
    simp only [toInstant, Value.absentFor, Text.isEmpty_trim]
    cases s.toList.all Text.isBlank with
    | true => simp
    | false => cases Instant.ofText? (Text.trim s) <;> simp

/-! ## All types -/

theorem numberConstant_eq_null_iff {kind : NumberKind} {v : Value} (hv : v.isNull = false) :
    numberConstant v = .null ↔ v.absentFor (.number kind) = true := by
  cases v with
  | null => cases hv
  | bool b => cases b <;> simp [numberConstant, Constant.ofValue, Value.absentFor]
  | int n | date t | document d => simp [numberConstant, Constant.ofValue, Value.absentFor]
  | float x => simp [numberConstant, Constant.ofValue, Value.absentFor, Constant.ofDouble_ne_null]
  | text s =>
    simp only [numberConstant, numberTextConstant, Value.absentFor, Text.isEmpty_trim]
    cases s.toList.all Text.isBlank with
    | true => simp
    | false =>
      cases Numeral.int64? (Text.trim s) with
      | some n => simp
      | none =>
        cases Double.ofText? (Text.trim s) with
        | none => simp
        | some x => by_cases hx : x.isFinite <;> simp [hx, Constant.ofDouble_ne_null]

/-- A value denotes nothing for an attribute exactly if it counts as nothing for its type. -/
theorem comparand_eq_null_iff {a : Attribute} {v : Value} :
    comparand a v = .ok .null ↔ v.absentFor a.type = true := by
  unfold comparand
  split
  · next hnull =>
    cases Value.isNull_iff.mp hnull
    simp [Value.absentFor]
  next hnull =>
  have hv : v.isNull = false := Bool.eq_false_iff.mpr hnull
  cases a.type with
  | json | array => cases v <;> simp_all [Value.absentFor, Value.isNull]
  | string | text | boolean =>
    have hne := Constant.ofValue_ne_null hv
    cases v <;> simp_all [Value.absentFor, Value.isNull]
  | number kind => simpa using numberConstant_eq_null_iff hv
  | date =>
    rw [← toInstant_eq_none_iff hv, map_eq_ok_iff]
    constructor
    · rintro ⟨found, hfound, h⟩
      cases found with
      | none => exact hfound
      | some t => cases h
    · exact fun h => ⟨none, h, rfl⟩

/-- A value denotes something for an attribute unless it is refused. -/
theorem error?_comparand (a : Attribute) (v : Value) :
    error? (comparand a v) = v.refusal? a.type := by
  unfold comparand
  split
  · next hnull =>
    cases Value.isNull_iff.mp hnull
    cases a.type <;> rfl
  next hnull =>
  have hv : v.isNull = false := Bool.eq_false_iff.mpr hnull
  cases a.type with
  | date => exact (error?_map _ _).trans (error?_toInstant hv)
  | json | array | string | text | boolean | number kind => rfl

/-- A value has a literal unless it is refused, whatever the literal of absence. -/
theorem error?_encode (absent : String) (a : Attribute) (v : Value) :
    error? (encode absent a v) = v.refusal? a.type := by
  unfold encode
  split
  · next hnull =>
    cases Value.isNull_iff.mp hnull
    cases a.type <;> rfl
  next hnull =>
  have hv : v.isNull = false := Bool.eq_false_iff.mpr hnull
  cases a.type with
  | date =>
    rw [← error?_toInstant hv]
    refine error?_bind_ok fun found _ => ?_
    cases found <;> rfl
  | json | array | string | text | boolean | number kind => rfl

theorem error?_stored (a : Attribute) (v : Value) : error? (stored a v) = v.refusal? a.type :=
  error?_encode _ a v

theorem error?_compared (a : Attribute) (v : Value) : error? (compared a v) = v.refusal? a.type :=
  error?_encode _ a v

/-! ## The words for absence -/

theorem Cell.ofConstant_eq_default_iff {a : Attribute} {c : Constant} :
    Cell.ofConstant a c = .default ↔ a.autoIncrement = true ∧ c = .null := by
  cases c with
  | null =>
    rw [ofConstant]
    split <;> simp_all
  | _ => simp [ofConstant]

/-- The column's own default is stored exactly for what counts as nothing where the table counts the
attribute up itself. -/
theorem storing_eq_default_iff {a : Attribute} {v : Value} :
    storing a v = .ok .default ↔ a.autoIncrement = true ∧ v.absentFor a.type = true := by
  rw [storing, map_eq_ok_iff, ← comparand_eq_null_iff]
  constructor
  · rintro ⟨c, hc, h⟩
    obtain ⟨hauto, rfl⟩ := Cell.ofConstant_eq_default_iff.mp h
    exact ⟨hauto, hc⟩
  · rintro ⟨hauto, h⟩
    exact ⟨.null, h, Cell.ofConstant_eq_default_iff.mpr ⟨hauto, rfl⟩⟩

/-- The word for a default is no constant. -/
theorem Written.ne_default {c : Constant} {text : String} (h : Written c text) : text ≠ default := by
  rintro rfl
  obtain ⟨ts, hlex, hread⟩ := h.reads
  obtain ⟨us, hlex', hcell, -⟩ := isEntry_default.reads
  cases hlex.tokens_eq.symm.trans hlex'.tokens_eq
  have hall := hread []
  rw [List.append_nil] at hall
  unfold cell? at hcell
  split at hcell
  · cases hall
  · rw [hall] at hcell
    cases hcell

/-- A literal for a row is one of the words for absence exactly if the value counts as nothing. -/
theorem stored_eq_absent_iff {a : Attribute} {v : Value} {text : String}
    (h : stored a v = .ok text) : text = null ∨ text = default ↔ v.absentFor a.type = true := by
  obtain ⟨c, hc, hwritten⟩ := written_encode h
  rw [← comparand_eq_null_iff, hc, Except.ok.injEq]
  obtain ⟨rfl, htext⟩ | ⟨hne, hwritten⟩ := hwritten
  · rw [htext]
    simp only [iff_true]
    split
    · exact .inr rfl
    · exact .inl rfl
  · rw [hwritten.eq_null_iff]
    exact or_iff_left hwritten.ne_default

end Sql

end EntityStore
