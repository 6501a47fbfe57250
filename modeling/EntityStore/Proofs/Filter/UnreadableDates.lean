import EntityStore.Proofs.Calendar.Notations
import EntityStore.Proofs.Filter.Refusals

/-!
# A filter fails for a date that cannot be read

Of all that is in a filter only one thing can be wrong: a declared date is compared with a value that is
neither nothing nor an instant. How deep in the filter that is makes no difference, and neither does
anything else that is there: members of a set, patterns, trusted text and clauses on names that nobody
declared are never looked at. Where there are several such values, the one that is written first decides
what the error says, the lower bound of a range before the upper one (`fails_for_first_unreadable_date`).

Which values cannot be read is said by `Value.Unreadable`, case by case, with bounds for the number of
milliseconds. For a text it is said by what the four notations look like, and not by their readers.
-/

set_option autoImplicit false

namespace EntityStore

/-! ## Values that are no dates -/

namespace Instant

/-- Whether a number of milliseconds is before the first day that there is, or behind the last. -/
def OutOfRange (ms : Int) : Prop := ms < firstSecond * 1000 ∨ lastSecond * 1000 + 999 < ms

/-- Whether a text is in none of the four notations of an instant. -/
structure InNoNotation (cs : List Char) : Prop where
  timestamp : ∀ t, ¬ IsTimestamp cs t
  withBlanks : ∀ t, ¬ IsDateTime [] cs t
  withMark : ∀ t, ¬ IsDateTime ['T'] cs t
  dateOnly : ∀ t, ¬ IsMidnight cs t

theorem ofMillis?_eq_none_iff {ms : Int} : ofMillis? ms = none ↔ OutOfRange ms := by
  have hnanos : (ms % 1000).toNat * 1000000 < secondNanos := by
    unfold secondNanos
    omega
  unfold ofMillis? ofParts? OutOfRange
  rw [dite_eq_right_iff]
  constructor
  · intro h
    by_contra hrange
    have hsome := h ⟨⟨by omega, by omega⟩, .inl hnanos⟩
    cases hsome
  · rintro hrange ⟨⟨hfirst, hlast⟩, -⟩
    omega

theorem ofText?_eq_none_iff {s : String} : ofText? s = none ↔ InNoNotation s.toList := by
  rw [ofText?, ofChars?, Option.orElse_eq_none, Option.orElse_eq_none, Option.orElse_eq_none]
  simp only [Option.eq_none_iff_forall_ne_some, ne_eq, timestamp?_eq_some_iff,
    dateTime?_blanks_eq_some_iff, dateTime?_mark_eq_some_iff, midnight?_eq_some_iff]
  constructor
  · rintro ⟨htimestamp, hblanks, hmark, hdate⟩
    exact ⟨htimestamp, hblanks, hmark, hdate⟩
  · rintro ⟨htimestamp, hblanks, hmark, hdate⟩
    exact ⟨htimestamp, hblanks, hmark, hdate⟩

end Instant

/-- Whether a value is neither nothing nor a date, and what is said about it. -/
inductive Value.Unreadable : Value → Error → Prop
  | yes : Unreadable (.bool true) (.valueNotDate "true")
  | document (d : Document) : Unreadable (.document d) (.valueNotDate d.compact)
  | notFinite {x : Double} (hx : x.isFinite = false) :
    Unreadable (.float x) (.valueNotDate (Layout.query.text x))
  | millis {ms : Int} (hms : Instant.OutOfRange ms) : Unreadable (.int ms) (.instantOutOfRange ms)
  /-- What is behind the point of a number of milliseconds is cut off. -/
  | fraction {x : Double} (hx : x.isFinite = true) (hms : Instant.OutOfRange x.truncate64) :
    Unreadable (.float x) (.instantOutOfRange x.truncate64)
  /-- Blanks around a text do not count, but the text is shown with them. -/
  | text {s : String} (hs : ∃ c ∈ s.toList, Text.isBlank c = false)
    (hnone : Instant.InNoNotation (Text.trim s).toList) : Unreadable (.text s) (.textNotDate s)

namespace Value

variable {v : Value} {err : Error}

theorem Unreadable.kind_eq (h : v.Unreadable err) : err.kind = .invalidValue := by
  cases h <;> rfl

theorem refusal?_date_eq_some_iff : v.refusal? .date = some err ↔ v.Unreadable err := by
  constructor
  · intro h
    -- One constructor for each refusal; what is absent or a date has none.
    cases v with
    | null | date t => cases h
    | bool b =>
      cases b with
      | false => cases h
      | true =>
        cases h
        exact .yes
    | document d =>
      cases h
      exact .document d
    | int ms =>
      rw [refusal?, Option.ite_none_left_eq_some, Option.not_isSome_iff_eq_none,
        Instant.ofMillis?_eq_none_iff] at h
      obtain ⟨hms, h⟩ := h
      cases h
      exact .millis hms
    | float x =>
      rw [refusal?] at h
      split at h
      · next hx =>
        cases h
        exact .notFinite (by simpa using hx)
      · next hx =>
        rw [Option.ite_none_left_eq_some, Option.not_isSome_iff_eq_none,
          Instant.ofMillis?_eq_none_iff] at h
        obtain ⟨hms, h⟩ := h
        cases h
        exact .fraction (by simpa using hx) hms
    | text s =>
      rw [refusal?, Option.ite_none_left_eq_some, Bool.or_eq_true, not_or,
        Option.not_isSome_iff_eq_none, Instant.ofText?_eq_none_iff] at h
      obtain ⟨⟨hs, hnone⟩, h⟩ := h
      cases h
      exact .text (by simpa using hs) hnone
  · intro h
    cases h with
    | yes | document d => rfl
    | notFinite hx => simp [refusal?, hx]
    | millis hms => simp [refusal?, Instant.ofMillis?_eq_none_iff.mpr hms]
    | fraction hx hms => simp [refusal?, hx, Instant.ofMillis?_eq_none_iff.mpr hms]
    | text hs hnone =>
      rw [refusal?, Instant.ofText?_eq_none_iff.mpr hnone, if_neg (by simpa using hs)]

/-- What is neither nothing nor a date, for the encoder. -/
theorem exists_unreadable_iff :
    (∃ err, v.Unreadable err) ↔ v.absentFor .date = false ∧ ∀ t, Sql.toInstant v ≠ .ok (some t) := by
  simp only [← refusal?_date_eq_some_iff]
  cases hnull : v.isNull with
  | true =>
    cases isNull_iff.mp hnull
    simp [refusal?, absentFor]
  | false =>
    rw [← Sql.error?_toInstant hnull, ← Bool.not_eq_true, ← Sql.toInstant_eq_none_iff hnull]
    cases Sql.toInstant v with
    | error err => simp [error?]
    | ok found => cases found <;> simp [error?]

/-- No other attribute refuses anything. -/
theorem refusal?_of_ne_date {type : AttributeType} (h : type ≠ .date) (v : Value) :
    v.refusal? type = none := by
  cases type with
  | date => exact absurd rfl h
  | _ => cases v <;> rfl

end Value

/-! ## Clauses at any depth -/

/-- Whether a clause is one of a predicate's, or is in a branch of a choice in it, at any depth. -/
inductive Clause.Within (c : Clause) : Predicate → Prop
  | here {cs : List Clause} (hc : c ∈ cs) : Within c (.all cs)
  | branch {cs : List Clause} {branches : List Predicate} {b : Predicate} (hcs : .any branches ∈ cs)
    (hb : b ∈ branches) (h : Within c b) : Within c (.all cs)

/-- The values that the declared dates of a predicate are compared with, in the order in which the clauses
are written, those of a range from low to high. -/
def Predicate.dateOperands (e : Entity) (p : Predicate) : List Value :=
  (p.comparands e).filterMap fun field => if field.1.type = .date then some field.2 else none

namespace Clause

variable {c : Clause} {e : Entity} {a : Attribute} {v : Value}

theorem Within.mono {cs ds : List Clause} (h : c.Within (.all cs)) (hsub : cs ⊆ ds) :
    c.Within (.all ds) := by
  cases h with
  | here hc => exact .here (hsub hc)
  | branch hcs hb h => exact .branch (hsub hcs) hb h

theorem comparandsOfAll_eq_flatMap (cs : List Clause) :
    comparandsOfAll e cs = cs.flatMap (·.comparands e) := by
  induction cs with
  | nil => rfl
  | cons c cs ih => rw [comparandsOfAll, ih, List.flatMap_cons]

theorem comparandsOfAny_eq_flatMap (bs : List Predicate) :
    Predicate.comparandsOfAny e bs = bs.flatMap (·.comparands e) := by
  induction bs with
  | nil => rfl
  | cons b bs ih => rw [Predicate.comparandsOfAny, ih, List.flatMap_cons]

theorem mem_comparands_attribute_iff {name : String} {condition : Condition} :
    (a, v) ∈ (Clause.attribute name condition).comparands e
      ↔ e.attribute? name = some a ∧ v ∈ condition.operands := by
  rw [comparands]
  cases e.attribute? name with
  | none => simp
  | some b => simp [and_comm, eq_comm]

/-- Nothing that a clause compares is lost by the choices around it. -/
theorem Within.comparands_subset {p : Predicate} (h : c.Within p) :
    c.comparands e ⊆ p.comparands e := by
  induction h with
  | here hc =>
    intro x hx
    rw [Predicate.comparands, comparandsOfAll_eq_flatMap]
    exact List.mem_flatMap.mpr ⟨c, hc, hx⟩
  | @branch cs branches b hcs hb h ih =>
    intro x hx
    have hbranches : x ∈ (Clause.any branches).comparands e := by
      rw [comparands, comparandsOfAny_eq_flatMap]
      exact List.mem_flatMap.mpr ⟨b, hb, ih hx⟩
    rw [Predicate.comparands, comparandsOfAll_eq_flatMap]
    exact List.mem_flatMap.mpr ⟨.any branches, hcs, hbranches⟩

end Clause

variable {e : Entity} {a : Attribute} {v : Value}

-- Along the recursion of the comparands: what is found in them comes from some clause on an attribute.
mutual

theorem exists_within : (p : Predicate) → (a, v) ∈ p.comparands e →
    ∃ name condition, (Clause.attribute name condition).Within p
      ∧ (a, v) ∈ (Clause.attribute name condition).comparands e
  | .raw _, h | .template .., h => (List.not_mem_nil h).elim
  | .all cs, h => exists_withinAll cs h

theorem exists_withinAll : (cs : List Clause) → (a, v) ∈ Clause.comparandsOfAll e cs →
    ∃ name condition, (Clause.attribute name condition).Within (.all cs)
      ∧ (a, v) ∈ (Clause.attribute name condition).comparands e
  | [], h => (List.not_mem_nil h).elim
  | c :: cs, h => by
    rw [Clause.comparandsOfAll, List.mem_append] at h
    rcases h with h | h
    · obtain ⟨name, condition, hwithin, hmem⟩ := exists_withinClause c h
      exact ⟨name, condition, hwithin.mono (by simp), hmem⟩
    · obtain ⟨name, condition, hwithin, hmem⟩ := exists_withinAll cs h
      exact ⟨name, condition, hwithin.mono (List.subset_cons_self c cs), hmem⟩

theorem exists_withinClause : (c : Clause) → (a, v) ∈ c.comparands e →
    ∃ name condition, (Clause.attribute name condition).Within (.all [c])
      ∧ (a, v) ∈ (Clause.attribute name condition).comparands e
  | .attribute name condition, h => ⟨name, condition, .here List.mem_cons_self, h⟩
  | .any branches, h => by
    obtain ⟨b, hb, name, condition, hwithin, hmem⟩ := exists_withinAny branches h
    exact ⟨name, condition, .branch List.mem_cons_self hb hwithin, hmem⟩
  | .arbitrary _, h => (List.not_mem_nil h).elim

theorem exists_withinAny : (bs : List Predicate) → (a, v) ∈ Predicate.comparandsOfAny e bs →
    ∃ b ∈ bs, ∃ name condition, (Clause.attribute name condition).Within b
      ∧ (a, v) ∈ (Clause.attribute name condition).comparands e
  | [], h => (List.not_mem_nil h).elim
  | b :: bs, h => by
    rw [Predicate.comparandsOfAny, List.mem_append] at h
    rcases h with h | h
    · exact ⟨b, List.mem_cons_self, exists_within b h⟩
    · obtain ⟨found, hfound, hwithin⟩ := exists_withinAny bs h
      exact ⟨found, List.mem_cons_of_mem b hfound, hwithin⟩

end

/-- The values that declared dates are compared with are those of the clauses on them, at any depth. -/
theorem Predicate.mem_dateOperands_iff {p : Predicate} : v ∈ p.dateOperands e ↔
    ∃ name condition a, (Clause.attribute name condition).Within p ∧ e.attribute? name = some a
      ∧ a.type = .date ∧ v ∈ condition.operands := by
  rw [dateOperands, List.mem_filterMap]
  constructor
  · rintro ⟨⟨a, w⟩, hmem, hw⟩
    obtain ⟨hdate, rfl⟩ : a.type = .date ∧ w = v := by simpa using hw
    obtain ⟨name, condition, hwithin, hclause⟩ := exists_within p hmem
    obtain ⟨ha, hw⟩ := Clause.mem_comparands_attribute_iff.mp hclause
    exact ⟨name, condition, a, hwithin, ha, hdate, hw⟩
  · rintro ⟨name, condition, a, hwithin, ha, hdate, hv⟩
    have hclause := Clause.mem_comparands_attribute_iff.mpr ⟨ha, hv⟩
    exact ⟨(a, v), hwithin.comparands_subset hclause, by simp [hdate]⟩

/-! ## The first of them -/

namespace Sql

/-- Only the operands of dates decide whether a predicate is refused. -/
theorem error?_clauses_eq (p : Predicate) :
    error? (clauses e p) = (p.dateOperands e).findSome? (·.refusal? .date) := by
  rw [error?_clauses, firstRefusal?, Predicate.dateOperands, ← List.head?_filterMap,
    ← List.head?_filterMap, List.filterMap_filterMap]
  congr 2
  funext field
  by_cases hdate : field.1.type = .date
  · rw [if_pos hdate, hdate, Option.bind_some]
  · rw [if_neg hdate, Value.refusal?_of_ne_date hdate, Option.bind_none]

theorem clauses_eq_error_iff {p : Predicate} {err : Error} : clauses e p = .error err ↔
    ∃ before v after, p.dateOperands e = before ++ v :: after ∧ v.Unreadable err
      ∧ ∀ w ∈ before, ∀ other, ¬ w.Unreadable other := by
  rw [← error?_eq_some_iff, error?_clauses_eq, List.findSome?_eq_some_iff]
  simp only [Option.eq_none_iff_forall_ne_some, ne_eq, Value.refusal?_date_eq_some_iff]

/-- A predicate fails to compile exactly if a clause on a declared date, at any depth, compares it with a
value that is neither nothing nor a date; and then for the first such value. -/
theorem fails_for_first_unreadable_date (e : Entity) (p : Predicate) :
    ((∃ err, clauses e p = .error err) ↔
      ∃ name condition a v err, (Clause.attribute name condition).Within p
        ∧ e.attribute? name = some a ∧ a.type = .date ∧ v ∈ condition.operands ∧ v.Unreadable err)
    ∧ (∀ err, clauses e p = .error err ↔ err.kind = .invalidValue
      ∧ ∃ before v after, p.dateOperands e = before ++ v :: after ∧ v.Unreadable err
        ∧ ∀ w ∈ before, ∀ other, ¬ w.Unreadable other)
    ∧ ∀ v : Value, (∃ err, v.Unreadable err) ↔
      v.absentFor .date = false ∧ ∀ t, toInstant v ≠ .ok (some t) := by
  refine ⟨?_, fun err => ?_, fun v => Value.exists_unreadable_iff⟩
  · constructor
    · rintro ⟨err, herr⟩
      obtain ⟨before, v, after, hoperands, hv, -⟩ := clauses_eq_error_iff.mp herr
      have hmem : v ∈ p.dateOperands e := by simp [hoperands]
      obtain ⟨name, condition, a, hwithin, ha, hdate, hoperand⟩ := Predicate.mem_dateOperands_iff.mp hmem
      exact ⟨name, condition, a, v, err, hwithin, ha, hdate, hoperand, hv⟩
    · rintro ⟨name, condition, a, v, err, hwithin, ha, hdate, hoperand, hv⟩
      have hmem := Predicate.mem_dateOperands_iff.mpr ⟨name, condition, a, hwithin, ha, hdate, hoperand⟩
      -- Some operand is refused, so there is a first one.
      have hsome : ((p.dateOperands e).findSome? (·.refusal? .date)).isSome = true :=
        List.findSome?_isSome_iff.mpr ⟨v, hmem, by rw [Value.refusal?_date_eq_some_iff.mpr hv]; rfl⟩
      obtain ⟨first, hfirst⟩ := Option.isSome_iff_exists.mp hsome
      exact ⟨first, error?_eq_some_iff.mp ((error?_clauses_eq p).trans hfirst)⟩
  · rw [clauses_eq_error_iff]
    constructor
    · rintro ⟨before, v, after, hoperands, hv, hbefore⟩
      exact ⟨hv.kind_eq, before, v, after, hoperands, hv, hbefore⟩
    · rintro ⟨-, hfirst⟩
      exact hfirst

/-- Members of a set and names that nobody declared are not read as dates, and of two bounds the lower one
is read first. -/
example :
    let event : Entity := .declare "event" none [.plain "due" .date] []
    error? (clauses event (.all [.attribute "due" (.operator (.oneOf [.text "never"])),
        .attribute "gone" (.equals (.text "never")),
        .any [.all [.attribute "due" (.operator (.between (.text "soon") (.text "later")))]],
        .attribute "due" (.equals (.bool true))]))
      = some (.textNotDate "soon") := by
  decide +kernel

end Sql

end EntityStore
