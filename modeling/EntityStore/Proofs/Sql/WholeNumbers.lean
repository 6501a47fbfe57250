import EntityStore.Proofs.Number.Rounding
import EntityStore.Proofs.Sql.Constant

/-!
# Whole numbers in numeric attributes

A whole number comes as text or in a document and is written for a numeric attribute. In the range
of 64 bits it is written as it is, and a text that is too large for every double stays a text. What
is between goes through the nearest double and comes out as the number that the double's digits
write, which is the one that was meant only if its digits are the fewest that read back.

`whole_number_kept_iff` says for which whole numbers the literal denotes the number that was meant.
-/

set_option autoImplicit false

namespace EntityStore

namespace Numeral

/-- Digits with a sign in front or without one, and whether the sign is a minus. -/
inductive Signed (ds : List Char) : Bool → List Char → Prop where
  | minus : Signed ds true ('-' :: ds)
  | plus : Signed ds false ('+' :: ds)
  | bare : Signed ds false ds

/-- A whole number is written as digits, with a sign in front or without one. -/
theorem exists_signed_of_int? {cs : List Char} {n : Int} (h : int? cs = some n) :
    ∃ ds negative, Signed ds negative cs ∧ ds ≠ [] ∧ (∀ d ∈ ds, d.isDigit = true)
      ∧ n = if negative then -(value ds : Int) else value ds := by
  unfold int? at h
  split at h
  all_goals
    simp only [bind, pure, Option.map_eq_some_iff, Option.bind_eq_some_iff, Option.some.injEq] at h
    obtain ⟨_, ⟨m, hm, rfl⟩, rfl⟩ := h
    obtain ⟨hne, hds, rfl⟩ := nat?_eq_some_iff.mp hm
  · exact ⟨_, true, .minus, hne, hds, rfl⟩
  · exact ⟨_, false, .plus, hne, hds, rfl⟩
  · exact ⟨_, false, .bare, hne, hds, rfl⟩

end Numeral

namespace Double

/-- A digit is below all letters, so it has no case. -/
theorem not_isAlpha_of_isDigit {c : Char} (h : c.isDigit = true) :
    c.isAlpha = false ∧ c.toLower = c := by
  have hnine : c.val ≤ '9'.val := by
    simp only [Char.isDigit, Bool.and_eq_true, decide_eq_true_eq] at h
    exact h.2
  have hupper : ¬ 'A'.val ≤ c.val := fun hc => absurd (UInt32.le_trans hc hnine) (by decide)
  have hlower : ¬ 'a'.val ≤ c.val := fun hc => absurd (UInt32.le_trans hc hnine) (by decide)
  have halpha : ¬ (c.isUpper = true ∨ c.isLower = true) := by
    rintro (hc | hc)
    · exact hupper (of_decide_eq_true hc).1
    · exact hlower (of_decide_eq_true (Bool.and_eq_true_iff.mp hc).1)
  have hor : c.isAlpha = (c.isUpper || c.isLower) := rfl
  refine ⟨?_, dif_neg fun hc => hupper hc.1⟩
  rw [hor, Bool.or_eq_false_iff, Bool.eq_false_iff, Bool.eq_false_iff]
  exact not_or.mp halpha

theorem map_toLower_ne {ds : List Char} (hne : ds ≠ []) (hds : ∀ d ∈ ds, d.isDigit = true)
    (word : List Char) (hw : word.all Char.isAlpha = true) : ds.map Char.toLower ≠ word := by
  obtain ⟨d, ds, rfl⟩ := List.exists_cons_of_ne_nil hne
  obtain ⟨halpha, hlower⟩ := not_isAlpha_of_isDigit (hds d List.mem_cons_self)
  intro h
  have hd := List.all_eq_true.mp hw d.toLower (h ▸ List.mem_cons_self)
  rw [hlower, halpha] at hd
  cases hd

/-- Digits are read as a number, with either sign. -/
theorem ofText?_signed {s : String} {negative : Bool} {ds : List Char}
    (hs : Numeral.Signed ds negative s.toList) (hne : ds ≠ [])
    (hds : ∀ d ∈ ds, d.isDigit = true) :
    ofText? s = some (ofDecimal .double negative (Numeral.value ds) 0) := by
  have hinf := map_toLower_ne hne hds ['i', 'n', 'f'] rfl
  have hinfinity := map_toLower_ne hne hds ['i', 'n', 'f', 'i', 'n', 'i', 't', 'y'] rfl
  have hnan := map_toLower_ne hne hds ['n', 'a', 'n'] rfl
  have hparts := NumeralParts.ofText?_digits hds
  unfold ofText? ofFreeText?
  generalize s.toList = cs at hs
  cases hs with
  | minus => simp [hinf, hinfinity, hnan, hparts, hne, NumeralParts.power]
  | plus => simp [hinf, hinfinity, hnan, hparts, hne, NumeralParts.power]
  | bare =>
    split
    · next negative cs hsign =>
      have hunsigned : (negative, cs) = (false, ds) := by
        rw [← hsign]
        split
        · exact absurd (hds '-' List.mem_cons_self) (by decide)
        · exact absurd (hds '+' List.mem_cons_self) (by decide)
        · rfl
      cases hunsigned
      simp [hinf, hinfinity, hnan, hparts, hne, NumeralParts.power]

end Double

namespace Sql

/-- A value that means a whole number: a text that writes it when the blanks around it are cut off,
or the whole number of a document, which is one of 64 bits with a sign or without one. -/
inductive MeansWhole (n : Int) : Value → Prop where
  | text {s : String} (h : Numeral.int? (Text.trim s).toList = some n) : MeansWhole n (.text s)
  | document (hleast : Numeral.minInt64 ≤ n) (hgreatest : n ≤ Numeral.maxNat64) :
    MeansWhole n (.ofDocument (.number (.whole n)))

/-- Whether a constant is a whole number: the number itself, or a text that writes it. -/
def Constant.IsWhole (n : Int) : Constant → Prop
  | .number x => x = n
  | .text s => Numeral.int? (Text.trim s).toList = some n
  | _ => False

/-- Whether a literal denotes a whole number. -/
def Denotes (literal : String) (n : Int) : Prop :=
  ∃ ts c, tokens literal.toList = some ts ∧ constant? ts = some (c, []) ∧ c.IsWhole n

theorem Written.denotes_iff {c : Constant} {literal : String} (h : Written c literal) (n : Int) :
    Denotes literal n ↔ c.IsWhole n := by
  obtain ⟨ts, hlex, hread⟩ := h.reads
  have hts : tokens literal.toList = some ts := hlex.tokens_eq
  have hc : constant? ts = some (c, []) := by simpa using hread []
  refine ⟨fun hd => ?_, fun hn => ⟨ts, c, hts, hc, hn⟩⟩
  obtain ⟨ts', c', hts', hc', hn⟩ := hd
  cases hts.symm.trans hts'
  cases hc.symm.trans hc'
  exact hn

/-- A double denotes the whole number only as a number. -/
theorem isWhole_ofDouble_iff (x : Double) (n : Int) :
    (Constant.ofDouble x).IsWhole n ↔ Constant.ofDouble x = .number n := by
  cases x with
  | nan =>
    have hnone : Numeral.int? (Text.trim "NaN").toList = none := by decide
    exact iff_of_false (by simp [Constant.ofDouble, Constant.IsWhole, hnone]) Constant.noConfusion
  | infinity negative =>
    have hnone (negative : Bool) : Numeral.int? (Text.trim
        (if negative then "-Infinity" else "Infinity")).toList = none := by
      cases negative <;> decide
    exact iff_of_false (by simp only [Constant.ofDouble, Constant.IsWhole, hnone, reduceCtorEq,
      not_false_eq_true]) Constant.noConfusion
  | finite negative m e => simp [Constant.ofDouble, Constant.IsWhole]

/-- A text that writes a whole number beyond 64 bits is read as the nearest double. -/
theorem ofText?_of_int? {s : String} {n : Int} (hs : Numeral.int? s.toList = some n)
    (hn : ¬ FitsInt64 n) : Double.ofText? s = some (Value.doubleOf (.whole n)) := by
  obtain ⟨ds, negative, hsigned, hne, hds, rfl⟩ := Numeral.exists_signed_of_int? hs
  have hvalue : Numeral.value ds ≠ 0 := by
    intro h
    rw [h] at hn
    exact hn (by cases negative <;> decide)
  rw [Double.ofText?_signed hsigned hne hds, Double.ofDecimal_zero negative hvalue, Value.doubleOf]
  cases negative with
  | false =>
    have hsign : decide ((Numeral.value ds : Int) < 0) = false := decide_eq_false (by omega)
    simp [hsign]
  | true =>
    have hsign : decide (-(Numeral.value ds : Int) < 0) = true := decide_eq_true (by omega)
    rw [if_pos rfl, hsign, Int.natAbs_neg, Int.natAbs_natCast]

/-- A double as a literal denotes the whole number if its digits write it. -/
theorem denotes_floatLiteral_iff (x : Double) (n : Int) :
    Denotes (floatLiteral x) n ↔ Constant.ofDouble x = .number n := by
  rw [(written_floatLiteral x).denotes_iff, isWhole_ofDouble_iff]

theorem denotes_ofInt (n : Int) : Denotes (Numeral.ofInt n) n :=
  ((written_ofInt n).denotes_iff n).mpr rfl

theorem isFinite_doubleOf_iff (n : Int) :
    (Value.doubleOf (.whole n)).isFinite = true ↔ ¬ 2 ^ 1024 ≤ n.natAbs + 2 ^ 970 := by
  rw [Value.doubleOf, Format.isFinite_round_iff, Nat.not_le]

theorem isEmpty_of_int? {s : String} {n : Int} (hs : Numeral.int? s.toList = some n) :
    s.isEmpty = false := by
  rw [String.isEmpty_eq_false_iff]
  rintro rfl
  exact absurd hs (by decide +revert)

/-- A text for a numeric attribute, by the whole number it writes. -/
theorem denotes_numberText_iff {s : String} {n : Int}
    (hs : Numeral.int? (Text.trim s).toList = some n) (absent : String) :
    Denotes (numberText absent s) n ↔ FitsInt64 n
      ∨ Constant.ofDouble (Value.doubleOf (.whole n)) = .number n
      ∨ 2 ^ 1024 ≤ n.natAbs + 2 ^ 970 := by
  rw [numberText, isEmpty_of_int? hs, Numeral.int64?, Numeral.intWithin?, hs]
  simp only [Bool.false_eq_true, if_false]
  by_cases hn : FitsInt64 n
  · obtain ⟨hleast, hgreatest⟩ := hn
    simp only [Option.filter, hleast, hgreatest, decide_true, Bool.and_self, if_true]
    exact iff_of_true (denotes_ofInt n) (.inl ⟨hleast, hgreatest⟩)
  have hbeyond : (decide (Numeral.minInt64 ≤ n) && decide (n ≤ Numeral.maxInt64)) = false := by
    rw [← Bool.decide_and]
    exact decide_eq_false hn
  simp only [Option.filter, hbeyond, Bool.false_eq_true, if_false, ofText?_of_int? hs hn]
  by_cases hgreat : 2 ^ 1024 ≤ n.natAbs + 2 ^ 970
  · have hquoted : ¬ (Value.doubleOf (.whole n)).isFinite = true :=
      fun h => (isFinite_doubleOf_iff n).mp h hgreat
    rw [if_neg hquoted]
    exact iff_of_true (((written_text s).denotes_iff n).mpr hs) (.inr (.inr hgreat))
  · have hfinite := (isFinite_doubleOf_iff n).mpr hgreat
    rw [if_pos hfinite, ← floatLiteral_of_isFinite hfinite, denotes_floatLiteral_iff]
    simp only [hn, hgreat, or_false, false_or]

/-- A numeric attribute is given a literal for every whole number, the same one for storing and for
comparing. It denotes the number if the number is one of 64 bits, or if it is the number that the
digits of the nearest double write, or if there is no such double, and in no other case. -/
theorem whole_number_kept_iff {a : Attribute} {kind : NumberKind} (ha : a.type = .number kind)
    {n : Int} {v : Value} (hv : MeansWhole n v) :
    ∃ literal, stored a v = .ok literal ∧ compared a v = .ok literal
      ∧ (Denotes literal n ↔ FitsInt64 n
        ∨ Constant.ofDouble (Value.doubleOf (.whole n)) = .number n
        ∨ 2 ^ 1024 ≤ n.natAbs + 2 ^ 970) := by
  have hencode (absent : String) (hnull : v.isNull = false) :
      encode absent a v = .ok (number absent v) := by
    rw [encode, hnull, ha]
    rfl
  cases hv with
  | @text s hs =>
    have hsame (absent : String) : number absent (.text s) = numberText null s := by
      simp only [number, numberText, isEmpty_of_int? hs, Bool.false_eq_true, if_false]
    refine ⟨numberText null s, ?_, ?_, denotes_numberText_iff hs null⟩
    · rw [stored, hencode _ rfl, hsame]
    · rw [compared, hencode _ rfl, hsame]
  | document hleast hgreatest =>
    by_cases hn : FitsInt64 n
    · simp only [Value.ofDocument, if_pos hn] at hencode ⊢
      exact ⟨_, hencode _ rfl, hencode _ rfl, iff_of_true (denotes_ofInt n) (.inl hn)⟩
    · simp only [Value.ofDocument, if_neg hn] at hencode ⊢
      -- A number of a document is of 64 bits with or without a sign, so it has a nearest double.
      have habs : n.natAbs ≤ Numeral.maxNat64 := by
        rw [Numeral.minInt64] at hleast
        rw [Numeral.maxNat64] at hgreatest ⊢
        omega
      have hsmall : ¬ 2 ^ 1024 ≤ n.natAbs + 2 ^ 970 :=
        Nat.not_le.mpr (Format.lt_of_le_maxNat64 habs)
      refine ⟨_, hencode _ rfl, hencode _ rfl, ?_⟩
      simp only [number, denotes_floatLiteral_iff, hn, hsmall, or_false, false_or]

/-- Two to the power of sixty-three, as a text and in a document, is changed. -/
theorem first_beyond_64_bits_changed :
    let count : Attribute := .plain "count" (.number .numeric)
    let text : Value := .text "9223372036854775808"
    let document : Value := .ofDocument (.number (.whole 9223372036854775808))
    MeansWhole 9223372036854775808 text ∧ MeansWhole 9223372036854775808 document
      ∧ stored count text = .ok "9223372036854776000"
      ∧ compared count document = .ok "9223372036854776000"
      ∧ Denotes "9223372036854776000" 9223372036854776000
      ∧ ¬ Denotes "9223372036854776000" 9223372036854775808 := by
  intro count text document
  have htext : numberText null "9223372036854775808" = "9223372036854776000" := by decide +kernel
  have hdocument : floatLiteral (Value.doubleOf (.whole 9223372036854775808))
      = "9223372036854776000" := by decide +kernel
  have hnumeral : Numeral.ofInt 9223372036854776000 = "9223372036854776000" := by decide +kernel
  have hwritten := written_ofInt 9223372036854776000
  rw [hnumeral] at hwritten
  refine ⟨.text (by decide +kernel), .document (by decide) (by decide), congrArg Except.ok htext,
    congrArg Except.ok hdocument, (hwritten.denotes_iff _).mpr rfl, ?_⟩
  rw [hwritten.denotes_iff, Constant.IsWhole, Int.cast_inj]
  decide

/-- Ten to the power of nineteen, with a sign and blanks around it, is not. -/
theorem power_of_ten_kept :
    let count : Attribute := .plain "count" (.number .integer)
    let text : Value := .text " +10000000000000000000 "
    ∃ literal, stored count text = .ok literal ∧ compared count text = .ok literal
      ∧ Denotes literal 10000000000000000000 := by
  intro count text
  have hdouble : Value.doubleOf (.whole 10000000000000000000)
      = .finite false 4882812500000000 11 := by decide +kernel
  have hdigits : (Decimal.shortest .up 4882812500000000 11).digits = ['1'] := by decide +kernel
  have hpoint : (Decimal.shortest .up 4882812500000000 11).point = 20 := by decide +kernel
  have hconstant : Constant.ofDouble (Value.doubleOf (.whole 10000000000000000000))
      = .number (10000000000000000000 : Int) := by
    rw [hdouble, Constant.ofDouble, Decimal.value, hdigits, hpoint,
      show Numeral.value ['1'] = 1 from rfl]
    norm_num
  obtain ⟨literal, hstored, hcompared, hdenotes⟩ :=
    @whole_number_kept_iff count _ rfl 10000000000000000000 text (.text (by decide +kernel))
  exact ⟨literal, hstored, hcompared, hdenotes.mpr (.inr (.inl hconstant))⟩

end Sql

end EntityStore
