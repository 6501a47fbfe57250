import EntityStore.Proofs.Sql.Lexing
import EntityStore.Sql.Encoding
import Mathlib.Algebra.Field.Rat
import Mathlib.Data.List.Induction
import Mathlib.Tactic.FieldSimp
import Mathlib.Tactic.Ring

/-!
# Constants and what they denote

A value is written as a literal and the database reads a constant. `Constant` is what there is to
be read: nothing, a truth value, a number, a text, or a point in time by its text. A number is the
number and not its digits, so reading `1.50` and `1.5` gives the same constant.

What a value should denote is said without any text: `Constant.ofValue` for a value on its own and
`comparand` for one that an attribute is compared with. `written_literal` and `written_compared`
say that the texts denote it: each is cut into tokens that read as the constant, whatever follows.
-/

set_option autoImplicit false

namespace EntityStore

/-! ## Numbers by their digits -/

namespace Numeral

theorem value_append (cs ds : List Char) :
    value (cs ++ ds) = value cs * 10 ^ ds.length + value ds := by
  induction ds using List.reverseRecOn with
  | nil => simp [value]
  | append_singleton ds d ih =>
    rw [← List.append_assoc, value_append_singleton, ih, value_append_singleton, List.length_append,
      List.length_singleton]
    ring

theorem value_replicate_zero (n : Nat) : value (List.replicate n '0') = 0 := by
  induction n with
  | zero => rfl
  | succ n ih =>
    rw [List.replicate_succ', value_append_singleton, ih]
    rfl

theorem value_toDigits (n : Nat) : value (Nat.toDigits 10 n) = n := Nat.ofDigitChars_ten_toDigits

theorem toList_ofNat (n : Nat) : (ofNat n).toList = Nat.toDigits 10 n := Nat.toList_repr

theorem isDigit_toDigits {n : Nat} {c : Char} (hc : c ∈ Nat.toDigits 10 n) : c.isDigit = true :=
  Nat.isDigit_of_mem_toDigits (by decide) (by decide) hc

end Numeral

/-- Digits alone are the whole part of a numeral and nothing else. -/
theorem NumeralParts.ofText?_digits {cs : List Char} (hcs : ∀ c ∈ cs, c.isDigit = true) :
    NumeralParts.ofText? cs = some ⟨cs, [], none, false⟩ := by
  have hspan : NumeralParts.digits cs = (cs, []) := by
    have h := @Sql.span_append Char.isDigit cs [] hcs (by simp)
    rwa [List.append_nil] at h
  rw [NumeralParts.ofText?, hspan]
  rfl

namespace Decimal

/-- The number that a decimal writes. -/
def value (d : Decimal) : ℚ := Numeral.value d.digits * 10 ^ (d.point - d.digits.length)

theorem isDigit_shortest {tie : Tie} {m : Nat} {e : Int} {c : Char}
    (hc : c ∈ (shortest tie m e).digits) : c.isDigit = true := by
  rw [shortest] at hc
  cases h : (Shortest.interval m e).count? tie with
  | none =>
    rw [h] at hc
    rw [List.mem_singleton.mp hc]
    decide
  | some count =>
    rw [h] at hc
    have hrev := List.mem_reverse.mp hc
    exact Numeral.isDigit_toDigits (List.mem_reverse.mp ((List.dropWhile_sublist _).subset hrev))

end Decimal

namespace Sql

/-- The number that digits before and after a point write. -/
def numeralValue (whole fraction : List Char) : ℚ :=
  Numeral.value (whole ++ fraction) / 10 ^ fraction.length

/-- What is read where a value is written. -/
inductive Constant where
  | null
  | boolean (b : Bool)
  | number (x : ℚ)
  | text (s : String)
  /-- A point in time, by its text. -/
  | instant (text : String)

namespace Constant

/-- What a double denotes: the number that its digits write, or the word for a number that has
none. -/
def ofDouble : Double → Constant
  | .nan => .text "NaN"
  | .infinity negative => .text (if negative then "-Infinity" else "Infinity")
  | .finite negative m e =>
    let x := if m = 0 then 0 else (Decimal.shortest .up m e).value
    .number (if negative then -x else x)

/-- What a value denotes on its own. -/
def ofValue : Value → Constant
  | .null => .null
  | .bool b => .boolean b
  | .int n => .number n
  | .float x => ofDouble x
  | .date t => .instant t.text
  | .text s => .text s
  | .document d => .text d.compact

end Constant

/-! ## What an attribute is compared with -/

/-- What a text denotes for a numeric attribute: nothing if it is blank, a number if it is one, and
else itself. -/
def numberTextConstant (s : String) : Constant :=
  let trimmed := Text.trim s
  if trimmed.isEmpty then .null
  else match Numeral.int64? trimmed with
    | some n => .number n
    | none => match Double.ofText? trimmed with
      | some x => if x.isFinite then .ofDouble x else .text s
      | none => .text s

/-- What a value denotes for a numeric attribute. -/
def numberConstant : Value → Constant
  | .bool false => .null
  | .text s => numberTextConstant s
  | v => .ofValue v

/-- What a value denotes that an attribute is compared with. Only a date can denote none. -/
def comparand (a : Attribute) (v : Value) : Except Error Constant :=
  if v.isNull then .ok .null
  else match a.type with
    | .json | .array => .ok (.text v.documentText)
    | .number _ => .ok (numberConstant v)
    | .date => (toInstant v).map fun
      | some t => .instant t.text
      | none => .null
    | .string | .text | .boolean => .ok (.ofValue v)

/-! ## Reading a constant -/

/-- The constant at the front of some tokens. -/
def constant? : List Token → Option (Constant × List Token)
  | .word "null" :: ts => some (.null, ts)
  | .word "true" :: ts => some (.boolean true, ts)
  | .word "false" :: ts => some (.boolean false, ts)
  | .word "timestamp" :: .word "with" :: .word "time" :: .word "zone" :: .constant s :: ts =>
    some (.instant s, ts)
  | .constant s :: ts => some (.text s, ts)
  | .numeral whole fraction :: ts => some (.number (numeralValue whole fraction), ts)
  | .operator "-" :: .numeral whole fraction :: ts =>
    some (.number (-numeralValue whole fraction), ts)
  | _ => none

/-- A text that denotes a constant: it is cut into tokens of its own, which read as the constant,
and it may stand behind a blank. The constant that is nothing has only one text. -/
structure Written (c : Constant) (text : String) : Prop where
  reads : ∃ ts, Lexes text.toList ts ∧ ∀ rest, constant? (ts ++ rest) = some (c, rest)
  opens : Opens text.toList
  null : c = .null → text = Sql.null

namespace Written

variable {c : Constant} {text : String}

/-- The text of nothing denotes nothing else, so it can be told from all other texts. -/
theorem eq_null_iff (h : Written c text) : text = Sql.null ↔ c = .null := by
  refine ⟨fun ht => ?_, h.null⟩
  obtain ⟨ts, hlex, hread⟩ := h.reads
  have hts : tokens text.toList = some ts := hlex.tokens_eq
  have hnull : tokens text.toList = some [.word "null"] := by
    rw [ht]
    exact (lexes_keyword (show isKeyword "NULL" "null" = true by decide)).tokens_eq
  rw [hts, Option.some.injEq] at hnull
  have hc := hread []
  rw [hnull] at hc
  have hboth : (Constant.null, ([] : List Token)) = (c, []) := Option.some.inj hc
  exact (Prod.mk.inj hboth).1.symm

end Written

/-! ## Literals denote their values -/

/-- A text that is one token which reads as the constant. -/
theorem written_of_token {c : Constant} {text : String} {t : Token} (hl : Lexes text.toList [t])
    (ho : Opens text.toList) (hc : ∀ rest, constant? (t :: rest) = some (c, rest))
    (hn : c ≠ .null) : Written c text :=
  ⟨⟨[t], hl, hc⟩, ho, fun h => absurd h hn⟩

theorem written_null : Written .null null := by
  have h : isKeyword "NULL" "null" = true := by decide
  exact ⟨⟨[.word "null"], lexes_keyword h, fun _ => rfl⟩, opens_keyword h, fun _ => rfl⟩

theorem written_boolean (b : Bool) : Written (.boolean b) (if b then "true" else "false") := by
  cases b with
  | false =>
    have h : isKeyword "false" "false" = true := by decide
    exact written_of_token (lexes_keyword h) (opens_keyword h) (fun _ => rfl)
      Constant.noConfusion
  | true =>
    have h : isKeyword "true" "true" = true := by decide
    exact written_of_token (lexes_keyword h) (opens_keyword h) (fun _ => rfl)
      Constant.noConfusion

theorem toList_quoteText (s : String) : (quoteText s).toList = constantChars s.toList := by
  rw [quoteText, String.toList_ofList]

theorem written_text (s : String) : Written (.text s) (quoteText s) := by
  refine written_of_token (t := .constant s) ?_ ?_ (fun _ => rfl) Constant.noConfusion
  · have h := lexes_constantChars s.toList
    rwa [String.ofList_toList, ← toList_quoteText] at h
  · rw [toList_quoteText, constantChars]
    exact opens_cons _ (by decide) (by decide)

theorem lexes_quoted {s : String} (hs : '\'' ∉ s.toList) :
    Lexes ("'" ++ s ++ "'").toList [.constant s] := by
  have h := lexes_plainConstant hs
  rw [String.ofList_toList] at h
  simpa using h

theorem written_quoted {s : String} (hs : '\'' ∉ s.toList) :
    Written (.text s) ("'" ++ s ++ "'") := by
  refine written_of_token (lexes_quoted hs) ?_ (fun _ => rfl) Constant.noConfusion
  simp only [String.toList_append]
  exact opens_cons _ (by decide) (by decide)

/-! ### Numbers -/

/-- A numeral without a sign: one token with the number's value before anything that ends one. -/
structure Unsigned (x : ℚ) (cs : List Char) : Prop where
  reads : ∃ whole fraction, numeralValue whole fraction = x ∧ ∀ rest, EndsNumeral rest →
    tokens (cs ++ rest) = (tokens rest).map (.numeral whole fraction :: ·)
  head : ∃ d ds, cs = d :: ds ∧ d.isDigit = true
  chars : ∀ c ∈ cs, c.isDigit = true ∨ c = '.'

/-- A numeral, with a sign in front if the number is negative. -/
theorem written_number {x : ℚ} {cs : List Char} (h : Unsigned x cs) (negative : Bool) :
    Written (.number (if negative then -x else x))
      (String.ofList (if negative then '-' :: cs else cs)) := by
  obtain ⟨⟨whole, fraction, rfl, hreads⟩, ⟨d, ds, rfl, hd⟩, -⟩ := h
  have hlex : Lexes (d :: ds) [.numeral whole fraction] := fun rest hr =>
    hreads rest hr.endsNumeral
  have hminus : d ≠ '-' := by
    rintro rfl
    exact absurd hd (by decide)
  cases negative with
  | false =>
    refine written_of_token (t := .numeral whole fraction) ?_ ?_ (fun _ => rfl) Constant.noConfusion
    · simpa using hlex
    · simpa using opens_cons ds (isSpace_of_isWordChar (by simp [isWordChar, hd])) hminus
  | true =>
    refine ⟨⟨[.operator "-", .numeral whole fraction], ?_, fun _ => rfl⟩, ?_, Constant.noConfusion⟩
    · simpa using lexes_minus hd hlex
    · have hline : isLineEnd '-' = false := by decide
      intro rest
      simp [gap, hminus, hline, show isSpace '-' = false by decide]

theorem unsigned_digits {ds : List Char} (hne : ds ≠ []) (hds : ∀ d ∈ ds, d.isDigit = true) :
    Unsigned (Numeral.value ds) ds := by
  refine ⟨⟨ds, [], by simp [numeralValue], fun rest hr => tokens_whole hne hds hr⟩, ?_, ?_⟩
  · obtain ⟨d, ds', rfl⟩ := List.exists_cons_of_ne_nil hne
    exact ⟨d, ds', rfl, hds d List.mem_cons_self⟩
  · exact fun c hc => .inl (hds c hc)

theorem unsigned_toDigits (n : Nat) : Unsigned (n : ℚ) (Nat.toDigits 10 n) := by
  have h := unsigned_digits Nat.toDigits_ne_nil fun _ => Numeral.isDigit_toDigits (n := n)
  rwa [Numeral.value_toDigits] at h

theorem written_ofInt (n : Int) : Written (.number n) (Numeral.ofInt n) := by
  cases n with
  | ofNat m =>
    have h := written_number (unsigned_toDigits m) false
    simpa [Numeral.ofInt, ← Numeral.toList_ofNat] using h
  | negSucc m =>
    have h := written_number (unsigned_toDigits (m + 1)) true
    have htext : String.ofList ('-' :: Nat.toDigits 10 (m + 1)) = Numeral.ofInt (.negSucc m) := by
      rw [← String.toList_inj]
      simp [Numeral.ofInt, Numeral.toList_ofNat]
    simp only [if_true, htext] at h
    simpa [Int.cast_negSucc] using h

theorem unsigned_point {whole fraction : List Char} (hne : whole ≠ [])
    (hall : ∀ c ∈ whole ++ fraction, c.isDigit = true) :
    Unsigned (numeralValue whole fraction) (whole ++ '.' :: fraction) := by
  have hwhole : ∀ c ∈ whole, c.isDigit = true := fun c hc => hall c (List.mem_append_left _ hc)
  have hfraction : ∀ c ∈ fraction, c.isDigit = true := fun c hc =>
    hall c (List.mem_append_right _ hc)
  refine ⟨⟨whole, fraction, rfl, fun rest hr => ?_⟩, ?_, ?_⟩
  · rw [List.append_assoc, List.cons_append]
    exact tokens_fraction hne hwhole hfraction hr
  · obtain ⟨d, ds, rfl⟩ := List.exists_cons_of_ne_nil hne
    exact ⟨d, ds ++ '.' :: fraction, rfl, hwhole d List.mem_cons_self⟩
  · intro c hc
    rcases List.mem_append.mp hc with hc | hc
    · exact .inl (hwhole c hc)
    rcases List.mem_cons.mp hc with hc | hc
    · exact .inr hc
    · exact .inl (hfraction c hc)

theorem isDigit_zeros {k : Nat} : ∀ c ∈ List.replicate k '0', c.isDigit = true := by
  intro c hc
  rw [List.eq_of_mem_replicate hc]
  decide

/-- The point is in front of all digits. -/
theorem unsigned_pointBefore {ds : List Char} (hds : ∀ c ∈ ds, c.isDigit = true) (k : Nat) :
    Unsigned (Numeral.value ds * 10 ^ (-(k : Int) - ds.length))
      ('0' :: '.' :: (List.replicate k '0' ++ ds)) := by
  have hvalue : Numeral.value (['0'] ++ (List.replicate k '0' ++ ds)) = Numeral.value ds := by
    have hone : ['0'] ++ List.replicate k '0' = List.replicate (k + 1) '0' := rfl
    rw [← List.append_assoc, hone, Numeral.value_append, Numeral.value_replicate_zero, zero_mul,
      zero_add]
  have hx : numeralValue ['0'] (List.replicate k '0' ++ ds)
      = Numeral.value ds * 10 ^ (-(k : Int) - ds.length) := by
    rw [numeralValue, hvalue, List.length_append, List.length_replicate, div_eq_mul_inv,
      ← zpow_natCast, ← zpow_neg]
    congr 2
    push_cast
    ring
  rw [← hx]
  have hzero : ∀ c ∈ ['0'], c.isDigit = true := List.forall_mem_singleton.mpr (by decide)
  refine unsigned_point (List.cons_ne_nil _ _) (List.forall_mem_append.mpr ⟨hzero, ?_⟩)
  exact List.forall_mem_append.mpr ⟨isDigit_zeros, hds⟩

/-- The point is behind all digits, and is not written. -/
theorem unsigned_pointBehind {ds : List Char} (hds : ∀ c ∈ ds, c.isDigit = true) {k : Nat}
    (hne : ds ++ List.replicate k '0' ≠ []) :
    Unsigned (Numeral.value ds * 10 ^ (k : Int)) (ds ++ List.replicate k '0') := by
  have hx : (Numeral.value (ds ++ List.replicate k '0') : ℚ) = Numeral.value ds * 10 ^ (k : Int) := by
    rw [Numeral.value_append, Numeral.value_replicate_zero, List.length_replicate, zpow_natCast]
    push_cast
    ring
  rw [← hx]
  exact unsigned_digits hne (List.forall_mem_append.mpr ⟨hds, isDigit_zeros⟩)

/-- The point is among the digits. -/
theorem unsigned_pointAmong {ds : List Char} (hds : ∀ c ∈ ds, c.isDigit = true) {k : Nat}
    (hne : ds.take k ≠ []) (hk : k ≤ ds.length) :
    Unsigned (Numeral.value ds * 10 ^ ((k : Int) - ds.length)) (ds.take k ++ '.' :: ds.drop k) := by
  have hsplit : ds.take k ++ ds.drop k = ds := List.take_append_drop k ds
  have hx : numeralValue (ds.take k) (ds.drop k)
      = Numeral.value ds * 10 ^ ((k : Int) - ds.length) := by
    rw [numeralValue, hsplit, List.length_drop, div_eq_mul_inv, ← zpow_natCast, ← zpow_neg]
    congr 2
    omega
  rw [← hx]
  exact unsigned_point hne fun c hc => hds c (by rwa [hsplit] at hc)

/-- A decimal that is written plainly, by where its point stands. -/
theorem unsigned_plainText {d : Decimal} (hd : ∀ c ∈ d.digits, c.isDigit = true) :
    Unsigned d.value (Layout.plainText false d) := by
  obtain ⟨digits, point⟩ := d
  simp only [Layout.plainText, Decimal.value]
  -- The point stands in front of all digits, behind them, or among them.
  split
  · next hpoint =>
    obtain ⟨k, rfl⟩ : ∃ k : Nat, point = -k := ⟨point.natAbs, by omega⟩
    rw [neg_neg, Int.toNat_natCast]
    exact unsigned_pointBefore hd k
  split
  · next hpoint hlast =>
    obtain ⟨k, rfl⟩ : ∃ k : Nat, point = digits.length + k :=
      ⟨(point - digits.length).toNat, by omega⟩
    simp only [add_sub_cancel_left, Int.toNat_natCast, Bool.false_eq_true, if_false, List.append_nil]
    refine unsigned_pointBehind hd fun hnil => hpoint ?_
    have hlength := congrArg List.length hnil
    simp only [List.length_append, List.length_replicate, List.length_nil] at hlength
    omega
  · next hpoint hlast =>
    obtain ⟨k, rfl⟩ : ∃ k : Nat, point = k := ⟨point.toNat, by omega⟩
    rw [Int.toNat_natCast]
    have hk : k ≤ digits.length := Int.ofNat_le.mp (Int.not_le.mp hlast).le
    refine unsigned_pointAmong hd (fun hnil => ?_) hk
    have hlength := congrArg List.length hnil
    simp only [List.length_take, List.length_nil] at hlength
    omega

theorem unsigned_finite (m : Nat) (e : Int) :
    Unsigned (if m = 0 then 0 else (Decimal.shortest .up m e).value)
      (if m = 0 then ['0'] else Layout.plainText false (Decimal.shortest .up m e)) := by
  split
  · have h := @unsigned_digits ['0'] (List.cons_ne_nil _ _) (List.all_eq_true.mp (by decide))
    rwa [show Numeral.value ['0'] = 0 from rfl, Nat.cast_zero] at h
  · exact unsigned_plainText fun _ => Decimal.isDigit_shortest

/-- Every double in query text denotes itself. -/
theorem written_floatLiteral (x : Double) : Written (Constant.ofDouble x) (floatLiteral x) := by
  cases x with
  | nan => exact written_quoted (s := "NaN") (by decide)
  | infinity negative =>
    cases negative with
    | false => exact written_quoted (s := "Infinity") (by decide)
    | true => exact written_quoted (s := "-Infinity") (by decide)
  | finite negative m e =>
    have h := written_number (unsigned_finite m e) negative
    simpa [Constant.ofDouble, floatLiteral, Layout.text, Layout.query] using h

/-! ### Instants -/

theorem isDigit_padded {width n : Nat} {c : Char} (hc : c ∈ Instant.padded width n) :
    c.isDigit = true := by
  rcases List.mem_append.mp hc with hc | hc
  · rw [List.eq_of_mem_replicate hc]
    decide
  · exact Numeral.isDigit_toDigits hc

/-- The text of an instant is digits and six other characters, none of them a quote. -/
theorem mem_instantChars {t : Instant} {c : Char} (hc : c ∈ t.chars) :
    c.isDigit = true ∨ c ∈ ['-', '+', 'T', ':', '.', 'Z'] := by
  have hyear : ∀ {year : Int}, c ∈ Instant.yearText year →
      c.isDigit = true ∨ c ∈ ['-', '+', 'T', ':', '.', 'Z'] := by
    intro year h
    unfold Instant.yearText at h
    split at h
    · exact Or.inl (isDigit_padded h)
    rcases List.mem_cons.mp h with h | h
    · split at h <;> simp [h]
    · exact Or.inl (isDigit_padded h)
  simp only [Instant.chars, List.mem_append, List.mem_cons, List.not_mem_nil, or_false] at hc
  grind [isDigit_padded]

/-- The words that announce a point in time. -/
theorem lexes_timestampWords : Lexes "TIMESTAMP WITH TIME ZONE".toList
    [.word "timestamp", .word "with", .word "time", .word "zone"] := by
  have h := Lexes.phrase "TIMESTAMP WITH TIME "
    [("TIMESTAMP", "timestamp"), ("WITH", "with"), ("TIME", "time")] (by rfl) (by decide)
    (lexes_keyword (show isKeyword "ZONE" "zone" = true by decide))
    (opens_keyword (show isKeyword "ZONE" "zone" = true by decide))
  rwa [← String.toList_append] at h

theorem lexes_timestamp {s : String} (hs : '\'' ∉ s.toList) :
    Lexes ("TIMESTAMP WITH TIME ZONE '" ++ s ++ "'").toList
        [.word "timestamp", .word "with", .word "time", .word "zone", .constant s]
      ∧ Opens ("TIMESTAMP WITH TIME ZONE '" ++ s ++ "'").toList := by
  have hquoted : Opens ("'" ++ s ++ "'").toList := by
    simp only [String.toList_append]
    exact opens_cons _ (by decide) (by decide)
  have hchars : ("TIMESTAMP WITH TIME ZONE '" ++ s ++ "'").toList
      = "TIMESTAMP WITH TIME ZONE".toList ++ ' ' :: ("'" ++ s ++ "'").toList := by
    simp [String.toList_append]
  rw [hchars]
  refine ⟨lexes_timestampWords.blank (lexes_quoted hs) hquoted, ?_⟩
  exact (opens_word (by decide) _).append _

theorem quote_notMem_instantText (t : Instant) : '\'' ∉ t.text.toList := by
  rw [Instant.text, String.toList_ofList]
  intro hmem
  rcases mem_instantChars hmem with h | h <;> exact absurd h (by decide)

theorem written_instant (t : Instant) : Written (.instant t.text) (instantLiteral t) := by
  obtain ⟨hlex, hopens⟩ := lexes_timestamp (quote_notMem_instantText t)
  exact ⟨⟨_, hlex, fun _ => rfl⟩, hopens, Constant.noConfusion⟩

/-! ### Any value -/

theorem written_literal (v : Value) : Written (Constant.ofValue v) (literal v) := by
  cases v with
  | null => exact written_null
  | bool b => exact written_boolean b
  | int n => exact written_ofInt n
  | float x => exact written_floatLiteral x
  | date t => exact written_instant t
  | text s => exact written_text s
  | document d => exact written_text d.compact

theorem floatLiteral_of_isFinite {x : Double} (hx : x.isFinite = true) :
    floatLiteral x = Layout.query.text x := by
  cases x with
  | finite negative m e => rfl
  | _ => exact Bool.noConfusion hx

/-- Whether a text denotes a constant, where nothing at all is written in a way of its own. -/
def WrittenOr (absent : String) (c : Constant) (text : String) : Prop :=
  c = .null ∧ text = absent ∨ c ≠ .null ∧ Written c text

theorem Constant.ofDouble_ne_null (x : Double) : ofDouble x ≠ .null := by
  cases x <;> exact Constant.noConfusion

theorem written_numberText (absent s : String) :
    WrittenOr absent (numberTextConstant s) (numberText absent s) := by
  simp only [numberTextConstant, numberText]
  split
  · exact .inl ⟨rfl, rfl⟩
  refine .inr ?_
  cases Numeral.int64? (Text.trim s) with
  | some n => exact ⟨Constant.noConfusion, written_ofInt n⟩
  | none =>
    cases Double.ofText? (Text.trim s) with
    | none => exact ⟨Constant.noConfusion, written_text s⟩
    | some x =>
      simp only
      split
      · next hx =>
        rw [← floatLiteral_of_isFinite hx]
        exact ⟨Constant.ofDouble_ne_null x, written_floatLiteral x⟩
      · exact ⟨Constant.noConfusion, written_text s⟩

theorem Constant.ofValue_ne_null {v : Value} (hv : v.isNull = false) : ofValue v ≠ .null := by
  cases v with
  | null => exact Bool.noConfusion hv
  | float x => exact ofDouble_ne_null x
  | _ => exact Constant.noConfusion

theorem written_numeric (absent : String) {v : Value} (hv : v.isNull = false) :
    WrittenOr absent (numberConstant v) (number absent v) := by
  have hliteral : WrittenOr absent (.ofValue v) (literal v) :=
    .inr ⟨Constant.ofValue_ne_null hv, written_literal v⟩
  cases v with
  | bool b =>
    cases b with
    | false => exact .inl ⟨rfl, rfl⟩
    | true => exact hliteral
  | text s => exact written_numberText absent s
  | _ => exact hliteral

/-- What a value is written as for an attribute denotes the value for that attribute, so whatever
is written denotes something. -/
theorem written_encode {absent : String} {a : Attribute} {v : Value} {text : String}
    (h : encode absent a v = .ok text) :
    ∃ c, comparand a v = .ok c ∧ WrittenOr absent c text := by
  unfold encode at h
  unfold comparand
  split at h
  · next hnull =>
    cases h
    exact ⟨_, if_pos hnull, .inl ⟨rfl, rfl⟩⟩
  next hnull =>
  rw [if_neg hnull]
  have hv : v.isNull = false := Bool.eq_false_iff.mpr hnull
  cases htype : a.type with
  | json | array =>
    rw [htype] at h
    cases h
    exact ⟨_, rfl, .inr ⟨Constant.noConfusion, written_text _⟩⟩
  | number kind =>
    rw [htype] at h
    cases h
    exact ⟨_, rfl, written_numeric absent hv⟩
  | string | text | boolean =>
    rw [htype] at h
    cases h
    exact ⟨_, rfl, .inr ⟨Constant.ofValue_ne_null hv, written_literal v⟩⟩
  -- Only a date can fail, and only here the value is looked at to find that it is nothing.
  | date =>
    simp only [htype] at h
    cases hdate : toInstant v with
    | error err =>
      rw [hdate] at h
      cases h
    | ok found =>
      rw [hdate] at h
      cases found with
      | none =>
        cases h
        exact ⟨_, rfl, .inl ⟨rfl, rfl⟩⟩
      | some t =>
        cases h
        exact ⟨_, rfl, .inr ⟨Constant.noConfusion, written_instant t⟩⟩

theorem written_compared {a : Attribute} {v : Value} {text : String}
    (h : compared a v = .ok text) : ∃ c, comparand a v = .ok c ∧ Written c text := by
  obtain ⟨c, hc, ⟨rfl, rfl⟩ | ⟨-, hwritten⟩⟩ := written_encode h
  · exact ⟨_, hc, written_null⟩
  · exact ⟨c, hc, hwritten⟩

end Sql

end EntityStore
