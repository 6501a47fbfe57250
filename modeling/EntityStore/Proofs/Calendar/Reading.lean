import EntityStore.Proofs.Calendar.Days
import EntityStore.Proofs.Calendar.Notations
import EntityStore.Proofs.Sql.Values

/-!
# Instants and their texts

A row hands out an instant as text, and a host that writes the row back hands in that text. It should be stored
as the instant would be. For years of four digits it is, also in a leap second: the text is a timestamp and is
read to the thousandth of a second, which is all that is ever written (`ofText?_text`, `text_truncated`). The
number of milliseconds is stored in the same way, but it has no way to say that a second is a leap second, and
zero of them count as no date at all. The text of any other year begins with a sign and ends with a `Z`; the one
is in no timestamp, the other in no other notation, so the text is refused (`dates_survive_as_text`).
-/

set_option autoImplicit false

namespace EntityStore

namespace Instant

/-! ## Fields -/

theorem length_padded {width n : Nat} (hw : 0 < width) (h : n < 10 ^ width) :
    (padded width n).length = width := by
  have hle := (Nat.length_toDigits_le_iff (by decide) hw).mpr h
  rw [padded, List.length_append, List.length_replicate]
  omega

theorem value_padded (width n : Nat) : Numeral.value (padded width n) = n := by
  rw [padded, Numeral.value_append, Numeral.value_replicate_zero, zero_mul, zero_add,
    Numeral.value_toDigits]

theorem padded_ne_nil (width n : Nat) : padded width n ≠ [] := by
  simp [padded, Nat.toDigits_ne_nil]

theorem isDigits_padded {width n : Nat} (hw : 0 < width) (h : n < 10 ^ width) :
    IsDigits width width (padded width n) n where
  isDigit _ := Sql.isDigit_padded
  least := (length_padded hw h).ge
  most := (length_padded hw h).le
  value := value_padded width n

/-- Thousandths of a second are shown in three digits. -/
theorem isFraction_padded {ms : Nat} (h : ms < 1000) :
    IsFraction ('.' :: padded 3 ms) (ms * 1000000) := by
  have hlength : (padded 3 ms).length = 3 := length_padded (by decide) h
  have hkept : (padded 3 ms).take 9 = padded 3 ms := List.take_of_length_le (by omega)
  have hfraction := IsFraction.digits (padded_ne_nil 3 ms) fun _ => Sql.isDigit_padded
  rwa [hkept, value_padded, hlength] at hfraction

/-! ## What a text shows of an instant -/

/-- Whatever is finer than a thousandth of a second is cut off. -/
def truncated (t : Instant) : Instant where
  seconds := t.seconds
  nanos := t.nanos - t.nanos % 1000000
  inRange := t.inRange
  leap := by
    have h := t.leap
    simp only [secondNanos] at h ⊢
    omega

/-- The day of an instant, in universal time. -/
def date (t : Instant) : Date := Date.ofDays (t.seconds / 86400)

/-- The time of day of an instant, in thousandths of a second. A leap second is the second sixty. -/
def clock (t : Instant) : Clock :=
  let ofDay := (t.seconds % 86400).toNat
  ⟨ofDay / 3600, ofDay / 60 % 60, ofDay % 60 + (if t.nanos < secondNanos then 0 else 1),
    t.nanos % secondNanos / 1000000 * 1000000⟩

theorem clock_nanos (t : Instant) :
    t.clock.nanos = t.nanos % secondNanos / 1000000 * 1000000 := rfl

/-- A time of day as the text of an instant shows it. -/
def clockShown (c : Clock) : List Char :=
  padded 2 c.hour ++ ':' :: (padded 2 c.minute ++ ':' :: (padded 2 c.second
    ++ '.' :: (padded 3 (c.nanos / 1000000) ++ ['Z'])))

/-- A day and a time of day as the text of an instant shows them. -/
def shown (d : Date) (c : Clock) : List Char :=
  yearText d.year ++ '-' :: (padded 2 d.month ++ '-' :: (padded 2 d.day ++ 'T' :: clockShown c))

theorem chars_eq_shown (t : Instant) : t.chars = shown t.date t.clock := by
  have hms : t.clock.nanos / 1000000 = t.nanos % secondNanos / 1000000 := by
    rw [clock_nanos, Nat.mul_div_cancel _ (by decide)]
  rw [shown, clockShown, hms]
  simp only [chars, date, clock, List.append_assoc, List.cons_append]

/-- The parts that the text shows are no greater than they can be, and are put together to what the text
shows of the instant. -/
theorem assemble?_clock (t : Instant) : t.clock.hour ≤ 23 ∧ t.clock.minute ≤ 59 ∧ t.clock.second ≤ 60
    ∧ t.clock.nanos < secondNanos ∧ assemble? t.date t.clock 0 = some t.truncated := by
  have hdays : t.date.toDays = t.seconds / 86400 := Date.toDays_ofDays _
  have hvalid : t.date.Valid := Date.valid_ofDays _
  have hleap := t.leap
  -- Names for the second of the day and the second that is shown, so that what is left is linear.
  obtain ⟨ofDay, hofDay⟩ : ∃ ofDay : Nat, ofDay = (t.seconds % 86400).toNat := ⟨_, rfl⟩
  obtain ⟨second, hsecond⟩ :
      ∃ second : Nat, second = ofDay % 60 + (if t.nanos < secondNanos then 0 else 1) := ⟨_, rfl⟩
  have hclock : t.clock = ⟨ofDay / 3600, ofDay / 60 % 60, second,
      t.nanos % secondNanos / 1000000 * 1000000⟩ := by
    rw [hsecond, hofDay]
    rfl
  have hshown : second = ofDay % 60 ∧ t.nanos < secondNanos
      ∨ second = 60 ∧ ofDay % 60 = 59 ∧ secondNanos ≤ t.nanos ∧ t.nanos < 2 * secondNanos := by
    rw [hsecond]
    split <;> omega
  have htruncated : t.truncated.nanos = t.nanos - t.nanos % 1000000 := rfl
  simp only [hclock]
  refine ⟨by omega, by omega, by omega, by unfold secondNanos; omega, ?_⟩
  rw [assemble?, if_pos ⟨hvalid, by simp only; omega, by simp only; omega, by simp only; omega⟩]
  have hseconds : t.date.toDays * 86400
      + ((ofDay / 3600 * 3600 + ofDay / 60 % 60 * 60 + min second 59 : Nat) : Int) - 0 = t.seconds := by
    omega
  have hnanos : (if second = 60 then t.nanos % secondNanos / 1000000 * 1000000 + secondNanos
      else t.nanos % secondNanos / 1000000 * 1000000) = t.truncated.nanos := by
    rw [htruncated]
    unfold secondNanos at hshown ⊢
    split <;> omega
  simp only [hseconds, hnanos]
  rw [ofParts?, dif_pos ⟨t.inRange, t.truncated.leap⟩]
  rfl

/-! ## The text as a whole -/

section Shown

variable {d : Date} {c : Clock}

/-- The numbers of a day and a time of day, as far as they are shown in two or three digits. -/
structure Fits (d : Date) (c : Clock) : Prop where
  month : d.month < 10 ^ 2
  day : d.day < 10 ^ 2
  hour : c.hour < 10 ^ 2
  minute : c.minute < 10 ^ 2
  second : c.second < 10 ^ 2
  nanos : c.nanos / 1000000 < 1000
  whole : c.nanos / 1000000 * 1000000 = c.nanos

theorem isDigits_two {n : Nat} (h : n < 10 ^ 2) : IsDigits 2 2 (padded 2 n) n :=
  isDigits_padded (by decide) h

theorem isFraction_shown (h : Fits d c) :
    IsFraction ('.' :: padded 3 (c.nanos / 1000000)) c.nanos := by
  have hfraction := isFraction_padded h.nanos
  rwa [h.whole] at hfraction

/-- In a year of four digits, what is shown is a timestamp. -/
theorem isTimestamp_shown (h : Fits d c) (hyear : 0 ≤ d.year ∧ d.year ≤ 9999) {t : Instant}
    (ht : IsMoment d c 0 t) : IsTimestamp (shown d c) t := by
  have hfour : IsFullYear (yearText d.year) d.year := by
    rw [yearText, if_pos hyear]
    exact ⟨hyear.1, isDigits_padded (by decide) (by omega)⟩
  have hdate := IsDate.mk hfour (isDigits_two h.month) (isDigits_two h.day)
  have htime := IsClock.mk (isDigits_two h.hour) (isDigits_two h.minute) (isDigits_two h.second)
    (isFraction_shown h)
  have hstamp := IsTimestamp.mk hdate (.inl rfl) htime (.universal (.inl rfl)) ht
  simpa [shown, clockShown] using hstamp

theorem isField_two {n : Nat} (h : n < 10 ^ 2) : IsField 2 (padded 2 n) n := by
  have hfield : IsField 2 ([] ++ padded 2 n) n := .mk (List.forall_mem_nil _) (isDigits_two h)
  rwa [List.nil_append] at hfield

theorem field?_two {n : Nat} (h : n < 10 ^ 2) (rest : List Char) :
    field? (padded 2 n ++ rest) = some (n, rest) :=
  field?_append (isField_two h).one (.inl (isField_two h))

/-- A year that has not four digits has a sign. -/
theorem isYear_signed (hyear : ¬(0 ≤ d.year ∧ d.year ≤ 9999)) : IsYear (yearText d.year) d.year := by
  have hdigits : IsDigits 1 (padded 4 d.year.natAbs).length (padded 4 d.year.natAbs) d.year.natAbs :=
    ⟨fun _ => Sql.isDigit_padded, List.length_pos_iff.mpr (padded_ne_nil 4 _), le_rfl,
      value_padded 4 _⟩
  rw [yearText, if_neg hyear]
  split
  · next hneg =>
    have hsigned := IsYear.negative (List.forall_mem_nil _) hdigits
    rwa [show -(d.year.natAbs : Int) = d.year by omega] at hsigned
  · next hneg =>
    have hsigned := IsYear.positive (List.forall_mem_nil _) hdigits
    rwa [show (d.year.natAbs : Int) = d.year by omega] at hsigned

/-- In any other year, the year has a sign and the text is in none of the notations: timestamps have no
signs, and the others end before the `Z`. -/
theorem ofChars?_shown (h : Fits d c) (hyear : ¬(0 ≤ d.year ∧ d.year ≤ 9999)) :
    ofChars? (shown d c) = none := by
  -- Each of the four notations fails at another place: the first one at the sign.
  have htimestamp : timestamp? (shown d c) = none := by
    have hsign : (if d.year < 0 then '-' else '+').isDigit = false := by split <;> rfl
    have hfixed : ∀ cs, fixed? 4 ((if d.year < 0 then '-' else '+') :: cs) = none := by
      intro cs
      simp [fixed?, hsign]
    rw [timestamp?, shown, yearText, if_neg hyear, List.cons_append, hfixed]
    rfl
  have hdate : date? (shown d c) = some (d, 'T' :: clockShown c) := by
    have hday := IsDate.mk (isYear_signed hyear) (isField_two h.month).one (isField_two h.day).one
    exact date?_eq_some_iff.mpr ⟨_, hday, by simp [shown], .inr (by simp)⟩
  have hclock : clock? (clockShown c) = some (c, ['Z']) := by
    have hfraction : fraction? ('.' :: (padded 3 (c.nanos / 1000000) ++ ['Z']))
        = some (c.nanos, ['Z']) := fraction?_append (isFraction_shown h) (by simp)
    simp only [clock?, clockShown, bind, Option.bind, field?_two h.hour, mark?, if_true,
      field?_two h.minute, field?_two h.second, hfraction]
  -- The others read the date. Behind it the second one wants a digit, the third one does not
  -- read the `Z`, and the last one wants the end.
  have hblank : dateTime? (fun cs => some (Text.trimLeft cs)) (shown d c) = none := by
    have hnone : clock? (Text.trimLeft ('T' :: clockShown c)) = none := by
      have hfield : field? ('T' :: clockShown c) = none := rfl
      have htrim : Text.trimLeft ('T' :: clockShown c) = 'T' :: clockShown c := rfl
      rw [htrim, clock?, hfield]
      rfl
    simp only [dateTime?, hdate, bind, Option.bind, hnone]
  have hletter : dateTime? (mark? 'T') (shown d c) = none := by
    simp [dateTime?, hdate, bind, Option.bind, mark?, hclock]
  have hmidnight : midnight? (shown d c) = none := by
    simp [midnight?, hdate, bind, Option.bind]
  simp [ofChars?, htimestamp, hblank, hletter, hmidnight]

end Shown

/-! ## Instants -/

theorem fits (t : Instant) : Fits t.date t.clock := by
  obtain ⟨hhour, hminute, hsecond, hnanos, -⟩ := assemble?_clock t
  have hvalid : t.date.Valid := Date.valid_ofDays _
  have hday : Date.daysInMonth t.date.year t.date.month ≤ 31 := by
    unfold Date.daysInMonth
    split
    · split <;> omega
    · split <;> omega
  unfold secondNanos at hnanos
  exact
    { month := Nat.lt_of_le_of_lt hvalid.2.1 (by decide)
      day := Nat.lt_of_le_of_lt (hvalid.2.2.2.trans hday) (by decide)
      hour := Nat.lt_of_le_of_lt hhour (by decide)
      minute := Nat.lt_of_le_of_lt hminute (by decide)
      second := Nat.lt_of_le_of_lt hsecond (by decide)
      nanos := by omega
      whole := by rw [clock_nanos, Nat.mul_div_cancel _ (by decide)] }

/-- The text of an instant is read back, in thousandths of a second, if its year has four digits, and else
not at all. -/
theorem ofText?_text (t : Instant) :
    ofText? t.text = if 0 ≤ t.date.year ∧ t.date.year ≤ 9999 then some t.truncated else none := by
  rw [ofText?, text, String.toList_ofList, chars_eq_shown]
  split
  · next hyear =>
    have hmoment := assemble?_eq_some_iff.mp (assemble?_clock t).2.2.2.2
    have hread := timestamp?_eq_some_iff.mpr (isTimestamp_shown t.fits hyear hmoment)
    rw [ofChars?, hread]
    rfl
  · next hyear => exact ofChars?_shown t.fits hyear

/-- What the text does not show makes no difference to it. -/
theorem text_truncated (t : Instant) : t.truncated.text = t.text := by
  have hleap := t.leap
  have hdate : t.truncated.date = t.date := rfl
  have hclock : t.truncated.clock = t.clock := by
    have hnanos : t.truncated.nanos = t.nanos - t.nanos % 1000000 := rfl
    have hlt : t.truncated.nanos < secondNanos ↔ t.nanos < secondNanos := by
      unfold secondNanos
      omega
    have hms : t.truncated.nanos % secondNanos / 1000000 = t.nanos % secondNanos / 1000000 := by
      unfold secondNanos at hleap ⊢
      omega
    have hseconds : t.truncated.seconds = t.seconds := rfl
    simp only [clock, hseconds, hlt, hms]
  rw [text, text, chars_eq_shown, chars_eq_shown, hdate, hclock]

/-- The number of milliseconds from the beginning of 1970, rounded down. -/
def millis (t : Instant) : Int := t.seconds * 1000 + (t.nanos / 1000000 : Nat)

/-- Outside a leap second, the number of milliseconds tells what the text shows. -/
theorem ofMillis?_millis {t : Instant} (h : t.nanos < secondNanos) :
    ofMillis? t.millis = some t.truncated := by
  have hnanos : t.truncated.nanos = t.nanos - t.nanos % 1000000 := rfl
  unfold secondNanos at h
  have hseconds : t.millis / 1000 = t.seconds := by
    unfold millis
    omega
  have hms : (t.millis % 1000).toNat * 1000000 = t.truncated.nanos := by
    unfold millis
    omega
  rw [ofMillis?, hseconds, hms, ofParts?, dif_pos ⟨t.inRange, t.truncated.leap⟩]
  rfl

theorem isBlank_of_mem_text {t : Instant} {c : Char} (hc : c ∈ t.text.toList) :
    Text.isBlank c = false := by
  rw [text, String.toList_ofList] at hc
  rcases Sql.mem_instantChars hc with hdigit | hmark
  · exact isBlank_of_isDigit hdigit
  · have hnone : ['-', '+', 'T', ':', '.', 'Z'].all (!Text.isBlank ·) = true := by decide
    simpa using List.all_eq_true.mp hnone c hmark

end Instant

theorem Text.trim_of_forall {s : String} (h : ∀ c ∈ s.toList, isBlank c = false) : trim s = s := by
  have hdrop : ∀ cs : List Char, (∀ c ∈ cs, isBlank c = false) → cs.dropWhile isBlank = cs := by
    intro cs hcs
    cases cs with
    | nil => rfl
    | cons c cs => rw [List.dropWhile_cons_of_neg (by rw [hcs c List.mem_cons_self]; decide)]
  have hleft : trimLeft s.toList = s.toList := hdrop _ h
  have hright : trimRight s.toList = s.toList := by
    rw [trimRight, hdrop _ fun c hc => h c (List.mem_reverse.mp hc), List.reverse_reverse]
  rw [trim, trimBoth, hleft, hright, String.ofList_toList]

namespace Sql

variable {a : Attribute}

theorem stored_instant (ha : a.type = .date) {v : Value} {t : Instant}
    (h : toInstant v = .ok (some t)) : stored a v = .ok (instantLiteral t) := by
  have hv : v.isNull = false := by
    cases v with
    | null => cases h
    | _ => rfl
  rw [stored, encode, hv, ha, h]
  rfl

theorem toInstant_text (t : Instant) : toInstant (.text t.text)
    = if 0 ≤ t.date.year ∧ t.date.year ≤ 9999 then .ok (some t.truncated)
      else .error (.textNotDate t.text) := by
  have htrim : Text.trim t.text = t.text := Text.trim_of_forall fun _ => Instant.isBlank_of_mem_text
  have hempty : t.text.isEmpty = false := by
    rw [← Bool.not_eq_true, String.isEmpty_iff, ← String.toList_eq_nil_iff, Instant.text,
      String.toList_ofList]
    simp [Instant.chars]
  rw [toInstant]
  simp only [htrim, hempty, Bool.false_eq_true, if_false, Instant.ofText?_text]
  by_cases hyear : 0 ≤ t.date.year ∧ t.date.year ≤ 9999
  · rw [if_pos hyear, if_pos hyear]
  · rw [if_neg hyear, if_neg hyear]

theorem instantLiteral_truncated (t : Instant) : instantLiteral t.truncated = instantLiteral t := by
  unfold instantLiteral
  rw [Instant.text_truncated]

/-- The text of an instant in a year of four digits is stored as the instant itself is, and so is the number
of its milliseconds, unless that is zero or cannot tell a leap second. In other years the text is refused. -/
theorem dates_survive_as_text (ha : a.type = .date) (t : Instant) :
    stored a (.date t) = .ok (instantLiteral t)
    ∧ (t.nanos < secondNanos → t.millis ≠ 0 → stored a (.int t.millis) = .ok (instantLiteral t))
    ∧ (0 ≤ t.date.year ∧ t.date.year ≤ 9999 → stored a (.text t.text) = .ok (instantLiteral t))
    ∧ (¬(0 ≤ t.date.year ∧ t.date.year ≤ 9999) →
      stored a (.text t.text) = .error (.textNotDate t.text)
      ∧ (Error.textNotDate t.text).kind = .invalidValue) := by
  refine ⟨stored_instant ha rfl, fun hleap hzero => ?_, fun hyear => ?_, fun hyear => ⟨?_, rfl⟩⟩
  · have hmillis : toInstant (.int t.millis) = .ok (some t.truncated) := by
      rw [toInstant, if_neg hzero, instantOfMillis, Instant.ofMillis?_millis hleap]
      rfl
    rw [stored_instant ha hmillis, instantLiteral_truncated]
  · have htext := toInstant_text t
    rw [if_pos hyear] at htext
    rw [stored_instant ha htext, instantLiteral_truncated]
  · have htext := toInstant_text t
    rw [if_neg hyear] at htext
    rw [stored, encode, ha, htext]
    rfl

/-- A leap second with a fraction that is not shown to its end, and the first instant of the year ten
thousand. -/
theorem dates_survive_at_the_edges :
    let seen : Attribute := .plain "seen" .date
    (∃ t : Instant, t.seconds = 1483228799 ∧ t.nanos = 1123456789
      ∧ t.text = "2016-12-31T23:59:60.123Z"
      ∧ stored seen (.text "2016-12-31T23:59:60.123Z") = stored seen (.date t))
    ∧ ∃ t : Instant, t.seconds = 253402300800 ∧ t.nanos = 0
      ∧ t.text = "+10000-01-01T00:00:00.000Z"
      ∧ stored seen (.int 253402300800000) = stored seen (.date t)
      ∧ stored seen (.text "+10000-01-01T00:00:00.000Z")
        = .error (.textNotDate "+10000-01-01T00:00:00.000Z") := by
  intro seen
  have hseen : seen.type = .date := rfl
  obtain ⟨leap, hseconds, hnanos⟩ : ∃ t : Instant, t.seconds = 1483228799 ∧ t.nanos = 1123456789 :=
    ⟨⟨1483228799, 1123456789, by decide, by decide⟩, rfl, rfl⟩
  obtain ⟨late, hseconds', hnanos'⟩ : ∃ t : Instant, t.seconds = 253402300800 ∧ t.nanos = 0 :=
    ⟨⟨253402300800, 0, by decide, by decide⟩, rfl, rfl⟩
  have hleap : leap.text = "2016-12-31T23:59:60.123Z" := by
    rw [Instant.text, Instant.chars, hseconds, hnanos]
    decide +kernel
  have hlate : late.text = "+10000-01-01T00:00:00.000Z" := by
    rw [Instant.text, Instant.chars, hseconds', hnanos']
    decide +kernel
  have hyear : leap.date.year = 2016 := by
    rw [Instant.date, hseconds]
    decide +kernel
  have hyear' : late.date.year = 10000 := by
    rw [Instant.date, hseconds']
    decide +kernel
  have hms : late.millis = 253402300800000 := by
    rw [Instant.millis, hseconds', hnanos']
    rfl
  obtain ⟨hdate, -, htext, -⟩ := dates_survive_as_text hseen leap
  obtain ⟨hdate', hmillis, -, hrefused⟩ := dates_survive_as_text hseen late
  rw [hms] at hmillis
  refine ⟨⟨leap, hseconds, hnanos, hleap, ?_⟩, late, hseconds', hnanos', hlate, ?_, ?_⟩
  · rw [← hleap, hdate, htext (by rw [hyear]; decide)]
  · rw [hdate', hmillis (by rw [hnanos']; decide) (by decide)]
  · rw [← hlate, (hrefused (by rw [hyear']; decide)).1]

end Sql

end EntityStore
