import EntityStore.Calendar.Reader
import Mathlib.Data.List.DropRight
import Mathlib.Data.List.TakeWhile
import Mathlib.Data.Option.Basic

/-!
# The notations of an instant

What a text looks like that writes an instant, said without reading it. A text is in one of four notations:
a timestamp (`IsTimestamp`), a day and a time of day with blanks or with a `T` between them (`IsDateTime`), or
a day alone (`IsMidnight`). Each of the four readers reads the texts of its own notation and no others, and
reads each as the instant that the numbers in it name (`timestamp?_eq_some_iff`,
`dateTime?_blanks_eq_some_iff`, `dateTime?_mark_eq_some_iff`, `midnight?_eq_some_iff`).

The shapes are put together of the shapes of fields. A field whose width is not fixed is read as far as there
are digits. What comes behind a field is no digit, so this makes no difference, but for one place: blanks
between a day and a time of day may be missing, and then it has to be a day of two digits.
-/

set_option autoImplicit false

namespace EntityStore.Instant

/-! ## Shapes -/

/-- Digits, and the number that they write. There are at least `least` of them, and at most `most`. -/
structure IsDigits (least most : Nat) (ds : List Char) (n : Nat) : Prop where
  isDigit : ∀ c ∈ ds, c.isDigit = true
  least : least ≤ ds.length
  most : ds.length ≤ most
  value : Numeral.value ds = n

/-- A field of two digits, or of one if `least` is one, with any blanks in front. -/
inductive IsField (least : Nat) : List Char → Nat → Prop
  | mk {blanks ds : List Char} {n : Nat} (hblanks : ∀ c ∈ blanks, Text.isBlank c = true)
    (hds : IsDigits least 2 ds n) : IsField least (blanks ++ ds) n

/-- A year in a timestamp. -/
structure IsFullYear (ds : List Char) (year : Int) : Prop where
  nonneg : 0 ≤ year
  digits : IsDigits 4 4 ds year.toNat

/-- A year, with any blanks in front: one digit to four, or a sign and any number of them. -/
inductive IsYear : List Char → Int → Prop
  | plain {blanks ds : List Char} {n : Nat} (hblanks : ∀ c ∈ blanks, Text.isBlank c = true)
    (hds : IsDigits 1 4 ds n) : IsYear (blanks ++ ds) n
  | positive {blanks ds : List Char} {n : Nat} (hblanks : ∀ c ∈ blanks, Text.isBlank c = true)
    (hds : IsDigits 1 ds.length ds n) : IsYear (blanks ++ '+' :: ds) n
  | negative {blanks ds : List Char} {n : Nat} (hblanks : ∀ c ∈ blanks, Text.isBlank c = true)
    (hds : IsDigits 1 ds.length ds n) : IsYear (blanks ++ '-' :: ds) (-(n : Int))

/-- A fraction of a second in nanoseconds, which may be missing. Digits behind the ninth do not count. -/
inductive IsFraction : List Char → Nat → Prop
  | missing : IsFraction [] 0
  | digits {ds : List Char} (hne : ds ≠ []) (hds : ∀ c ∈ ds, c.isDigit = true) :
    IsFraction ('.' :: ds) (Numeral.value (ds.take 9) * Nat.pow 10 (9 - (ds.take 9).length))

/-- A number of hours and minutes, in seconds. -/
inductive IsShift : List Char → Nat → Prop
  | mk {hours minutes : List Char} {h m : Nat} (hhours : IsDigits 2 2 hours h) (hh : h ≤ 23)
    (hminutes : IsDigits 2 2 minutes m) (hm : m ≤ 59) :
    IsShift (hours ++ ':' :: minutes) (h * 3600 + m * 60)

/-- An offset from universal time, in seconds. A minus sign may also be the mathematical one. -/
inductive IsOffset : List Char → Int → Prop
  | universal {c : Char} (hc : c = 'Z' ∨ c = 'z') : IsOffset [c] 0
  | ahead {shift : List Char} {n : Nat} (hshift : IsShift shift n) : IsOffset ('+' :: shift) n
  | behind {c : Char} {shift : List Char} {n : Nat} (hc : c = '-' ∨ c.toNat = 0x2212)
    (hshift : IsShift shift n) : IsOffset (c :: shift) (-(n : Int))

/-- A day: a year, a month and a day of the month. -/
inductive IsDate (isYear : List Char → Int → Prop) (isMonth isDay : List Char → Nat → Prop) :
    List Char → Date → Prop
  | mk {year month day : List Char} {d : Date} (hyear : isYear year d.year)
    (hmonth : isMonth month d.month) (hday : isDay day d.day) :
    IsDate isYear isMonth isDay (year ++ '-' :: (month ++ '-' :: day)) d

/-- A time of day. -/
inductive IsClock (isField : List Char → Nat → Prop) : List Char → Clock → Prop
  | mk {hour minute second fraction : List Char} {c : Clock} (hhour : isField hour c.hour)
    (hminute : isField minute c.minute) (hsecond : isField second c.second)
    (hfraction : IsFraction fraction c.nanos) :
    IsClock isField (hour ++ ':' :: (minute ++ ':' :: (second ++ fraction))) c

/-- A day as people write it. The day of the month has at least `least` digits. -/
abbrev IsDay (least : Nat) : List Char → Date → Prop := IsDate IsYear (IsField 1) (IsField least)

/-- The instant of a day and a time of day that is `offset` seconds ahead of universal time. The second sixty
is the leap part of the second fifty-nine. -/
structure IsMoment (d : Date) (c : Clock) (offset : Int) (t : Instant) : Prop where
  valid : d.Valid
  hour : c.hour ≤ 23
  minute : c.minute ≤ 59
  second : c.second ≤ 60
  seconds : t.seconds = d.toDays * 86400
    + ((c.hour * 3600 + c.minute * 60 + min c.second 59 : Nat) : Int) - offset
  nanos : t.nanos = if c.second = 60 then c.nanos + secondNanos else c.nanos

/-! ## Notations -/

/-- The timestamp of the internet. -/
inductive IsTimestamp : List Char → Instant → Prop
  | mk {date time zone : List Char} {between : Char} {d : Date} {c : Clock} {offset : Int} {t : Instant}
    (hdate : IsDate IsFullYear (IsDigits 2 2) (IsDigits 2 2) date d)
    (hbetween : between = 'T' ∨ between = 't' ∨ between = ' ')
    (htime : IsClock (IsDigits 2 2) time c) (hzone : IsOffset zone offset)
    (ht : IsMoment d c offset t) : IsTimestamp (date ++ between :: (time ++ zone)) t

/-- A day and a time of day without an offset. Between them are `mark` and the blanks that an hour may have in
front. -/
inductive IsDateTime (mark : List Char) : List Char → Instant → Prop
  | mk {date time : List Char} {d : Date} {c : Clock} {t : Instant} (hdate : IsDay 1 date d)
    (htime : IsClock (IsField 1) time c)
    -- Otherwise the day would take the first digit of the hour.
    (hapart : IsDay 2 date d ∨ ∀ x ∈ (mark ++ time).head?, x.isDigit = false)
    (ht : IsMoment d c 0 t) : IsDateTime mark (date ++ (mark ++ time)) t

/-- A day alone, which means its midnight. -/
inductive IsMidnight : List Char → Instant → Prop
  | mk {date : List Char} {d : Date} {t : Instant} (hdate : IsDay 1 date d)
    (ht : IsMoment d ⟨0, 0, 0, 0⟩ 0 t) : IsMidnight date t

variable {cs rest ds : List Char} {n : Nat} {c : Char} {d : Date} {t : Instant}

/-! ## Digits -/

theorem IsDigits.mono {least fewer most : Nat} (h : IsDigits least most ds n) (hle : fewer ≤ least) :
    IsDigits fewer most ds n :=
  { h with least := hle.trans h.least }

theorem takeWhile_isDigit_append (hds : ∀ c ∈ ds, c.isDigit = true)
    (hrest : ∀ c ∈ rest.head?, c.isDigit = false) : (ds ++ rest).takeWhile Char.isDigit = ds := by
  rw [List.takeWhile_append_of_pos hds]
  cases rest with
  | nil => simp
  | cons c rest => simp [hrest c rfl]

theorem drop_length_takeWhile_isDigit (cs : List Char) :
    cs.drop (cs.takeWhile Char.isDigit).length = cs.dropWhile Char.isDigit := by
  have h : (cs.takeWhile Char.isDigit ++ cs.dropWhile Char.isDigit).drop
      (cs.takeWhile Char.isDigit).length = cs.dropWhile Char.isDigit := List.drop_left
  rwa [List.takeWhile_append_dropWhile] at h

theorem fixed?_append {width : Nat} (h : IsDigits width width ds n) (rest : List Char) :
    fixed? width (ds ++ rest) = some (n, rest) := by
  have hlength : ds.length = width := le_antisymm h.most h.least
  have hall : ds.all Char.isDigit = true := List.all_eq_true.mpr h.isDigit
  rw [fixed?, List.take_left' hlength, List.drop_left' hlength, if_pos ⟨hlength, hall⟩, h.value]

theorem fixed?_eq_some_iff {width : Nat} :
    fixed? width cs = some (n, rest) ↔ ∃ ds, IsDigits width width ds n ∧ cs = ds ++ rest := by
  constructor
  · intro h
    rw [fixed?, Option.ite_none_right_eq_some] at h
    obtain ⟨⟨hlength, hall⟩, h⟩ := h
    cases h
    exact ⟨cs.take width, ⟨List.all_eq_true.mp hall, hlength.ge, hlength.le, rfl⟩,
      (List.take_append_drop width cs).symm⟩
  · rintro ⟨ds, hds, rfl⟩
    exact fixed?_append hds rest

/-- Digits are read up to where they end, or until there are as many as there may be. -/
theorem digits?_append {most : Nat} (h : IsDigits 1 most ds n)
    (hrest : ds.length = most ∨ ∀ c ∈ rest.head?, c.isDigit = false) :
    digits? most (ds ++ rest) = some (n, rest) := by
  have htake : ((ds ++ rest).take most).takeWhile Char.isDigit = ds := by
    rcases hrest with hfull | hrest
    · rw [List.take_left' hfull, List.takeWhile_eq_self_iff.mpr h.isDigit]
    · rw [← List.take_takeWhile, takeWhile_isDigit_append h.isDigit hrest, List.take_of_length_le h.most]
  have hne : ds ≠ [] := List.ne_nil_of_length_pos h.least
  rw [digits?, htake, List.drop_left, h.value]
  simp [hne]

theorem exists_of_digits? {most : Nat} (h : digits? most cs = some (n, rest)) :
    ∃ ds, IsDigits 1 most ds n ∧ cs = ds ++ rest
      ∧ (ds.length = most ∨ ∀ c ∈ rest.head?, c.isDigit = false) := by
  rw [digits?, ← List.take_takeWhile, Option.ite_none_left_eq_some, List.isEmpty_iff] at h
  obtain ⟨hne, h⟩ := h
  cases h
  have hfront : (cs.takeWhile Char.isDigit).take most <+: cs :=
    (List.take_prefix _ _).trans (List.takeWhile_prefix _)
  have hdigit : ∀ c ∈ (cs.takeWhile Char.isDigit).take most, c.isDigit = true :=
    fun c hc => List.mem_takeWhile_imp (List.mem_of_mem_take hc)
  refine ⟨_, ⟨hdigit, List.length_pos_iff.mpr hne, List.length_take_le _ _, rfl⟩,
    (List.prefix_iff_eq_append.mp hfront).symm, ?_⟩
  by_cases hmost : most ≤ (cs.takeWhile Char.isDigit).length
  · exact .inl (List.length_take_of_le hmost)
  · -- All the digits were taken.
    rw [List.take_of_length_le (Nat.le_of_not_le hmost)]
    refine .inr fun c hc => ?_
    have hnot := List.head?_dropWhile_not Char.isDigit cs
    rw [← drop_length_takeWhile_isDigit, Option.mem_def.mp hc] at hnot
    simpa using hnot

/-! ## Marks -/

theorem mark?_eq_some_iff : mark? c cs = some rest ↔ cs = c :: rest := by
  cases cs with
  | nil => simp [mark?]
  | cons d cs => simp [mark?]

theorem separator?_eq_some_iff : separator? cs = some rest ↔
    ∃ c, (c = 'T' ∨ c = 't' ∨ c = ' ') ∧ cs = c :: rest := by
  cases cs with
  | nil => simp [separator?]
  | cons d cs =>
    rw [separator?, Option.ite_none_right_eq_some, Option.some.injEq]
    constructor
    · rintro ⟨hd, rfl⟩
      exact ⟨d, hd, rfl⟩
    · rintro ⟨c, hc, h⟩
      cases h
      exact ⟨hc, rfl⟩

/-! ## Fractions and offsets -/

theorem fraction?_append {f : List Char} (h : IsFraction f n)
    (hrest : ∀ c ∈ rest.head?, c ≠ '.' ∧ c.isDigit = false) : fraction? (f ++ rest) = some (n, rest) := by
  cases h with
  | missing =>
    rw [List.nil_append]
    unfold fraction?
    split
    · exact absurd rfl (hrest '.' rfl).1
    · rfl
  | @digits ds hne hds =>
    have htake := takeWhile_isDigit_append hds fun c hc => (hrest c hc).2
    rw [List.cons_append, fraction?, htake, List.drop_left]
    simp [hne]

theorem exists_of_fraction? (h : fraction? cs = some (n, rest)) :
    ∃ f, IsFraction f n ∧ cs = f ++ rest := by
  unfold fraction? at h
  split at h
  · next cs =>
    rw [Option.ite_none_left_eq_some, List.isEmpty_iff] at h
    obtain ⟨hne, h⟩ := h
    cases h
    refine ⟨_, .digits hne fun c hc => List.mem_takeWhile_imp hc, ?_⟩
    rw [List.cons_append, drop_length_takeWhile_isDigit, List.takeWhile_append_dropWhile]
  · cases h
    exact ⟨[], .missing, rfl⟩

theorem offset?_shift {sign : Char} {shift : List Char}
    (hsign : sign = '+' ∨ sign = '-' ∨ sign.toNat = 0x2212) (h : IsShift shift n) (rest : List Char) :
    offset? (sign :: (shift ++ rest)) = some (if sign = '+' then (n : Int) else -n, rest) := by
  have hletter : ¬(sign = 'Z' ∨ sign = 'z') := by
    rintro (rfl | rfl) <;> revert hsign <;> decide
  obtain @⟨hours, minutes, h, m, hhours, hh, hminutes, hm⟩ := h
  simp only [offset?, if_neg hletter, if_pos hsign, List.append_assoc, List.cons_append, bind,
    Option.bind, fixed?_append hhours, mark?, if_true, fixed?_append hminutes, hh, hm, and_self]

theorem offset?_eq_some_iff {offset : Int} : offset? cs = some (offset, rest) ↔
    ∃ zone, IsOffset zone offset ∧ cs = zone ++ rest := by
  constructor
  · intro h
    unfold offset? at h
    split at h
    · cases h
    next c cs =>
    split at h
    · next hc =>
      cases h
      exact ⟨[c], .universal hc, rfl⟩
    · rw [Option.ite_none_right_eq_some] at h
      obtain ⟨hc, h⟩ := h
      simp only [bind, Option.bind_eq_some_iff, Prod.exists, fixed?_eq_some_iff, mark?_eq_some_iff,
        Option.ite_none_right_eq_some] at h
      obtain ⟨h, _, ⟨hours, hhours, rfl⟩, _, rfl, m, _, ⟨minutes, hminutes, rfl⟩, ⟨hh, hm⟩, heq⟩ := h
      have hshift := IsShift.mk hhours hh hminutes hm
      obtain ⟨rfl, rfl⟩ := Prod.mk.inj (Option.some.inj heq)
      refine ⟨c :: (hours ++ ':' :: minutes), ?_, by simp⟩
      split
      · next hplus => exact hplus ▸ .ahead hshift
      · next hplus => exact .behind (hc.resolve_left hplus) hshift
  · rintro ⟨zone, hzone, rfl⟩
    cases hzone with
    | universal hc => simp [offset?, hc]
    | ahead hshift => exact offset?_shift (.inl rfl) hshift rest
    | @behind c shift n hc hshift =>
      have hplus : c ≠ '+' := by
        rintro rfl
        revert hc
        decide
      rw [List.cons_append, offset?_shift (.inr hc) hshift, if_neg hplus]

/-! ## Fields and years -/

theorem isBlank_of_isDigit {x : Char} (h : x.isDigit = true) : Text.isBlank x = false := by
  have h0 : '0'.val.toNat = 48 := rfl
  have h9 : '9'.val.toNat = 57 := rfl
  have hx : x.val.toNat = x.toNat := rfl
  simp only [Char.isDigit, ge_iff_le, Bool.and_eq_true, decide_eq_true_eq,
    UInt32.le_iff_toNat_le] at h
  have hrange : 48 ≤ x.toNat ∧ x.toNat ≤ 57 := by omega
  simp only [Text.isBlank, Bool.or_eq_false_iff, Bool.and_eq_false_iff, decide_eq_false_iff_not,
    beq_eq_false_iff_ne]
  omega

theorem trimLeft_blanks {blanks : List Char} (hblanks : ∀ c ∈ blanks, Text.isBlank c = true)
    (hc : Text.isBlank c = false) (cs : List Char) : Text.trimLeft (blanks ++ c :: cs) = c :: cs := by
  rw [Text.trimLeft, List.dropWhile_append_of_pos hblanks, List.dropWhile_cons_of_neg (by simp [hc])]

theorem IsDigits.exists_cons {least most : Nat} (h : IsDigits least most ds n) (hleast : 0 < least) :
    ∃ d left, ds = d :: left ∧ d.isDigit = true := by
  obtain ⟨d, left, rfl⟩ := List.exists_cons_of_length_pos (hleast.trans_le h.least)
  exact ⟨d, left, rfl, h.isDigit d List.mem_cons_self⟩

theorem IsDigits.trimLeft {least most : Nat} {blanks : List Char} (h : IsDigits least most ds n)
    (hleast : 0 < least) (hblanks : ∀ c ∈ blanks, Text.isBlank c = true) (rest : List Char) :
    Text.trimLeft (blanks ++ (ds ++ rest)) = ds ++ rest := by
  obtain ⟨d, left, rfl, hd⟩ := h.exists_cons hleast
  exact trimLeft_blanks hblanks (isBlank_of_isDigit hd) _

/-- Blanks are cut off in front of what is read. -/
theorem exists_blanks (cs : List Char) :
    ∃ blanks, (∀ c ∈ blanks, Text.isBlank c = true) ∧ cs = blanks ++ Text.trimLeft cs :=
  ⟨cs.takeWhile Text.isBlank, fun _ hc => List.mem_takeWhile_imp hc,
    List.takeWhile_append_dropWhile.symm⟩

theorem IsField.one {field : List Char} (h : IsField 2 field n) : IsField 1 field n := by
  obtain ⟨hblanks, hds⟩ := h
  exact .mk hblanks (hds.mono (by decide))

theorem field?_append {field : List Char} (h : IsField 1 field n)
    (hrest : IsField 2 field n ∨ ∀ c ∈ rest.head?, c.isDigit = false) :
    field? (field ++ rest) = some (n, rest) := by
  rcases hrest with htwo | hrest
  · obtain ⟨hblanks, hds⟩ := htwo
    rw [field?, List.append_assoc, hds.trimLeft Nat.two_pos hblanks]
    exact digits?_append (hds.mono (by decide)) (.inl (le_antisymm hds.most hds.least))
  · obtain ⟨hblanks, hds⟩ := h
    rw [field?, List.append_assoc, hds.trimLeft Nat.one_pos hblanks]
    exact digits?_append hds (.inr hrest)

theorem field?_append_cons {field : List Char} (h : IsField 1 field n) (hc : c.isDigit = false)
    (rest : List Char) : field? (field ++ c :: rest) = some (n, c :: rest) :=
  field?_append h (.inr (by simpa using hc))

theorem exists_of_field? (h : field? cs = some (n, rest)) : ∃ field, IsField 1 field n
    ∧ cs = field ++ rest ∧ (IsField 2 field n ∨ ∀ c ∈ rest.head?, c.isDigit = false) := by
  obtain ⟨blanks, hblanks, hcs⟩ := exists_blanks cs
  obtain ⟨ds, hds, htrim, hrest⟩ := exists_of_digits? h
  refine ⟨blanks ++ ds, .mk hblanks hds, ?_, ?_⟩
  · rw [hcs, htrim, List.append_assoc]
  · exact hrest.imp_left fun htwo => .mk hblanks { hds with least := htwo.ge }

/-- In front of a mark a year is read to its last digit. -/
theorem year?_append {year : Int} (h : IsYear ds year) (rest : List Char) :
    year? (ds ++ '-' :: rest) = some (year, '-' :: rest) := by
  have hmark : ∀ c ∈ ('-' :: rest).head?, c.isDigit = false := by simp
  have hsigned {ds : List Char} {n : Nat} (hds : IsDigits 1 ds.length ds n) :
      digits? (ds ++ '-' :: rest).length (ds ++ '-' :: rest) = some (n, '-' :: rest) :=
    digits?_append { hds with most := by simp } (.inr hmark)
  unfold year?
  cases h with
  | positive hblanks hds | negative hblanks hds =>
    rw [List.append_assoc, List.cons_append, trimLeft_blanks hblanks rfl]
    simp only [hsigned hds, Option.map_some]
  | @plain blanks ds n hblanks hds =>
    rw [List.append_assoc, hds.trimLeft Nat.one_pos hblanks]
    have hread := digits?_append hds (.inr hmark)
    -- A digit is no sign.
    obtain ⟨d, left, rfl, hd⟩ := hds.exists_cons Nat.one_pos
    split
    · next h =>
      cases h
      cases hd
    · next h =>
      cases h
      cases hd
    · rw [hread]
      rfl

theorem exists_of_year? {year : Int} (h : year? cs = some (year, rest)) :
    ∃ ds, IsYear ds year ∧ cs = ds ++ rest := by
  obtain ⟨blanks, hblanks, hcs⟩ := exists_blanks cs
  have hdigits {most : Nat} (f : Nat → Int) {left : List Char}
      (h : (digits? most left).map (fun read => (f read.1, read.2)) = some (year, rest)) :
      ∃ n ds, f n = year ∧ IsDigits 1 most ds n ∧ left = ds ++ rest := by
    obtain ⟨⟨n, _⟩, hread, h⟩ := Option.map_eq_some_iff.mp h
    cases h
    obtain ⟨ds, hds, hleft, -⟩ := exists_of_digits? hread
    exact ⟨n, ds, rfl, hds, hleft⟩
  unfold year? at h
  -- One constructor for each form of the sign.
  split at h
  case h_1 htrim =>
    obtain ⟨n, ds, rfl, hds, rfl⟩ := hdigits (fun n => -(n : Int)) h
    exact ⟨_, .negative hblanks { hds with most := le_rfl }, by rw [hcs, htrim]; simp⟩
  case h_2 htrim =>
    obtain ⟨n, ds, rfl, hds, rfl⟩ := hdigits Int.ofNat h
    exact ⟨_, .positive hblanks { hds with most := le_rfl }, by rw [hcs, htrim]; simp⟩
  case h_3 =>
    obtain ⟨n, ds, rfl, hds, htrim⟩ := hdigits Int.ofNat h
    exact ⟨_, .plain hblanks hds, by rw [hcs, htrim]; simp⟩

/-! ## Days and times of day -/

theorem date?_eq_some_iff : date? cs = some (d, rest) ↔ ∃ date, IsDay 1 date d ∧ cs = date ++ rest
    ∧ (IsDay 2 date d ∨ ∀ c ∈ rest.head?, c.isDigit = false) := by
  constructor
  · intro h
    simp only [date?, bind, Option.bind_eq_some_iff, Prod.exists, mark?_eq_some_iff] at h
    obtain ⟨y, _, hy, _, rfl, m, _, hm, _, rfl, d, _, hd, h⟩ := h
    cases h
    obtain ⟨year, hyear, rfl⟩ := exists_of_year? hy
    obtain ⟨month, hmonth, rfl, -⟩ := exists_of_field? hm
    obtain ⟨day, hday, rfl, hrest⟩ := exists_of_field? hd
    exact ⟨_, .mk hyear hmonth hday, by simp, hrest.imp_left fun htwo => .mk hyear hmonth htwo⟩
  · rintro ⟨date, hdate, rfl, hrest⟩
    have hread {year month day : List Char} (hyear : IsYear year d.year)
        (hmonth : IsField 1 month d.month) (hday : field? (day ++ rest) = some (d.day, rest)) :
        date? (year ++ '-' :: (month ++ '-' :: day) ++ rest) = some (d, rest) := by
      simp only [date?, bind, Option.bind, List.append_assoc, List.cons_append, year?_append hyear,
        mark?, if_true, field?_append_cons hmonth (rfl : '-'.isDigit = false), hday]
    -- Of the two shapes of the day, the one that tells where it ends.
    rcases hrest with htwo | hrest
    · obtain ⟨hyear, hmonth, hday⟩ := htwo
      exact hread hyear hmonth (field?_append hday.one (.inl hday))
    · obtain ⟨hyear, hmonth, hday⟩ := hdate
      exact hread hyear hmonth (field?_append hday (.inr hrest))

theorem IsFraction.head_eq {f : List Char} (h : IsFraction f n) : ∀ c ∈ f.head?, c = '.' := by
  cases h <;> simp

theorem clock?_eq_some_iff {c : Clock} : clock? cs = some (c, []) ↔ IsClock (IsField 1) cs c := by
  constructor
  · intro h
    simp only [clock?, bind, Option.bind_eq_some_iff, Prod.exists, mark?_eq_some_iff] at h
    obtain ⟨h, _, hh, _, rfl, m, _, hm, _, rfl, s, _, hs, nanos, _, hnanos, heq⟩ := h
    cases heq
    obtain ⟨hour, hhour, rfl, -⟩ := exists_of_field? hh
    obtain ⟨minute, hminute, rfl, -⟩ := exists_of_field? hm
    obtain ⟨second, hsecond, rfl, -⟩ := exists_of_field? hs
    obtain ⟨fraction, hfraction, rfl⟩ := exists_of_fraction? hnanos
    rw [List.append_nil]
    exact .mk hhour hminute hsecond hfraction
  · rintro @⟨hour, minute, second, fraction, c, hhour, hminute, hsecond, hfraction⟩
    have hcolon : ':'.isDigit = false := rfl
    have hpoint : ∀ x ∈ fraction.head?, x.isDigit = false := by
      intro x hx
      rw [hfraction.head_eq x hx]
      rfl
    have hnanos : fraction? (fraction ++ []) = some (c.nanos, []) := fraction?_append hfraction (by simp)
    rw [List.append_nil] at hnanos
    simp only [clock?, bind, Option.bind, field?_append_cons hhour hcolon, mark?, if_true,
      field?_append_cons hminute hcolon, field?_append hsecond (.inr hpoint), hnanos]

theorem ofParts?_eq_some_iff {seconds : Int} {nanos : Nat} :
    ofParts? seconds nanos = some t ↔ t.seconds = seconds ∧ t.nanos = nanos := by
  constructor
  · intro h
    rw [ofParts?, Option.dite_none_right_eq_some] at h
    obtain ⟨_, h⟩ := h
    cases h
    exact ⟨rfl, rfl⟩
  · rintro ⟨rfl, rfl⟩
    exact dif_pos ⟨t.inRange, t.leap⟩

theorem assemble?_eq_some_iff {c : Clock} {offset : Int} :
    assemble? d c offset = some t ↔ IsMoment d c offset t := by
  rw [assemble?, Option.ite_none_right_eq_some, ofParts?_eq_some_iff]
  constructor
  · rintro ⟨⟨hvalid, hhour, hminute, hsecond⟩, hseconds, hnanos⟩
    exact ⟨hvalid, hhour, hminute, hsecond, hseconds, hnanos⟩
  · rintro ⟨hvalid, hhour, hminute, hsecond, hseconds, hnanos⟩
    exact ⟨⟨hvalid, hhour, hminute, hsecond⟩, hseconds, hnanos⟩

/-! ## Whole texts -/

theorem IsOffset.head {zone : List Char} {offset : Int} (h : IsOffset zone offset) :
    ∀ c ∈ zone.head?, c ≠ '.' ∧ c.isDigit = false := by
  intro c hc
  cases h with
  | universal h =>
    cases hc
    rcases h with rfl | rfl <;> decide
  | ahead =>
    cases hc
    decide
  | behind h =>
    cases hc
    rcases h with rfl | h
    · decide
    · obtain rfl : c = Char.ofNat 0x2212 := by rw [← h, Char.ofNat_toNat]
      decide

theorem timestamp?_eq_some_iff : timestamp? cs = some t ↔ IsTimestamp cs t := by
  constructor
  · intro h
    simp only [timestamp?, bind, Option.bind_eq_some_iff, Prod.exists, mark?_eq_some_iff,
      fixed?_eq_some_iff, separator?_eq_some_iff, offset?_eq_some_iff, Option.ite_none_right_eq_some,
      List.isEmpty_iff, assemble?_eq_some_iff] at h
    -- Each step of the reader takes the text of a field, so the whole text is made of them.
    obtain ⟨y, _, ⟨year, hyear, rfl⟩, _, rfl, m, _, ⟨month, hmonth, rfl⟩, _, rfl, d, _,
      ⟨day, hday, rfl⟩, _, ⟨between, hbetween, rfl⟩, h, _, ⟨hour, hhour, rfl⟩, _, rfl, min, _,
      ⟨minute, hminute, rfl⟩, _, rfl, s, _, ⟨second, hsecond, rfl⟩, nanos, _, hnanos, offset, _,
      ⟨zone, hzone, rfl⟩, rfl, ht⟩ := h
    obtain ⟨fraction, hfraction, hrest⟩ := exists_of_fraction? hnanos
    have hdate : IsDate IsFullYear (IsDigits 2 2) (IsDigits 2 2) _ ⟨y, m, d⟩ :=
      .mk ⟨Int.natCast_nonneg y, hyear⟩ hmonth hday
    have htime : IsClock (IsDigits 2 2) _ ⟨h, min, s, nanos⟩ := .mk hhour hminute hsecond hfraction
    have hstamp := IsTimestamp.mk hdate hbetween htime hzone ht
    rw [hrest]
    simpa using hstamp
  · rintro @⟨_, _, zone, between, d, c, offset, t, ⟨hyear, hmonth, hday⟩, hbetween,
      ⟨hhour, hminute, hsecond, hfraction⟩, hzone, ht⟩
    have hseparator (rest : List Char) : separator? (between :: rest) = some rest :=
      separator?_eq_some_iff.mpr ⟨between, hbetween, rfl⟩
    have hoffset : offset? zone = some (offset, []) := by
      simpa using offset?_eq_some_iff.mpr ⟨zone, hzone, (List.append_nil zone).symm⟩
    simp only [timestamp?, bind, Option.bind, List.append_assoc, List.cons_append,
      fixed?_append hyear.digits, mark?, if_true, fixed?_append hmonth, fixed?_append hday, hseparator,
      fixed?_append hhour, fixed?_append hminute, fixed?_append hsecond,
      fraction?_append hfraction hzone.head, hoffset, List.isEmpty_nil, Int.toNat_of_nonneg hyear.nonneg]
    exact assemble?_eq_some_iff.mpr ht

/-- Blanks in front of a time of day are blanks in front of its hour. -/
theorem clock?_trimLeft (cs : List Char) : clock? (Text.trimLeft cs) = clock? cs := by
  have hfield : field? (Text.trimLeft cs) = field? cs := by
    rw [field?, field?, Text.trimLeft, Text.trimLeft, List.dropWhile_idempotent]
  rw [clock?, hfield]
  rfl

theorem isDateTime_iff {mark : List Char} : IsDateTime mark cs t ↔ ∃ d time c,
    date? cs = some (d, mark ++ time) ∧ clock? time = some (c, []) ∧ assemble? d c 0 = some t := by
  constructor
  · rintro @⟨date, time, d, c, t, hdate, htime, hapart, ht⟩
    exact ⟨d, time, c, date?_eq_some_iff.mpr ⟨date, hdate, rfl, hapart⟩, clock?_eq_some_iff.mpr htime,
      assemble?_eq_some_iff.mpr ht⟩
  · rintro ⟨d, time, c, hd, htime, ht⟩
    obtain ⟨date, hdate, rfl, hapart⟩ := date?_eq_some_iff.mp hd
    exact .mk hdate (clock?_eq_some_iff.mp htime) hapart (assemble?_eq_some_iff.mp ht)

theorem dateTime?_blanks_eq_some_iff :
    dateTime? (fun cs => some (Text.trimLeft cs)) cs = some t ↔ IsDateTime [] cs t := by
  simp only [isDateTime_iff, dateTime?, bind, Option.bind_eq_some_iff, Prod.exists, Option.some.injEq,
    exists_eq_left', clock?_trimLeft, Option.ite_none_right_eq_some, List.isEmpty_iff, List.nil_append]
  constructor
  · rintro ⟨d, time, hdate, c, _, htime, rfl, ht⟩
    exact ⟨d, time, c, hdate, htime, ht⟩
  · rintro ⟨d, time, c, hdate, htime, ht⟩
    exact ⟨d, time, hdate, c, [], htime, rfl, ht⟩

theorem dateTime?_mark_eq_some_iff : dateTime? (mark? 'T') cs = some t ↔ IsDateTime ['T'] cs t := by
  simp only [isDateTime_iff, dateTime?, bind, Option.bind_eq_some_iff, Prod.exists, mark?_eq_some_iff,
    Option.ite_none_right_eq_some, List.isEmpty_iff, List.singleton_append]
  constructor
  · rintro ⟨d, _, hdate, time, rfl, c, _, htime, rfl, ht⟩
    exact ⟨d, time, c, hdate, htime, ht⟩
  · rintro ⟨d, time, c, hdate, htime, ht⟩
    exact ⟨d, _, hdate, time, rfl, c, [], htime, rfl, ht⟩

theorem midnight?_eq_some_iff : midnight? cs = some t ↔ IsMidnight cs t := by
  simp only [midnight?, bind, Option.bind_eq_some_iff, Prod.exists, date?_eq_some_iff,
    Option.ite_none_right_eq_some, List.isEmpty_iff, assemble?_eq_some_iff]
  constructor
  · rintro ⟨d, _, ⟨date, hdate, rfl, -⟩, rfl, ht⟩
    rw [List.append_nil]
    exact .mk hdate ht
  · rintro ⟨hdate, ht⟩
    exact ⟨_, [], ⟨cs, hdate, (List.append_nil cs).symm, .inr (by simp)⟩, rfl, ht⟩

/-- Nothing has to stand behind a day of two digits. One of a single digit takes the first digit of the hour. -/
example : (ofText? "2020-01-0203:04:05").isSome = true ∧ (ofText? "2020-01-23:04:05").isSome = false
    ∧ (ofText? "2020-01-2 3:04:05").isSome = true := by
  decide +kernel

end EntityStore.Instant
