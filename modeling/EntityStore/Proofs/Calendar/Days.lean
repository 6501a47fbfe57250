import EntityStore.Calendar.Date

/-!
# Days and their numbers

Counting days forwards and backwards are two calculations, and they should be inverse to each other: the day
with a number exists in the calendar (`valid_ofDays`), and it is the day that has the number
(`toDays_ofDays`).

A turn of four hundred years has too many days to go through them. But the year that a day of a turn falls into
does not decrease from one day to the next, so it is enough to look at the first and the last day of each of the
four hundred years. Which month of a year a day falls into is linear, and a matter of twelve cases.
-/

set_option autoImplicit false

namespace EntityStore.Date

/-! ## Years of a turn -/

/-- The year of a turn that a day of it falls into. -/
def yearOfDay (day : Nat) : Nat := (day - day / 1460 + day / 36524 - day / 146096) / 365

theorem yearOfDay_le {m n : Nat} (h : m ≤ n) : yearOfDay m ≤ yearOfDay n := by
  unfold yearOfDay
  apply Nat.div_le_div_right
  omega

/-- The first day of a year falls into it, and so does the last day before the next one begins. -/
theorem yearOfDay_ends :
    ∀ year < 400, yearOfDay (yearStart year) = year ∧ yearOfDay (yearStart (year + 1) - 1) = year := by
  decide +kernel

theorem yearOfDay_lt {day : Nat} (h : day < turn) : yearOfDay day < 400 := by
  have hlast : yearOfDay (turn - 1) = 399 := by decide +kernel
  have hle := yearOfDay_le (Nat.le_sub_one_of_lt h)
  omega

/-- A day is not before the year that it falls into, because the days before that fall into earlier
years. -/
theorem yearStart_yearOfDay_le {day : Nat} (h : day < turn) : yearStart (yearOfDay day) ≤ day := by
  refine Nat.le_of_not_lt fun hday => ?_
  cases hyear : yearOfDay day with
  | zero =>
    rw [hyear] at hday
    exact Nat.not_lt_zero day hday
  | succ year =>
    rw [hyear] at hday
    have hle := yearOfDay_le (Nat.le_sub_one_of_lt hday)
    have hlt := yearOfDay_lt h
    have hends := (yearOfDay_ends year (by omega)).2
    omega

theorem lt_yearStart_succ {day : Nat} (hyear : yearOfDay day < 399) :
    day < yearStart (yearOfDay day + 1) := by
  refine Nat.lt_of_not_le fun hday => ?_
  have hle := yearOfDay_le hday
  have hends := (yearOfDay_ends (yearOfDay day + 1) (by omega)).1
  omega

theorem isLeap_iff {year : Int} : isLeap year = true ↔
    year % 4 = 0 ∧ (year % 100 ≠ 0 ∨ year % 400 = 0) := by
  simp [isLeap]

/-- A year of a turn has a day more if there is a leap day at its end. -/
theorem day_lt_of_turn {day : Nat} (h : day < turn) (turns : Int) :
    day < yearStart (yearOfDay day) + 365
      + (if isLeap ((yearOfDay day : Int) + turns * 400 + 1) then 1 else 0) := by
  have hlt := yearOfDay_lt h
  have hleap := @isLeap_iff ((yearOfDay day : Int) + turns * 400 + 1)
  by_cases hlast : yearOfDay day = 399
  · rw [if_pos (hleap.mpr (by omega)), hlast]
    simp only [turn, yearStart] at h ⊢
    omega
  · have hnext := @lt_yearStart_succ day (by omega)
    simp only [yearStart] at hnext ⊢
    split <;> rename_i hcase <;> rw [hleap] at hcase <;> omega

/-! ## Months of a year -/

theorem monthStart_le (day : Nat) : monthStart ((5 * day + 2) / 153) ≤ day := by
  unfold monthStart
  omega

theorem lt_monthStart_succ (day : Nat) : day < monthStart ((5 * day + 2) / 153 + 1) := by
  unfold monthStart
  omega

/-- The months are counted from March. Each begins where the one before has ended, but for February,
which is the last one and as long as the year is. -/
theorem length_of_month {month day : Nat} {whole : Int} (hmonth : month < 12)
    (hday : day < monthStart (month + 1)) (hyear : day < 365 + if isLeap (whole + 1) then 1 else 0) :
    day - monthStart month + 1 ≤ daysInMonth (if month < 10 then whole else whole + 1)
      (if month < 10 then month + 3 else month - 9) := by
  by_cases hlast : month = 11
  · subst hlast
    cases hleap : isLeap (whole + 1) <;> simp [hleap, monthStart, daysInMonth] at hyear ⊢ <;> omega
  · have hcases : month = 0 ∨ month = 1 ∨ month = 2 ∨ month = 3 ∨ month = 4 ∨ month = 5 ∨ month = 6
        ∨ month = 7 ∨ month = 8 ∨ month = 9 ∨ month = 10 := by omega
    rcases hcases with rfl | rfl | rfl | rfl | rfl | rfl | rfl | rfl | rfl | rfl | rfl <;>
      simp [monthStart, daysInMonth] at hday ⊢ <;> omega

/-! ## Days and their numbers -/

/-- What the day with a number is made of: its turn, and the year and the month of it. -/
theorem exists_parts (n : Int) : ∃ (turns : Int) (year month day : Nat),
    year < 400 ∧ month < 12 ∧ monthStart month ≤ day ∧ day < monthStart (month + 1)
    ∧ (day < 365 + if isLeap ((year : Int) + turns * 400 + 1) then 1 else 0)
    ∧ n = turns * turn + (yearStart year + day : Nat) - epoch
    ∧ ofDays n =
      { year := if month < 10 then (year : Int) + turns * 400 else (year : Int) + turns * 400 + 1
        month := if month < 10 then month + 3 else month - 9
        day := day - monthStart month + 1 } := by
  obtain ⟨ofTurn, hofTurn⟩ : ∃ ofTurn : Nat, ofTurn = ((n + epoch) % turn).toNat := ⟨_, rfl⟩
  have hlt : ofTurn < turn := by
    simp only [turn] at hofTurn ⊢
    omega
  have hle := yearStart_yearOfDay_le hlt
  have hyear := day_lt_of_turn hlt ((n + epoch) / turn)
  refine ⟨(n + epoch) / turn, yearOfDay ofTurn, (5 * (ofTurn - yearStart (yearOfDay ofTurn)) + 2) / 153,
    ofTurn - yearStart (yearOfDay ofTurn), yearOfDay_lt hlt, ?_, monthStart_le _, lt_monthStart_succ _,
    by omega, ?_, ?_⟩
  · split at hyear <;> omega
  · simp only [turn] at hofTurn ⊢
    omega
  · simp only [ofDays, ← hofTurn]
    rfl

theorem valid_ofDays (n : Int) : (ofDays n).Valid := by
  obtain ⟨turns, year, month, day, -, hmonth, -, hnext, hyear, -, heq⟩ := exists_parts n
  have hlength := length_of_month hmonth hnext hyear
  rw [heq]
  refine ⟨?_, ?_, by simp, hlength⟩ <;> (simp only; split <;> omega)

theorem toDays_ofDays (n : Int) : (ofDays n).toDays = n := by
  obtain ⟨turns, year, month, day, hyear, hmonth, hle, -, -, hn, heq⟩ := exists_parts n
  have hwhole : (if (ofDays n).month ≤ 2 then (ofDays n).year - 1 else (ofDays n).year)
      = (year : Int) + turns * 400 := by
    rw [heq]
    by_cases h : month < 10
    · simp [h]
    · have : month - 9 ≤ 2 := by omega
      simp [h, this]
  have hback : ((ofDays n).month + 9) % 12 = month := by
    rw [heq]
    simp only
    split <;> omega
  have hday : (ofDays n).day = day - monthStart month + 1 := by rw [heq]
  simp only [toDays, hwhole, hback, hday]
  have hturns : ((year : Int) + turns * 400) / 400 = turns := by omega
  have hofTurn : (((year : Int) + turns * 400) % 400).toNat = year := by omega
  rw [hturns, hofTurn, hn]
  omega

end EntityStore.Date
