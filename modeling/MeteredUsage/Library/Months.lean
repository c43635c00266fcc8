import MeteredUsage.Library.Calendar

/-! The months of the calendar in one line: each begins the day after the last of the one before, and a
day some months later is in the month so many after its own. -/

namespace MeteredUsage.Library.Months
open MeteredUsage.Library.Calendar

theorem month_bounds (leap : Bool) : ∀ ordinal < (if leap then 366 else 365),
    1 ≤ monthOf leap ordinal ∧ dayOf leap ordinal ≤ 31 := by
  cases leap <;> decide +kernel

theorem ordinalOf_lt_yearLength (day : Int) :
    ordinalOf day < if isLeap (yearOf day) then 366 else 365 := by
  have begins := yearStart_succ (yearOf day)
  have within := lt_yearStart day
  have place := ordinalOf_eq day
  unfold yearLength at begins
  split
  next leap =>
    rw [if_pos leap] at begins
    omega
  next common =>
    rw [if_neg common] at begins
    omega

theorem civilDay_date (day : Int) :
    civilDay (yearOf day) (monthOf (isLeap (yearOf day)) (ordinalOf day))
      (dayOf (isLeap (yearOf day)) (ordinalOf day)) = day := by
  have begun := (monthStart_le (isLeap (yearOf day)) (ordinalOf day) (ordinalOf_lt day)).1
  have place := ordinalOf_eq day
  unfold civilDay dayOf
  omega

/-- The months from the year 0 to a day's month. -/
def monthNumber (day : Int) : Int :=
  12 * yearOf day + (monthOf (isLeap (yearOf day)) (ordinalOf day) - 1 : Nat)

/-- The day of its month, from 1. -/
def dayOfMonth (day : Int) : Nat := dayOf (isLeap (yearOf day)) (ordinalOf day)

/-- The days of a month, by its number. -/
def daysIn (number : Int) : Nat := monthLength (isLeap (number / 12)) ((number % 12).toNat + 1)

/-- The first day of a month, by its number. -/
def firstDay (number : Int) : Int := civilDay (number / 12) ((number % 12).toNat + 1) 1

theorem monthStart_succ (leap : Bool) : ∀ month < 11,
    monthStart leap (month + 2) = monthStart leap (month + 1) + monthLength leap (month + 1) := by
  cases leap <;> decide

theorem firstDay_succ (number : Int) : firstDay (number + 1) = firstDay number + daysIn number := by
  have years := yearStart_succ (number / 12)
  unfold firstDay daysIn civilDay
  by_cases december : number % 12 = 11
  · have year : (number + 1) / 12 = number / 12 + 1 := by omega
    have month : (number + 1) % 12 = 0 := by omega
    rw [year, month, december, years]
    unfold yearLength
    cases isLeap (number / 12) <;> simp [monthStart, monthStarts, monthLength] <;> omega
  · have year : (number + 1) / 12 = number / 12 := by omega
    have month : ((number + 1) % 12).toNat + 1 = (number % 12).toNat + 2 := by omega
    have next := monthStart_succ (isLeap (number / 12)) (number % 12).toNat (by omega)
    rw [year, month, next]
    omega

theorem daysIn_pos (number : Int) : 0 < daysIn number := by
  unfold daysIn monthLength
  split
  · split <;> omega
  · split <;> omega

theorem firstDay_mono {first second : Int} (before : first < second) :
    firstDay first + daysIn first ≤ firstDay second := by
  obtain ⟨count, rfl⟩ : ∃ count : Nat, second = first + 1 + count :=
    ⟨(second - first - 1).toNat, by omega⟩
  clear before
  induction count with
  | zero =>
    rw [Nat.cast_zero, Int.add_zero, firstDay_succ]
  | succ count ih =>
    have next := firstDay_succ (first + 1 + count)
    have positive := daysIn_pos (first + 1 + count)
    rw [Nat.cast_succ, ← Int.add_assoc, next]
    omega

theorem dayOfMonth_pos (day : Int) : 0 < dayOfMonth day := by
  unfold dayOfMonth dayOf
  omega

theorem monthOf_pos (day : Int) : 1 ≤ monthOf (isLeap (yearOf day)) (ordinalOf day) :=
  (month_bounds (isLeap (yearOf day)) (ordinalOf day) (ordinalOf_lt_yearLength day)).1

theorem monthNumber_parts (day : Int) : monthNumber day / 12 = yearOf day ∧
    (monthNumber day % 12).toNat + 1 = monthOf (isLeap (yearOf day)) (ordinalOf day) := by
  have low := monthOf_pos day
  have high := monthOf_le (isLeap (yearOf day)) (ordinalOf day)
  unfold monthNumber
  omega

theorem day_eq (day : Int) : day = firstDay (monthNumber day) + (dayOfMonth day - 1) := by
  have date := civilDay_date day
  have ⟨year, month⟩ := monthNumber_parts day
  have positive := dayOfMonth_pos day
  unfold firstDay
  rw [year, month]
  unfold civilDay at *
  unfold dayOfMonth at *
  omega

theorem dayOf_le (leap : Bool) : ∀ ordinal < (if leap then 366 else 365),
    dayOf leap ordinal ≤ monthLength leap (monthOf leap ordinal) := by
  cases leap <;> decide +kernel

theorem dayOfMonth_le (day : Int) : dayOfMonth day ≤ daysIn (monthNumber day) := by
  have ⟨year, month⟩ := monthNumber_parts day
  unfold daysIn
  rw [year, month]
  exact dayOf_le _ _ (ordinalOf_lt_yearLength day)

theorem monthNumber_eq {day number : Int} (after : firstDay number ≤ day)
    (before : day < firstDay number + daysIn number) :
    monthNumber day = number ∧ (dayOfMonth day : Int) = day - firstDay number + 1 := by
  have own := day_eq day
  have low := dayOfMonth_pos day
  have high := dayOfMonth_le day
  have same : monthNumber day = number := by
    rcases lt_trichotomy (monthNumber day) number with earlier | same | later
    · have apart := firstDay_mono earlier
      omega
    · exact same
    · have apart := firstDay_mono later
      omega
  rw [same] at own
  exact ⟨same, by omega⟩

/-- Some months later is the month so many on, on the same day of it or on its last. -/
theorem addMonths_eq (day : Int) (count : Nat) : addMonths day count =
    firstDay (monthNumber day + count) +
      ((min (dayOfMonth day) (daysIn (monthNumber day + count)) : Nat) - 1) := by
  have positive := dayOfMonth_pos day
  have month := daysIn_pos (monthNumber day + count)
  unfold addMonths firstDay
  change civilDay ((monthNumber day + count) / 12) (((monthNumber day + count) % 12).toNat + 1)
    (min (dayOfMonth day) (daysIn (monthNumber day + count))) = _
  unfold civilDay
  omega

theorem addMonths_date (day : Int) (count : Nat) :
    monthNumber (addMonths day count) = monthNumber day + count ∧
      dayOfMonth (addMonths day count) = min (dayOfMonth day) (daysIn (monthNumber day + count)) := by
  have whole := addMonths_eq day count
  have positive := dayOfMonth_pos day
  have month := daysIn_pos (monthNumber day + count)
  have ⟨number, date⟩ : monthNumber (addMonths day count) = monthNumber day + count ∧ _ :=
    monthNumber_eq (by omega) (by omega)
  exact ⟨number, by omega⟩

theorem addMonths_zero (day : Int) : addMonths day 0 = day := by
  have whole := addMonths_eq day 0
  have own := day_eq day
  have high := dayOfMonth_le day
  rw [Nat.cast_zero, Int.add_zero, min_eq_left high] at whole
  rw [whole]
  exact own.symm

/-- Each month later is a later day, whatever the lengths of the months. -/
theorem addMonths_lt (day : Int) {first second : Nat} (before : first < second) :
    addMonths day first < addMonths day second := by
  have left := addMonths_eq day first
  have right := addMonths_eq day second
  have apart : monthNumber day + first < monthNumber day + second := by omega
  have months := firstDay_mono apart
  have positive := dayOfMonth_pos day
  have some_days := daysIn_pos (monthNumber day + second)
  omega

end MeteredUsage.Library.Months
