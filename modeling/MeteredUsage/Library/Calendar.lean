import Mathlib.Data.Int.Basic
import MeteredUsage.Library.FixedWidth

/-! The Gregorian calendar over days and seconds counted from the start of 1970, and its dates
and times of day as texts of one width. The texts of the years 0 to 9999 sort by time. -/

namespace MeteredUsage.Library.Calendar
open MeteredUsage.Library.FixedWidth

/-- The first day of a year. -/
def yearStart (year : Int) : Int :=
  365 * (year - 1) + (year - 1) / 4 - (year - 1) / 100 + (year - 1) / 400 - 719162

def isLeap (year : Int) : Bool := year % 4 = 0 && (year % 100 ≠ 0 || year % 400 = 0)

def yearLength (year : Int) : Int := if isLeap year then 366 else 365

theorem yearStart_succ (year : Int) : yearStart (year + 1) = yearStart year + yearLength year := by
  unfold yearStart yearLength isLeap
  split
  next leap =>
    simp only [ne_eq, decide_not, Bool.and_eq_true, decide_eq_true_eq, Bool.or_eq_true,
      Bool.not_eq_eq_eq_not, Bool.not_true, decide_eq_false_iff_not] at leap
    omega
  next common =>
    simp only [ne_eq, decide_not, Bool.and_eq_true, decide_eq_true_eq, Bool.or_eq_true,
      Bool.not_eq_eq_eq_not, Bool.not_true, decide_eq_false_iff_not, not_and, not_or, not_not] at common
    omega

theorem yearStart_le_of_lt {first second : Int} (before : first < second) :
    yearStart (first + 1) ≤ yearStart second := by
  unfold yearStart
  omega

/-- The year a day is in: 400 years are 146097 days, so the mean is a year off at most. -/
def yearOf (day : Int) : Int :=
  let mean := (day + 719162) * 400 / 146097 + 1
  if day < yearStart mean then mean - 1
  else if yearStart (mean + 1) ≤ day then mean + 1 else mean

theorem yearStart_le (day : Int) : yearStart (yearOf day) ≤ day := by
  unfold yearOf
  dsimp only
  split
  next =>
    unfold yearStart at *
    omega
  next =>
    split
    next begun => exact begun
    next => omega

theorem lt_yearStart (day : Int) : day < yearStart (yearOf day + 1) := by
  unfold yearOf
  dsimp only
  split
  next early =>
    rw [Int.sub_add_cancel]
    exact early
  next =>
    split
    next =>
      unfold yearStart at *
      omega
    next => omega

theorem yearOf_lt_iff (first second : Int) (apart : yearOf first ≠ yearOf second) :
    yearOf first < yearOf second ↔ first < second := by
  have firstStart := yearStart_le first
  have firstEnd := lt_yearStart first
  have secondStart := yearStart_le second
  have secondEnd := lt_yearStart second
  constructor
  · intro before
    have starts := yearStart_le_of_lt before
    omega
  · intro before
    by_contra later
    have starts := yearStart_le_of_lt (show yearOf second < yearOf first by omega)
    omega

/-- The place of a day in its year, from 0. -/
def ordinalOf (day : Int) : Nat := (day - yearStart (yearOf day)).toNat

theorem ordinalOf_lt (day : Int) : ordinalOf day < 366 := by
  have begun := yearStart_le day
  have ended := lt_yearStart day
  rw [yearStart_succ] at ended
  unfold ordinalOf
  unfold yearLength at ended
  split at ended <;> omega

theorem ordinalOf_eq (day : Int) : (ordinalOf day : Int) = day - yearStart (yearOf day) :=
  Int.toNat_of_nonneg (Int.sub_nonneg_of_le (yearStart_le day))

/-- A day is later in the year or in a later year. -/
theorem day_lt_iff (first second : Int) : first < second ↔ yearOf first < yearOf second ∨
    yearOf first = yearOf second ∧ (ordinalOf first : Int) < ordinalOf second := by
  rw [ordinalOf_eq, ordinalOf_eq]
  by_cases same : yearOf first = yearOf second
  · rw [same]
    omega
  · rw [yearOf_lt_iff first second same]
    omega

/-- The place in the year of each month's first day. -/
def monthStarts (leap : Bool) : List Nat :=
  let february := if leap then 1 else 0
  [0, 31, 59 + february, 90 + february, 120 + february, 151 + february, 181 + february,
    212 + february, 243 + february, 273 + february, 304 + february, 334 + february]

/-- The month of a day of the year, from 1. -/
def monthOf (leap : Bool) (ordinal : Nat) : Nat := (monthStarts leap).countP (· ≤ ordinal)

def monthStart (leap : Bool) (month : Nat) : Nat := (monthStarts leap).getD (month - 1) 0

def dayOf (leap : Bool) (ordinal : Nat) : Nat := ordinal - monthStart leap (monthOf leap ordinal) + 1

/-- The days of a month. -/
def monthLength (leap : Bool) (month : Nat) : Nat :=
  if month = 2 then if leap then 29 else 28
  else if month = 4 ∨ month = 6 ∨ month = 9 ∨ month = 11 then 30 else 31

/-- The day of a date, of which the month and the day count from 1. -/
def civilDay (year : Int) (month day : Nat) : Int :=
  yearStart year + monthStart (isLeap year) month + (day - 1 : Nat)

/-- The same day of a later month, or the last of a month that has no such day. -/
def addMonths (day : Int) (count : Nat) : Int :=
  let leap := isLeap (yearOf day)
  let months := 12 * yearOf day + (monthOf leap (ordinalOf day) - 1 : Nat) + count
  let year := months / 12
  let month := (months % 12).toNat + 1
  civilDay year month (min (dayOf leap (ordinalOf day)) (monthLength (isLeap year) month))

theorem monthOf_le (leap : Bool) (ordinal : Nat) : monthOf leap ordinal ≤ 12 := by
  cases leap <;> exact List.countP_le_length

theorem monthOf_mono (leap : Bool) {first second : Nat} (before : first ≤ second) :
    monthOf leap first ≤ monthOf leap second := by
  apply List.countP_mono_left
  intro start _ begun
  exact decide_eq_true ((of_decide_eq_true begun).trans before)

theorem monthStart_le (leap : Bool) : ∀ ordinal < 366,
    monthStart leap (monthOf leap ordinal) ≤ ordinal ∧ dayOf leap ordinal < 100 := by
  cases leap <;> decide +kernel

theorem sorts_padded {Item : Type} (width : Nat) (number : Item → Nat)
    (bounded : ∀ item, number item < 10 ^ width) :
    Sorts (fun item => padded width (number item)) width fun item => number item where
  length item := length_padded width (number item)
  lt_iff first second := by
    rw [padded_lt_iff (bounded first) (bounded second)]
    omega

/-- A month and day, as `MM-DD`. -/
def monthDay (leap : Bool) (ordinal : Nat) : List Char :=
  padded 2 (monthOf leap ordinal) ++ ['-'] ++ padded 2 (dayOf leap ordinal)

theorem sorts_monthDay (leap : Bool) :
    Sorts (fun ordinal : Fin 366 => monthDay leap ordinal) 5 fun ordinal => (ordinal : Nat) := by
  have months := sorts_padded 2 (fun ordinal : Fin 366 => monthOf leap ordinal)
    fun ordinal => (monthOf_le leap ordinal).trans_lt (by decide)
  have days := sorts_padded 2 (fun ordinal : Fin 366 => dayOf leap ordinal)
    fun ordinal => (monthStart_le leap ordinal ordinal.isLt).2
  apply (months.literal ['-']).append _ _ days.length fun first second _ => days.lt_iff first second
  intro first second
  obtain ⟨firstStart, _⟩ := monthStart_le leap first first.isLt
  obtain ⟨secondStart, _⟩ := monthStart_le leap second second.isLt
  have forward := @monthOf_mono leap first second
  have backward := @monthOf_mono leap second first
  unfold dayOf
  by_cases same : monthOf leap first = monthOf leap second
  · rw [same] at firstStart ⊢
    omega
  · omega

/-- The seconds of a day. -/
def daySeconds : Int := 86400

/-- A time of day, as `HH:MM:SS`. -/
def timeOfDay (second : Nat) : List Char :=
  padded 2 (second / 3600) ++ [':'] ++ padded 2 (second / 60 % 60) ++ [':'] ++ padded 2 (second % 60)

theorem sorts_timeOfDay :
    Sorts (fun second : Fin 86400 => timeOfDay second) (2 + 1 + 2 + 1 + 2) fun second => (second : Nat) := by
  have hours := sorts_padded 2 (fun second : Fin 86400 => (second : Nat) / 3600) fun second => by omega
  have minutes := sorts_padded 2 (fun second : Fin 86400 => (second : Nat) / 60 % 60) fun second => by
    omega
  have seconds := sorts_padded 2 (fun second : Fin 86400 => (second : Nat) % 60) fun second => by omega
  have upToMinutes : Sorts (fun second : Fin 86400 => padded 2 ((second : Nat) / 3600) ++ [':'] ++
      padded 2 ((second : Nat) / 60 % 60)) (2 + 1 + 2) fun second => ((second : Nat) / 60 : Nat) :=
    (hours.literal [':']).append _ _ minutes.length (fun first second _ => minutes.lt_iff first second)
      fun first second => by omega
  exact (upToMinutes.literal [':']).append _ _ seconds.length
    (fun first second _ => seconds.lt_iff first second) fun first second => by omega

/-- The year, the place in it and the time of day of a second. -/
def yearAt (second : Int) : Int := yearOf (second / daySeconds)
def ordinalAt (second : Int) : Nat := ordinalOf (second / daySeconds)
def timeAt (second : Int) : Nat := (second % daySeconds).toNat

theorem timeAt_lt (second : Int) : timeAt second < 86400 := by
  unfold timeAt daySeconds
  omega

/-- The place of a second in its year. -/
def placeAt (second : Int) : Int := ordinalAt second * daySeconds + timeAt second

theorem second_lt_iff (first second : Int) : first < second ↔ yearAt first < yearAt second ∨
    yearAt first = yearAt second ∧ placeAt first < placeAt second := by
  have days := day_lt_iff (first / daySeconds) (second / daySeconds)
  have back := day_lt_iff (second / daySeconds) (first / daySeconds)
  unfold placeAt yearAt ordinalAt timeAt
  unfold daySeconds at *
  omega

/-- The text of a second after its year, as `MM-DDTHH:MM:SS`. -/
def withinYear (second : Int) : List Char :=
  monthDay (isLeap (yearAt second)) (ordinalAt second) ++ ['T'] ++ timeOfDay (timeAt second)

theorem sorts_withinYear (leap : Bool) :
    Sorts (fun place : Fin 366 × Fin 86400 => monthDay leap place.1 ++ ['T'] ++ timeOfDay place.2)
      (5 + 1 + (2 + 1 + 2 + 1 + 2)) fun place => (place.1 : Nat) * daySeconds + (place.2 : Nat) := by
  have days : Sorts (fun place : Fin 366 × Fin 86400 => monthDay leap place.1) 5
      fun place => (place.1 : Nat) :=
    ⟨fun place => (sorts_monthDay leap).length place.1, fun first second =>
      (sorts_monthDay leap).lt_iff first.1 second.1⟩
  refine (days.literal ['T']).append (fun place => timeOfDay place.2) (fun place => (place.2 : Nat))
    (fun place => sorts_timeOfDay.length place.2)
    (fun first second _ => sorts_timeOfDay.lt_iff first.2 second.2) ?_
  intro first second
  have left := first.2.isLt
  have right := second.2.isLt
  unfold daySeconds
  omega

/-- A year, in four digits; one before the year 0 in six, after a sign. -/
def yearText (year : Int) : List Char :=
  if 0 ≤ year then padded 4 year.toNat else '-' :: padded 6 (-year).toNat

/-- A date and time, as `YYYY-MM-DDTHH:MM:SS`. -/
def dateTime (second : Int) : List Char :=
  yearText (yearAt second) ++ ['-'] ++ withinYear second

/-- Where a second is in its year, within the bounds of days and times. -/
def spot (second : Int) : Fin 366 × Fin 86400 :=
  (⟨ordinalAt second, ordinalOf_lt _⟩, ⟨timeAt second, timeAt_lt second⟩)

theorem length_withinYear (second : Int) : (withinYear second).length = 5 + 1 + (2 + 1 + 2 + 1 + 2) :=
  (sorts_withinYear (isLeap (yearAt second))).length (spot second)

/-- Within a year texts sort by time. -/
theorem withinYear_lt_iff {first second : Int} (same : yearAt first = yearAt second) :
    withinYear first < withinYear second ↔ placeAt first < placeAt second := by
  unfold withinYear
  rw [same]
  exact (sorts_withinYear (isLeap (yearAt second))).lt_iff (spot first) (spot second)

/-- A whole second of a year that four digits hold. -/
def FourDigits (second : Int) : Prop := 0 ≤ yearAt second ∧ yearAt second < 10000

theorem sorts_dateTime :
    Sorts (fun second : { second : Int // FourDigits second } => dateTime second.val)
      (4 + 1 + (5 + 1 + (2 + 1 + 2 + 1 + 2))) fun second => second.val := by
  have digits := sorts_padded 4
    (fun second : { second : Int // FourDigits second } => (yearAt second.val).toNat) fun second => by
      obtain ⟨low, high⟩ := second.property
      omega
  have written : (fun second : { second : Int // FourDigits second } => yearText (yearAt second.val)) =
      fun second => padded 4 (yearAt second.val).toNat :=
    funext fun second => if_pos second.property.1
  have years : Sorts (fun second : { second : Int // FourDigits second } => yearText (yearAt second.val))
      4 fun second => (yearAt second.val).toNat := by
    rw [written]
    exact digits
  refine (years.literal ['-']).append (fun second => withinYear second.val)
    (fun second => placeAt second.val) (fun second => length_withinYear second.val) ?_ ?_
  · intro first second same
    obtain ⟨left, _⟩ := first.property
    obtain ⟨right, _⟩ := second.property
    exact withinYear_lt_iff (by omega)
  · intro first second
    obtain ⟨left, _⟩ := first.property
    obtain ⟨right, _⟩ := second.property
    rw [second_lt_iff]
    omega

end MeteredUsage.Library.Calendar
