import DesignCompiler.Timestamp
import Mathlib.Order.Basic

/-!
The calendar: every day has one date, and the date tells the day. Years are counted from March in eras of 400,
so a leap day is the last of its year.
-/
namespace DesignCompiler.Timestamp

/-- The year that a day of an era lies in. -/
def yearOfEra (day : Nat) : Nat := (day - day / 1460 + day / 36524 - day / 146096) / 365

/-- The days of an era before a year. -/
def startOfYear (year : Nat) : Nat := 365 * year + year / 4 - year / 100

theorem yearOfEra_mono {day later : Nat} (before : day ≤ later) : yearOfEra day ≤ yearOfEra later := by
  have fourths : day - day / 1460 ≤ later - later / 1460 := by omega
  have quarters (day : Nat) : day / 146096 = day / 36524 / 4 := (Nat.div_div_eq_div_mul day 36524 4).symm
  have centuries : day / 36524 ≤ later / 36524 := Nat.div_le_div_right before
  unfold yearOfEra
  rw [quarters, quarters]
  refine Nat.div_le_div_right ?_
  omega

theorem yearOfEra_start : ∀ year < 400, yearOfEra (startOfYear year) = year ∧
    (0 < year → yearOfEra (startOfYear year - 1) = year - 1) := by
  decide +kernel

theorem yearOfEra_lt {day : Nat} (within : day < 146097) : yearOfEra day < 400 := by
  unfold yearOfEra
  omega

theorem startOfYear_succ : ∀ year < 400, startOfYear (year + 1) =
    startOfYear year + if year = 399 then 365 else if isLeapYear (year + 1 : Nat) then 366 else 365 := by
  decide +kernel

/-- The days of an era that lie in its years; the last year has one more. -/
theorem within_year {day : Nat} (within : day < 146097) : startOfYear (yearOfEra day) ≤ day ∧
    day ≤ startOfYear (yearOfEra day) + 365 ∧
    (day = startOfYear (yearOfEra day) + 365 → isLeapYear (yearOfEra day + 1 : Nat) = true) := by
  have short := yearOfEra_lt within
  have length := startOfYear_succ _ short
  refine ⟨?_, ?_⟩
  · by_contra early
    obtain ⟨_, last⟩ := yearOfEra_start _ short
    have some : 0 < yearOfEra day := by
      by_contra none
      rw [Nat.eq_zero_of_not_pos none] at early
      exact early (Nat.zero_le day)
    have back := yearOfEra_mono (Nat.le_sub_one_of_lt (Nat.lt_of_not_le early))
    rw [last some] at back
    omega
  · by_cases last : yearOfEra day = 399
    · have bound : startOfYear 399 = 145731 := rfl
      rw [last, bound]
      exact ⟨by omega, fun _ => rfl⟩
    · have stop : day < startOfYear (yearOfEra day + 1) := by
        by_contra late
        have next := yearOfEra_mono (Nat.le_of_not_lt late)
        rw [(yearOfEra_start _ (by omega)).1] at next
        omega
      rw [if_neg last] at length
      split at length
      · rename_i leap
        exact ⟨by omega, fun _ => leap⟩
      · exact ⟨by omega, fun same => by omega⟩

/-- The month that a day of a year lies in. -/
def monthOf (day : Nat) : Nat :=
  if (5 * day + 2) / 153 < 10 then (5 * day + 2) / 153 + 3 else (5 * day + 2) / 153 - 9

/-- The day of its month. -/
def dayOf (day : Nat) : Nat := day - (153 * ((5 * day + 2) / 153) + 2) / 5 + 1

/-- The month and the day of the month tell the day of the year. -/
theorem monthOf_spec : ∀ day < 366,
    (1 ≤ monthOf day ∧ monthOf day ≤ 12) ∧ (1 ≤ dayOf day ∧ dayOf day ≤ 31) ∧
    (153 * ((monthOf day + 9) % 12) + 2) / 5 + dayOf day - 1 = day := by
  decide +kernel

/-- No month is longer than it may be, if a year of 366 days is a leap year. -/
theorem dayOf_le : ∀ day < 366, dayOf day ≤
    if monthOf day = 2 then (if day = 365 then 29 else 28)
    else if [4, 6, 9, 11].contains (monthOf day) then 30 else 31 := by
  decide +kernel

theorem isLeapYear_era (era : Int) (year : Nat) :
    isLeapYear (era * 400 + year) = isLeapYear year := by
  have fourth : (era * 400 + year) % 4 = (year : Int) % 4 := by omega
  have century : (era * 400 + year) % 100 = (year : Int) % 100 := by omega
  have fourths : (era * 400 + year) % 400 = (year : Int) % 400 := by omega
  rw [isLeapYear, isLeapYear, fourth, century, fourths]

/-- The parts of a date: the era, the year in the era and the day in the year. -/
structure Dated (days era : Int) (year day : Nat) : Prop where
  days_eq : days = era * 146097 + startOfYear year + day - 719468
  year_lt : year < 400
  day_lt : day < 366
  leap : day = 365 → isLeapYear (year + 1 : Nat) = true
  date : dateOf days = (era * 400 + year + (if monthOf day ≤ 2 then 1 else 0), monthOf day, dayOf day)

theorem exists_dated (days : Int) : ∃ era year day, Dated days era year day := by
  have low := Int.fmod_nonneg_of_pos (days + 719468) (b := 146097) (by decide)
  have high := Int.fmod_lt_of_pos (days + 719468) (b := 146097) (by decide)
  rw [Int.fmod_def] at low high
  have date : dateOf days = ((days + 719468).fdiv 146097 * 400 + _ + _, _, _) := rfl
  generalize (days + 719468).fdiv 146097 = era at low high date
  have within : (days + 719468 - era * 146097).toNat < 146097 := by omega
  have whole : days + 719468 = era * 146097 + (days + 719468 - era * 146097).toNat := by omega
  generalize (days + 719468 - era * 146097).toNat = day at within whole date
  obtain ⟨start, stop, leap⟩ := within_year within
  exact ⟨era, yearOfEra day, day - startOfYear (yearOfEra day), by omega, yearOfEra_lt within, by omega,
    fun last => leap (by omega), date⟩

theorem daysOf_dateOf (days : Int) :
    daysOf (dateOf days).1 (dateOf days).2.1 (dateOf days).2.2 = days := by
  obtain ⟨era, year, day, days_eq, year_lt, day_lt, _, date⟩ := exists_dated days
  obtain ⟨_, _, told⟩ := monthOf_spec day day_lt
  rw [date]
  have counted : (if monthOf day ≤ 2 then era * 400 + year + (if monthOf day ≤ 2 then 1 else 0) - 1
      else era * 400 + year + (if monthOf day ≤ 2 then 1 else 0)) = era * 400 + (year : Int) := by
    split <;> omega
  have eraOf : (era * 400 + (year : Int)).fdiv 400 = era := by
    rw [Int.fdiv_eq_ediv_of_nonneg _ (by decide)]
    omega
  have inEra : era * 400 + (year : Int) - era * 400 = year := by omega
  have fourths : (year : Int).fdiv 4 = (year / 4 : Nat) := Int.fdiv_eq_ediv_of_nonneg _ (by decide)
  have centuries : (year : Int).fdiv 100 = (year / 100 : Nat) := Int.fdiv_eq_ediv_of_nonneg _ (by decide)
  simp only [daysOf, counted, told, eraOf, inEra, fourths, centuries]
  rw [days_eq, startOfYear]
  omega

theorem dateOf_valid (days : Int) : (1 ≤ (dateOf days).2.1 ∧ (dateOf days).2.1 ≤ 12) ∧
    (1 ≤ (dateOf days).2.2 ∧ (dateOf days).2.2 ≤ 31) ∧
    (dateOf days).2.2 ≤ daysInMonth (dateOf days).1 (dateOf days).2.1 := by
  obtain ⟨era, year, day, _, _, day_lt, leap, date⟩ := exists_dated days
  obtain ⟨month, inMonth, _⟩ := monthOf_spec day day_lt
  rw [date]
  refine ⟨month, inMonth, Nat.le_trans (dayOf_le day day_lt) ?_⟩
  rw [daysInMonth]
  split
  · rename_i second
    have counted : era * 400 + (year : Int) + (if monthOf day ≤ 2 then 1 else 0) =
        era * 400 + (year + 1 : Nat) := by
      rw [if_pos (by omega)]
      omega
    rw [counted, isLeapYear_era]
    split
    · rename_i last
      exact Nat.le_of_eq (if_pos (leap last)).symm
    · split <;> decide
  · exact Nat.le_refl _

end DesignCompiler.Timestamp
