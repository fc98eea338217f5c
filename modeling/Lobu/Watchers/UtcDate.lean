import Lobu.Scheduled.IsoDate
import Mathlib.Data.Int.ConditionallyCompleteOrder

namespace Lobu.Watchers

open Lobu.Scheduled

/-! # Dates in UTC

The getters and setters of `Date` in UTC, on instants in milliseconds.  Months are counted from
January of the year 0, days from 1970-01-01.
-/

def msPerDay : Int := 86400000

def dayOf (instant : Int) : Int := instant / msPerDay

def timeWithinDay (instant : Int) : Int := instant % msPerDay

/-- The first day of a month. -/
def monthStart (month : Int) : Int :=
  (CivilDate.mk (month / 12) ((month % 12).toNat + 1) 1).dayNumber

def monthOf (day : Int) : Int := 12 * (civilDate day).year + (civilDate day).month - 1

def lengthOfMonth (month : Int) : Int := monthStart (month + 1) - monthStart month

/-- `MakeDay`, for a month in the count of all months: dates beyond the month run over. -/
def makeDay (month date : Int) : Int := monthStart month + date - 1

def makeDate (day time : Int) : Int := day * msPerDay + time

def getUTCDate (instant : Int) : Int := (civilDate (dayOf instant)).day

/-- From 0 for January. -/
def getUTCMonth (instant : Int) : Int := monthOf (dayOf instant) % 12

/-- From 0 for Sunday. -/
def getUTCDay (instant : Int) : Int := (dayOf instant + 4) % 7

def setUTCDate (instant date : Int) : Int :=
  makeDate (makeDay (monthOf (dayOf instant)) date) (timeWithinDay instant)

/-- The month is that of the year, and may lie beyond it. -/
def setUTCMonth (instant month date : Int) : Int :=
  let january := monthOf (dayOf instant) / 12 * 12
  makeDate (makeDay (january + month) date) (timeWithinDay instant)

/-- `setUTCHours(0, 0, 0, 0)` -/
def startOfDay (instant : Int) : Int := makeDate (dayOf instant) 0

/-! ## Months

Counted from March, as in `civilDate`.
-/

/-- The first of March of a year, counted from that of the year 0. -/
def marchStart (year : Int) : Int := 365 * year + year / 4 - year / 100 + year / 400

theorem marchStart_eq (year : Int) : marchStart year = year / 400 * 146097 + firstDay (year % 400).toNat := by
  have leaps : year / 4 = 100 * (year / 400) + year % 400 / 4 := by omega
  have centuries : year / 100 = 4 * (year / 400) + year % 400 / 100 := by omega
  have nonneg : 0 ≤ year % 400 := by omega
  rw [marchStart, leaps, centuries, firstDay]
  omega

theorem marchStart_succ (year : Int) :
    marchStart year + 365 ≤ marchStart (year + 1) ∧ marchStart (year + 1) ≤ marchStart year + 366 := by
  have century : year / 100 = year / 4 / 25 := by omega
  have era : year / 400 = year / 4 / 25 / 4 := by omega
  have nextCentury : (year + 1) / 100 = (year + 1) / 4 / 25 := by omega
  have nextEra : (year + 1) / 400 = (year + 1) / 4 / 25 / 4 := by omega
  rw [marchStart, marchStart, century, era, nextCentury, nextEra]
  rcases (show (year + 1) / 4 = year / 4 ∨ (year + 1) / 4 = year / 4 + 1 by omega) with same | next
  · rw [same]
    omega
  · rw [next]
    omega

theorem monthStart_march (year : Int) {march : Int} (later : 0 ≤ march) (inYear : march < 12) :
    monthStart (12 * year + march + 2) = marchStart year + (153 * march + 2) / 5 - 719468 := by
  rw [marchStart_eq]
  simp only [monthStart, CivilDate.dayNumber, Int.fdiv_eq_ediv_of_nonneg _ (show (0 : Int) ≤ 400 by decide),
    Int.fmod_eq_emod_of_nonneg _ (show (0 : Int) ≤ 400 by decide)]
  by_cases early : march < 10
  · have number : ((12 * year + march + 2) % 12).toNat + 1 = march.toNat + 3 := by omega
    have sameYear : (12 * year + march + 2) / 12 = year := by omega
    rw [number, sameYear]
    simp only [show ¬ march.toNat + 3 ≤ 2 by omega, if_false, Nat.add_sub_cancel]
    omega
  · have number : ((12 * year + march + 2) % 12).toNat + 1 = march.toNat - 9 := by omega
    have nextYear : (12 * year + march + 2) / 12 = year + 1 := by omega
    rw [number, nextYear]
    simp only [show march.toNat - 9 ≤ 2 by omega, if_true, Int.add_sub_cancel]
    omega

theorem exists_march (month : Int) : ∃ year march : Int, month = 12 * year + march + 2 ∧ 0 ≤ march ∧ march < 12 :=
  ⟨(month - 2) / 12, (month - 2) % 12, by omega, by omega, by omega⟩

/-- The months from March to February; only February's length depends on the year. -/
def marchLength (march : Int) : Int :=
  (153 * (march + 1) + 2) / 5 - (153 * march + 2) / 5

theorem lengthOfMonth_march (year : Int) {march : Int} (later : 0 ≤ march) (inYear : march < 11) :
    lengthOfMonth (12 * year + march + 2) = marchLength march := by
  have next : 12 * year + march + 2 + 1 = 12 * year + (march + 1) + 2 := by omega
  rw [lengthOfMonth, next, monthStart_march year (by omega) (by omega),
    monthStart_march year later (by omega), marchLength]
  omega

theorem lengthOfMonth_february (year : Int) :
    28 ≤ lengthOfMonth (12 * year + 11 + 2) ∧ lengthOfMonth (12 * year + 11 + 2) ≤ 29 := by
  have next : 12 * year + 11 + 2 + 1 = 12 * (year + 1) + 0 + 2 := by omega
  rw [lengthOfMonth, next, monthStart_march (year + 1) (by omega) (by omega),
    monthStart_march year (by omega) (by omega)]
  have bounds := marchStart_succ year
  omega

theorem lengthOfMonth_bounds (month : Int) : 28 ≤ lengthOfMonth month ∧ lengthOfMonth month ≤ 31 := by
  obtain ⟨year, march, rfl, later, inYear⟩ := exists_march month
  by_cases february : march = 11
  · subst february
    have bounds := lengthOfMonth_february year
    omega
  · rw [lengthOfMonth_march year later (by omega), marchLength]
    omega

theorem monthStart_lt {month later : Int} (before : month < later) : monthStart month < monthStart later := by
  have grows : StrictMono monthStart := by
    refine strictMono_int_of_lt_succ fun month => ?_
    have bounds := lengthOfMonth_bounds month
    rw [lengthOfMonth] at bounds
    omega
  exact grows before

theorem monthStart_le {month later : Int} (upTo : month ≤ later) : monthStart month ≤ monthStart later := by
  rcases Int.lt_or_eq_of_le upTo with before | rfl
  · exact Int.le_of_lt (monthStart_lt before)
  · exact Int.le_refl _

theorem lt_of_monthStart {month later : Int} (begins : monthStart month < monthStart later) : month < later := by
  by_contra upTo
  have starts := monthStart_le (Int.not_lt.mp upTo)
  omega

theorem commonDays_at_next : ∀ year < 399, 365 * (year + 1) ≤ commonDays (firstDay (year + 1)) := by
  decide +kernel

theorem before_nextYear {dayOfEra yearOfEra : Nat} (inEra : dayOfEra < 146097)
    (counted : commonDays dayOfEra / 365 = yearOfEra) : (dayOfEra : Int) < marchStart (yearOfEra + 1) := by
  have below := (firstDay_bounds inEra).1
  rw [counted] at below
  rw [marchStart_eq]
  by_cases last : yearOfEra = 399
  · subst last
    simp only [firstDay]
    omega
  · have number : ((yearOfEra : Int) + 1) % 400 = ((yearOfEra + 1 : Nat) : Int) := by omega
    rw [number, Int.toNat_natCast]
    by_contra late
    have common := commonDays_mono (show firstDay (yearOfEra + 1) ≤ dayOfEra by omega)
    have years := commonDays_at_next yearOfEra (by omega)
    omega

theorem marchStart_era (year era : Int) : marchStart (year + era * 400) = era * 146097 + marchStart year := by
  rw [marchStart, marchStart]
  omega

theorem monthOf_spec (day : Int) : day = monthStart (monthOf day) + (civilDate day).day - 1 ∧
    1 ≤ ((civilDate day).day : Int) ∧ day < monthStart (monthOf day + 1) := by
  obtain ⟨era, yearOfEra, dayOfYear, marchMonth, split, inEra, counted, below, lastMonth, firstOfMonth, -,
    beforeNextMonth, same⟩ := civilDate_parts day
  have beforeNext := before_nextYear inEra counted
  simp only [monthOf, same, marchDate]
  have firstOfYear : marchStart yearOfEra = firstDay yearOfEra := by
    rw [marchStart_eq]
    have number : (yearOfEra : Int) % 400 = yearOfEra := by omega
    rw [number, Int.toNat_natCast]
    omega
  -- months of January and February belong to the year before
  have month : 12 * (if (if marchMonth < 10 then marchMonth + 3 else marchMonth - 9) ≤ 2 then
        (yearOfEra : Int) + era * 400 + 1 else (yearOfEra : Int) + era * 400) +
      ((if marchMonth < 10 then marchMonth + 3 else marchMonth - 9 : Nat) : Int) - 1 =
        12 * ((yearOfEra : Int) + era * 400) + marchMonth + 2 := by
    split <;> split <;> omega
  rw [month, monthStart_march _ (by omega) (by omega), marchStart_era, firstOfYear]
  refine ⟨by omega, by omega, ?_⟩
  by_cases last : marchMonth = 11
  · have next : 12 * ((yearOfEra : Int) + era * 400) + marchMonth + 2 + 1 =
        12 * ((yearOfEra : Int) + 1 + era * 400) + 0 + 2 := by omega
    rw [next, monthStart_march _ (by omega) (by omega), marchStart_era]
    omega
  · have next : 12 * ((yearOfEra : Int) + era * 400) + marchMonth + 2 + 1 =
        12 * ((yearOfEra : Int) + era * 400) + ((marchMonth : Int) + 1) + 2 := by omega
    rw [next, monthStart_march _ (by omega) (by omega), marchStart_era, firstOfYear]
    omega

theorem monthOf_eq {day month : Int} (begun : monthStart month ≤ day) (going : day < monthStart (month + 1)) :
    monthOf day = month := by
  obtain ⟨date, first, next⟩ := monthOf_spec day
  have upper : monthOf day < month + 1 := lt_of_monthStart (by omega)
  have lower : month < monthOf day + 1 := lt_of_monthStart (by omega)
  omega

end Lobu.Watchers
