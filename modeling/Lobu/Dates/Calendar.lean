import Lobu.Watchers.UtcDate

namespace Lobu.Dates

open Lobu.Scheduled Lobu.Watchers

/-! # Dates in Taipei

Taipei is eight hours ahead of UTC.  Days are counted as in `civilDate`, weekdays from Sunday.
-/

abbrev CalendarDate := CivilDate

/-- From 0 for Sunday. -/
abbrev Weekday := Fin 7

def taipeiOffset : Int := 8 * 60 * 60 * 1000

/-- The day in Taipei. -/
def taipeiDay (now : Int) : Int := dayOf (now + taipeiOffset)

def weekdayOf (day : Int) : Int := (day + 4) % 7

/-- `formatToParts`: the year is that of its era. -/
def getZonedDateParts (now : Int) : CalendarDate :=
  let date := civilDate (taipeiDay now)
  { date with year := if date.year ≤ 0 then 1 - date.year else date.year }

/-- The day of `setUTCFullYear(year, month - 1, day + days)`. -/
def calendarDay (parts : CalendarDate) (days : Int) : Int :=
  makeDay (12 * parts.year + parts.month - 1) (parts.day + days)

def addCalendarDays (parts : CalendarDate) (days : Int) : CalendarDate :=
  civilDate (calendarDay parts days)

def buildSevenDaysFrom (start : CalendarDate) : Fin 7 → CalendarDate :=
  fun offset => addCalendarDays start offset.val

structure RelativeWeekCalendar where
  previous : Fin 7 → CalendarDate
  current : Fin 7 → CalendarDate
  next : Fin 7 → CalendarDate

def buildRelativeWeekCalendar (now : Int) : RelativeWeekCalendar :=
  let today := getZonedDateParts now
  let weekdayIndex := weekdayOf (calendarDay today 0)
  let daysSinceMonday := (weekdayIndex + 6) % 7
  let currentMonday := addCalendarDays today (-daysSinceMonday)
  { previous := buildSevenDaysFrom (addCalendarDays currentMonday (-7))
    current := buildSevenDaysFrom currentMonday
    next := buildSevenDaysFrom (addCalendarDays currentMonday 7) }

inductive RelativeWeekReference where
  | previous
  | current
  | next

def RelativeWeekCalendar.week (calendar : RelativeWeekCalendar) : RelativeWeekReference → Fin 7 → CalendarDate
  | .previous => calendar.previous
  | .current => calendar.current
  | .next => calendar.next

def resolveRelativeWeekday (reference : RelativeWeekReference) (weekday : Weekday) (now : Int) : CalendarDate :=
  (buildRelativeWeekCalendar now).week reference (weekday + Fin.last 6)

theorem calendarDay_civilDate (day days : Int) : calendarDay (civilDate day) days = day + days := by
  obtain ⟨date, _, _⟩ := monthOf_spec day
  have month : 12 * (civilDate day).year + ((civilDate day).month : Int) - 1 = monthOf day := rfl
  rw [calendarDay, month, makeDay]
  omega

theorem civilDate_injective {day other : Int} (same : civilDate day = civilDate other) : day = other := by
  rw [← dayNumber_civilDate day, same, dayNumber_civilDate]

/-- The day that is read as today. -/
def dayRead (now : Int) : Int := calendarDay (getZonedDateParts now) 0

def mondayOf (day : Int) : Int := day - (weekdayOf day + 6) % 7

/-- The day of a weekday in the week from Monday to Sunday of a day. -/
def dayInWeek (day : Int) (weekday : Weekday) : Int := mondayOf day + ((weekday.val : Int) + 6) % 7

theorem dayInWeek_bounds (day : Int) (weekday : Weekday) :
    day - 6 ≤ dayInWeek day weekday ∧ dayInWeek day weekday ≤ day + 6 := by
  rw [dayInWeek, mondayOf]
  omega

theorem weekdayOf_dayInWeek (day : Int) (weekday : Weekday) : weekdayOf (dayInWeek day weekday) = weekday.val := by
  have below := weekday.isLt
  rw [dayInWeek, mondayOf, weekdayOf, weekdayOf]
  omega

theorem dayInWeek_weekday {day : Int} {weekday : Weekday} (isToday : weekdayOf day = weekday.val) :
    dayInWeek day weekday = day := by
  rw [dayInWeek, mondayOf, isToday]
  omega

theorem weeks_apart {day other : Int} (same : weekdayOf day = weekdayOf other) :
    ∃ weeks, other = day + 7 * weeks := by
  rw [weekdayOf, weekdayOf] at same
  exact ⟨(other - day) / 7, by omega⟩

theorem addCalendarDays_parts (now days : Int) :
    addCalendarDays (getZonedDateParts now) days = civilDate (dayRead now + days) := by
  rw [addCalendarDays, dayRead, calendarDay, calendarDay, makeDay, makeDay]
  congr 1
  omega

theorem addCalendarDays_civilDate (day days : Int) :
    addCalendarDays (civilDate day) days = civilDate (day + days) := by
  rw [addCalendarDays, calendarDay_civilDate]

theorem monday_index (weekday : Weekday) : (((weekday + Fin.last 6 : Fin 7).val : Nat) : Int) =
    ((weekday.val : Int) + 6) % 7 := by
  rw [Fin.val_add]
  push_cast
  rfl

theorem resolveRelativeWeekday_current (weekday : Weekday) (now : Int) :
    resolveRelativeWeekday .current weekday now = civilDate (dayInWeek (dayRead now) weekday) := by
  simp only [resolveRelativeWeekday, RelativeWeekCalendar.week, buildRelativeWeekCalendar,
    buildSevenDaysFrom, addCalendarDays_parts, addCalendarDays_civilDate, monday_index]
  rw [dayInWeek, mondayOf, dayRead]
  rfl

theorem resolveRelativeWeekday_next (weekday : Weekday) (now : Int) :
    resolveRelativeWeekday .next weekday now = civilDate (dayInWeek (dayRead now) weekday + 7) := by
  simp only [resolveRelativeWeekday, RelativeWeekCalendar.week, buildRelativeWeekCalendar,
    buildSevenDaysFrom, addCalendarDays_parts, addCalendarDays_civilDate, monday_index]
  rw [dayInWeek, mondayOf, dayRead]
  congr 1
  omega

theorem civilDate_month (day : Int) : 1 ≤ (civilDate day).month ∧ (civilDate day).month ≤ 12 := by
  obtain ⟨_, _, _, marchMonth, -, -, -, -, last, -, -, -, same⟩ := civilDate_parts day
  simp only [same, marchDate]
  split <;> omega

/-- 1 January of the year 1. -/
def commonEra : Int := monthStart 12

theorem year_pos_iff (day : Int) : 1 ≤ (civilDate day).year ↔ commonEra ≤ day := by
  obtain ⟨date, first, next⟩ := monthOf_spec day
  have month : monthOf day = 12 * (civilDate day).year + (civilDate day).month - 1 := rfl
  have months := civilDate_month day
  rw [commonEra]
  constructor
  · intro common
    have later := monthStart_le (show 12 ≤ monthOf day by omega)
    omega
  · intro common
    have later := lt_of_monthStart (common.trans_lt next)
    omega

theorem dayRead_common {now : Int} (common : commonEra ≤ taipeiDay now) : dayRead now = taipeiDay now := by
  have year := (year_pos_iff _).mpr common
  rw [dayRead, getZonedDateParts, if_neg (by omega), calendarDay_civilDate, Int.add_zero]

theorem monthStart_add_year (month : Int) (years : Nat) (later : 1 ≤ years) :
    monthStart month + 336 ≤ monthStart (month + 12 * years) := by
  have grows : ∀ months : Nat, monthStart month + 28 * months ≤ monthStart (month + months) := by
    intro months
    induction months with
    | zero => simp
    | succ months ih =>
      have bounds := lengthOfMonth_bounds (month + months)
      rw [lengthOfMonth] at bounds
      push_cast
      rw [← Int.add_assoc]
      omega
  have long := grows (12 * years)
  push_cast at long
  omega

theorem dayRead_before {now : Int} (before : taipeiDay now < commonEra) : taipeiDay now + 336 ≤ dayRead now := by
  have year : ¬ 1 ≤ (civilDate (taipeiDay now)).year := by
    rw [year_pos_iff]
    omega
  obtain ⟨date, _, _⟩ := monthOf_spec (taipeiDay now)
  have month : monthOf (taipeiDay now) =
      12 * (civilDate (taipeiDay now)).year + (civilDate (taipeiDay now)).month - 1 := rfl
  rw [dayRead, getZonedDateParts, if_pos (by omega), calendarDay, makeDay]
  have later := monthStart_add_year (monthOf (taipeiDay now))
    (1 - 2 * (civilDate (taipeiDay now)).year).toNat (by omega)
  have ahead : 12 * (1 - (civilDate (taipeiDay now)).year) + ((civilDate (taipeiDay now)).month : Int) - 1 =
        monthOf (taipeiDay now) + 12 * ((1 - 2 * (civilDate (taipeiDay now)).year).toNat : Int) := by
    omega
  rw [ahead]
  simp only
  omega

end Lobu.Dates
