import Lobu.Watchers.UtcDate

namespace Lobu.Watchers

open Lobu.Scheduled

/-! # The periods of a watcher -/

inductive WatcherTimeGranularity where
  | daily
  | weekly
  | monthly
  | quarterly

def shiftWatcherPeriod (date : Int) (granularity : WatcherTimeGranularity) (direction : Int) : Int :=
  match granularity with
  | .daily => setUTCDate date (getUTCDate date + direction)
  | .weekly => setUTCDate date (getUTCDate date + 7 * direction)
  | .monthly => setUTCMonth date (getUTCMonth date + direction) (getUTCDate date)
  | .quarterly => setUTCMonth date (getUTCMonth date + 3 * direction) (getUTCDate date)

def addWatcherPeriod (date : Int) (granularity : WatcherTimeGranularity) : Int :=
  shiftWatcherPeriod date granularity 1

def subtractWatcherPeriod (date : Int) (granularity : WatcherTimeGranularity) : Int :=
  shiftWatcherPeriod date granularity (-1)

def alignToWatcherWindowStart (date : Int) (granularity : WatcherTimeGranularity) : Int :=
  match granularity with
  | .daily => startOfDay date
  | .weekly =>
    let dayOfWeek := getUTCDay date
    let daysToMonday := if dayOfWeek = 0 then 6 else dayOfWeek - 1
    startOfDay (setUTCDate date (getUTCDate date - daysToMonday))
  | .monthly => startOfDay (setUTCDate date 1)
  | .quarterly =>
    let quarterStart := getUTCMonth date / 3 * 3
    startOfDay (setUTCMonth date quarterStart 1)

/-! ## The calendar

The periods in a row: days, weeks from Monday, months, quarters.
-/

def periodStart : WatcherTimeGranularity → Int → Int
  | .daily, period => period * msPerDay
  | .weekly, period => (7 * period + 4) * msPerDay
  | .monthly, period => monthStart period * msPerDay
  | .quarterly, period => monthStart (3 * period) * msPerDay

/-- The period of an instant. -/
def InPeriod (granularity : WatcherTimeGranularity) (period instant : Int) : Prop :=
  periodStart granularity period ≤ instant ∧ instant < periodStart granularity (period + 1)

theorem periodStart_lt (granularity : WatcherTimeGranularity) {period later : Int}
    (before : period < later) : periodStart granularity period < periodStart granularity later := by
  cases granularity with
  | daily =>
    simp only [periodStart, msPerDay]
    omega
  | weekly =>
    simp only [periodStart, msPerDay]
    omega
  | monthly =>
    have starts := monthStart_lt before
    simp only [periodStart, msPerDay]
    omega
  | quarterly =>
    have starts := monthStart_lt (show 3 * period < 3 * later by omega)
    simp only [periodStart, msPerDay]
    omega

theorem periodStart_le (granularity : WatcherTimeGranularity) {period later : Int}
    (upTo : period ≤ later) : periodStart granularity period ≤ periodStart granularity later := by
  rcases Int.lt_or_eq_of_le upTo with before | rfl
  · exact Int.le_of_lt (periodStart_lt granularity before)
  · exact Int.le_refl _

variable {granularity : WatcherTimeGranularity}

theorem lt_of_periodStart {period later : Int}
    (starts : periodStart granularity period < periodStart granularity later) : period < later := by
  by_contra upTo
  have begins := periodStart_le granularity (Int.not_lt.mp upTo)
  omega

theorem InPeriod.unique {period other instant : Int}
    (inside : InPeriod granularity period instant) (insideToo : InPeriod granularity other instant) :
    period = other := by
  have before : period < other + 1 :=
    lt_of_periodStart (inside.1.trans_lt insideToo.2)
  have after : other < period + 1 :=
    lt_of_periodStart (insideToo.1.trans_lt inside.2)
  omega

theorem instant_split (instant : Int) : instant = makeDate (dayOf instant) (timeWithinDay instant) ∧
    0 ≤ timeWithinDay instant ∧ timeWithinDay instant < msPerDay := by
  simp only [makeDate, dayOf, timeWithinDay, msPerDay]
  omega

theorem dayOf_makeDate {day time : Int} (positive : 0 ≤ time) (inDay : time < msPerDay) :
    dayOf (makeDate day time) = day := by
  simp only [makeDate, dayOf, msPerDay] at *
  omega

@[simp] theorem timeWithinDay_midnight (day : Int) : timeWithinDay (day * msPerDay) = 0 := by
  simp only [timeWithinDay, msPerDay]
  omega

@[simp] theorem dayOf_midnight (day : Int) : dayOf (day * msPerDay) = day := by
  simp only [dayOf, msPerDay]
  omega

theorem makeDate_midnight (day : Int) : makeDate day 0 = day * msPerDay := Int.add_zero _

theorem startOfDay_makeDate {day : Int} (instant : Int) :
    startOfDay (makeDate day (timeWithinDay instant)) = day * msPerDay := by
  obtain ⟨-, positive, inDay⟩ := instant_split instant
  rw [startOfDay, dayOf_makeDate positive inDay, makeDate_midnight]

theorem setUTCDate_add (instant days : Int) :
    setUTCDate instant (getUTCDate instant + days) = makeDate (dayOf instant + days) (timeWithinDay instant) := by
  have date := (monthOf_spec (dayOf instant)).1
  rw [setUTCDate, makeDay, getUTCDate]
  congr 1
  omega

theorem setUTCMonth_add (instant months date : Int) :
    setUTCMonth instant (getUTCMonth instant + months) date =
      makeDate (makeDay (monthOf (dayOf instant) + months) date) (timeWithinDay instant) := by
  rw [setUTCMonth, getUTCMonth]
  congr 2
  omega

theorem align_spec (granularity : WatcherTimeGranularity) (instant : Int) : ∃ period,
    alignToWatcherWindowStart instant granularity = periodStart granularity period ∧
      InPeriod granularity period instant := by
  obtain ⟨split, positive, inDay⟩ := instant_split instant
  rw [makeDate] at split
  obtain ⟨date, first, next⟩ := monthOf_spec (dayOf instant)
  cases granularity with
  | daily =>
    refine ⟨dayOf instant, makeDate_midnight _, ?_⟩
    simp only [InPeriod, periodStart, msPerDay] at *
    omega
  | weekly =>
    refine ⟨(dayOf instant - 4) / 7, ?_, ?_⟩
    · rw [alignToWatcherWindowStart, Int.sub_eq_add_neg, setUTCDate_add, startOfDay_makeDate, periodStart]
      congr 1
      have weekday : getUTCDay instant = (dayOf instant + 4) % 7 := rfl
      by_cases sunday : getUTCDay instant = 0
      · rw [if_pos sunday]
        omega
      · rw [if_neg sunday]
        omega
    · simp only [InPeriod, periodStart, msPerDay] at *
      omega
  | monthly =>
    refine ⟨monthOf (dayOf instant), ?_, ?_⟩
    · rw [alignToWatcherWindowStart, setUTCDate, startOfDay_makeDate, periodStart, makeDay]
      congr 1
      omega
    · simp only [InPeriod, periodStart, msPerDay] at *
      omega
  | quarterly =>
    have months : monthOf (dayOf instant) / 12 * 12 + monthOf (dayOf instant) % 12 / 3 * 3 =
        3 * (monthOf (dayOf instant) / 3) := by omega
    refine ⟨monthOf (dayOf instant) / 3, ?_, ?_⟩
    · rw [alignToWatcherWindowStart, setUTCMonth, startOfDay_makeDate, periodStart, makeDay, getUTCMonth, months]
      congr 1
      omega
    · have begun := monthStart_le (show 3 * (monthOf (dayOf instant) / 3) ≤ monthOf (dayOf instant) by omega)
      have ended := monthStart_le (show monthOf (dayOf instant) + 1 ≤ 3 * (monthOf (dayOf instant) / 3 + 1) by omega)
      simp only [InPeriod, periodStart, msPerDay] at *
      omega

theorem align_of_inPeriod {period instant : Int} (inside : InPeriod granularity period instant) :
    alignToWatcherWindowStart instant granularity = periodStart granularity period := by
  obtain ⟨other, aligned, insideToo⟩ := align_spec granularity instant
  rw [aligned, insideToo.unique inside]

theorem monthOf_monthStart (month : Int) : monthOf (monthStart month) = month :=
  monthOf_eq le_rfl (monthStart_lt (by omega))

theorem getUTCDate_monthStart (month : Int) : getUTCDate (monthStart month * msPerDay) = 1 := by
  have date := (monthOf_spec (monthStart month)).1
  rw [monthOf_monthStart] at date
  rw [getUTCDate, dayOf_midnight]
  omega

theorem shift_periodStart (granularity : WatcherTimeGranularity) (period direction : Int) :
    shiftWatcherPeriod (periodStart granularity period) granularity direction =
      periodStart granularity (period + direction) := by
  cases granularity with
  | daily =>
    rw [shiftWatcherPeriod, setUTCDate_add, periodStart, dayOf_midnight, timeWithinDay_midnight,
      makeDate_midnight, periodStart]
  | weekly =>
    rw [shiftWatcherPeriod, setUTCDate_add, periodStart, dayOf_midnight, timeWithinDay_midnight,
      makeDate_midnight, periodStart]
    congr 1
    omega
  | monthly =>
    rw [shiftWatcherPeriod, setUTCMonth_add, periodStart, dayOf_midnight, timeWithinDay_midnight,
      makeDate_midnight, periodStart, monthOf_monthStart, getUTCDate_monthStart, makeDay]
    congr 1
    omega
  | quarterly =>
    have months : 3 * period + 3 * direction = 3 * (period + direction) := by omega
    rw [shiftWatcherPeriod, setUTCMonth_add, periodStart, dayOf_midnight, timeWithinDay_midnight,
      makeDate_midnight, periodStart, monthOf_monthStart, getUTCDate_monthStart, makeDay, months]
    congr 1
    omega

end Lobu.Watchers
