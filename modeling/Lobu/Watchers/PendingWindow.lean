import Lobu.Foundation.Table
import Lobu.Watchers.Periods

namespace Lobu.Watchers

open Lobu.Foundation Lobu.Scheduled

/-! # The pending window of a watcher -/

structure WatcherWindow where
  watcherId : Nat
  windowStart : Int
  windowEnd : Int
  isRollup : Option Bool

structure WindowDates where
  windowStart : Int
  windowEnd : Int
deriving DecidableEq

def isLeafOf (watcherId : Nat) (row : WatcherWindow) : Bool :=
  row.watcherId == watcherId && row.isRollup.getD false == false

def endsLater (row other : WatcherWindow) : Bool := decide (other.windowEnd < row.windowEnd)

def lastWindow (table : List WatcherWindow) (watcherId : Nat) : Option WatcherWindow :=
  firstBy endsLater (table.filter (isLeafOf watcherId))

/-- The end of the current period. -/
def currentPeriodEnd (now : Int) (granularity : WatcherTimeGranularity) : Int :=
  addWatcherPeriod (alignToWatcherWindowStart now granularity) granularity

/-- From its start on, at most to the end of the current period. -/
def windowFrom (windowStart now : Int) (granularity : WatcherTimeGranularity) : WindowDates :=
  let next := addWatcherPeriod windowStart granularity
  let last := currentPeriodEnd now granularity
  let windowEnd := if last < next then last else next
  if windowEnd ≤ windowStart then ⟨subtractWatcherPeriod windowEnd granularity, windowEnd⟩
  else ⟨windowStart, windowEnd⟩

def computePendingWindow (table : List WatcherWindow) (watcherId : Nat)
    (granularity : WatcherTimeGranularity) (now : Int) : WindowDates :=
  match lastWindow table watcherId with
  | some last => windowFrom last.windowEnd now granularity
  | none =>
    let before := subtractWatcherPeriod now granularity
    windowFrom (alignToWatcherWindowStart before granularity) now granularity

theorem currentPeriodEnd_eq {granularity : WatcherTimeGranularity} {period now : Int}
    (inside : InPeriod granularity period now) :
    currentPeriodEnd now granularity = periodStart granularity (period + 1) := by
  rw [currentPeriodEnd, align_of_inPeriod inside, addWatcherPeriod, shift_periodStart]

theorem windowFrom_periodStart {granularity : WatcherTimeGranularity} {period start now : Int}
    (inside : InPeriod granularity period now) (reached : start ≤ period) :
    windowFrom (periodStart granularity start) now granularity =
      ⟨periodStart granularity start, periodStart granularity (start + 1)⟩ := by
  have withinCurrent : periodStart granularity (start + 1) ≤ periodStart granularity (period + 1) :=
    periodStart_le granularity (by omega)
  have later : periodStart granularity start < periodStart granularity (start + 1) :=
    periodStart_lt granularity (by omega)
  simp only [windowFrom, addWatcherPeriod, shift_periodStart, currentPeriodEnd_eq inside,
    if_neg (not_lt.mpr withinCurrent), if_neg (not_le.mpr later)]

/-- The complete period before the one of `now`. -/
def IsPrecedingPeriod (granularity : WatcherTimeGranularity) (now : Int) (window : WindowDates) : Prop :=
  ∃ period, InPeriod granularity period now ∧
    window = ⟨periodStart granularity (period - 1), periodStart granularity period⟩

/-- The period before has no such day, and what is over runs into the period of `now`. -/
def runsOver (granularity : WatcherTimeGranularity) (now : Int) : Bool :=
  match granularity with
  | .daily | .weekly => false
  | .monthly => decide (lengthOfMonth (monthOf (dayOf now) - 1) < getUTCDate now)
  | .quarterly => decide (getUTCMonth now = 11) && decide (getUTCDate now = 31)

theorem monthOf_makeDay {month date : Int} (first : 1 ≤ date) (inMonth : date ≤ 31) :
    monthOf (makeDay month date) = if lengthOfMonth month < date then month + 1 else month := by
  have length := lengthOfMonth_bounds month
  have nextLength := lengthOfMonth_bounds (month + 1)
  rw [lengthOfMonth] at length nextLength
  rw [lengthOfMonth, makeDay]
  split
  · exact monthOf_eq (by omega) (by omega)
  · exact monthOf_eq (by omega) (by omega)

theorem getUTCDate_bounds (instant : Int) :
    1 ≤ getUTCDate instant ∧ getUTCDate instant ≤ lengthOfMonth (monthOf (dayOf instant)) := by
  obtain ⟨date, first, next⟩ := monthOf_spec (dayOf instant)
  rw [getUTCDate, lengthOfMonth]
  omega

theorem align_monthly (month date : Int) (instant : Int) :
    alignToWatcherWindowStart (makeDate (makeDay month date) (timeWithinDay instant)) .monthly =
      periodStart .monthly (monthOf (makeDay month date)) := by
  obtain ⟨-, positive, inDay⟩ := instant_split instant
  refine align_of_inPeriod ?_
  obtain ⟨number, first, next⟩ := monthOf_spec (makeDay month date)
  simp only [InPeriod, periodStart, makeDate, msPerDay] at *
  omega

theorem align_quarterly (month date : Int) (instant : Int) :
    alignToWatcherWindowStart (makeDate (makeDay month date) (timeWithinDay instant)) .quarterly =
      periodStart .quarterly (monthOf (makeDay month date) / 3) := by
  obtain ⟨-, positive, inDay⟩ := instant_split instant
  refine align_of_inPeriod ?_
  obtain ⟨number, first, next⟩ := monthOf_spec (makeDay month date)
  generalize monthOf (makeDay month date) = inMonth at *
  have begun := monthStart_le (show 3 * (inMonth / 3) ≤ inMonth by omega)
  have ended := monthStart_le (show inMonth + 1 ≤ 3 * (inMonth / 3 + 1) by omega)
  simp only [InPeriod, periodStart, makeDate, msPerDay] at *
  omega

theorem inMonth (now : Int) : InPeriod .monthly (monthOf (dayOf now)) now := by
  obtain ⟨split, positive, inDay⟩ := instant_split now
  obtain ⟨date, first, next⟩ := monthOf_spec (dayOf now)
  simp only [InPeriod, periodStart, makeDate, msPerDay] at *
  omega

theorem inQuarter (now : Int) : InPeriod .quarterly (monthOf (dayOf now) / 3) now := by
  obtain ⟨begun, ended⟩ := inMonth now
  have first := monthStart_le (show 3 * (monthOf (dayOf now) / 3) ≤ monthOf (dayOf now) by omega)
  have last := monthStart_le (show monthOf (dayOf now) + 1 ≤ 3 * (monthOf (dayOf now) / 3 + 1) by omega)
  simp only [InPeriod, periodStart, msPerDay] at *
  omega

/-- In the last month of a quarter, only the 31st of December has no counterpart three months
before. -/
theorem last_month_runs_over {month date : Int} (last : month % 3 = 2) (inMonth : date ≤ lengthOfMonth month) :
    lengthOfMonth (month - 3) < date ↔ month % 12 = 11 ∧ date = 31 := by
  obtain ⟨year, march, rfl, later, inYear⟩ := exists_march month
  have cases_ : march = 0 ∨ march = 3 ∨ march = 6 ∨ march = 9 := by omega
  rcases cases_ with rfl | rfl | rfl | rfl
  · have december : 12 * year + 0 + 2 - 3 = 12 * (year - 1) + 9 + 2 := by omega
    rw [lengthOfMonth_march year (by decide) (by decide), marchLength] at inMonth
    rw [december, lengthOfMonth_march (year - 1) (by decide) (by decide), marchLength]
    omega
  · have marchMonth : 12 * year + 3 + 2 - 3 = 12 * year + 0 + 2 := by omega
    rw [lengthOfMonth_march year (by decide) (by decide), marchLength] at inMonth
    rw [marchMonth, lengthOfMonth_march year (by decide) (by decide), marchLength]
    omega
  · have june : 12 * year + 6 + 2 - 3 = 12 * year + 3 + 2 := by omega
    rw [lengthOfMonth_march year (by decide) (by decide), marchLength] at inMonth
    rw [june, lengthOfMonth_march year (by decide) (by decide), marchLength]
    omega
  · have september : 12 * year + 9 + 2 - 3 = 12 * year + 6 + 2 := by omega
    rw [lengthOfMonth_march year (by decide) (by decide), marchLength] at inMonth
    rw [september, lengthOfMonth_march year (by decide) (by decide), marchLength]
    omega

theorem firstStart_spec (granularity : WatcherTimeGranularity) {period now : Int}
    (inside : InPeriod granularity period now) :
    alignToWatcherWindowStart (subtractWatcherPeriod now granularity) granularity =
      periodStart granularity (if runsOver granularity now = true then period else period - 1) := by
  obtain ⟨split, positive, inDay⟩ := instant_split now
  obtain ⟨first, atMost⟩ := getUTCDate_bounds now
  have length := lengthOfMonth_bounds (monthOf (dayOf now))
  cases granularity with
  | daily =>
    refine align_of_inPeriod ?_
    rw [subtractWatcherPeriod, shiftWatcherPeriod, setUTCDate_add]
    simp only [InPeriod, periodStart, makeDate, msPerDay, runsOver, Bool.false_eq_true, if_false] at *
    omega
  | weekly =>
    refine align_of_inPeriod ?_
    rw [subtractWatcherPeriod, shiftWatcherPeriod, setUTCDate_add]
    simp only [InPeriod, periodStart, makeDate, msPerDay, runsOver, Bool.false_eq_true, if_false] at *
    omega
  | monthly =>
    rw [subtractWatcherPeriod, shiftWatcherPeriod, setUTCMonth_add, align_monthly,
      monthOf_makeDay first (by omega), inside.unique (inMonth now)]
    simp only [runsOver, decide_eq_true_eq]
    split
    · rw [if_pos ‹_›]
      congr 1
      omega
    · rw [if_neg ‹_›]
      congr 1
  | quarterly =>
    rw [subtractWatcherPeriod, shiftWatcherPeriod, setUTCMonth_add, align_quarterly,
      monthOf_makeDay first (by omega), inside.unique (inQuarter now)]
    simp only [runsOver, Bool.and_eq_true, decide_eq_true_eq]
    have ofYear : getUTCMonth now = monthOf (dayOf now) % 12 := rfl
    congr 1
    by_cases last : monthOf (dayOf now) % 3 = 2
    · have overrun := last_month_runs_over last atMost
      rw [show monthOf (dayOf now) + 3 * -1 = monthOf (dayOf now) - 3 by omega]
      split <;> split <;> omega
    · split <;> split <;> omega

/-- A watcher without windows begins with the complete period before the current one, unless that
period has no such day. -/
theorem first_window_iff {table : List WatcherWindow} {watcherId : Nat}
    (none_ : lastWindow table watcherId = none) (granularity : WatcherTimeGranularity) (now : Int) :
    IsPrecedingPeriod granularity now (computePendingWindow table watcherId granularity now) ↔
      runsOver granularity now = false := by
  obtain ⟨period, -, inside⟩ := align_spec granularity now
  have window : computePendingWindow table watcherId granularity now =
      ⟨periodStart granularity (if runsOver granularity now = true then period else period - 1),
        periodStart granularity
          ((if runsOver granularity now = true then period else period - 1) + 1)⟩ := by
    simp only [computePendingWindow, none_]
    rw [firstStart_spec granularity inside, windowFrom_periodStart inside]
    split <;> omega
  rw [window]
  cases overruns : runsOver granularity now with
  | false =>
    simp only [Bool.false_eq_true, if_false, iff_true]
    exact ⟨period, inside, by rw [Int.sub_add_cancel]⟩
  | true =>
    simp only [if_true, Bool.true_eq_false, iff_false]
    rintro ⟨other, insideToo, same⟩
    have starts := (WindowDates.mk.inj same).1
    rw [inside.unique insideToo] at starts
    have shorter := periodStart_lt granularity (show other - 1 < other by omega)
    omega

/-- On the 31st of March 2024 at noon the first window is March itself. -/
theorem march_before_its_end : ¬ ∀ (granularity : WatcherTimeGranularity) (now : Int),
    IsPrecedingPeriod granularity now (computePendingWindow [] 1 granularity now) := by
  intro precedes
  have window : computePendingWindow [] 1 .monthly 1711886400000 = ⟨1709251200000, 1711929600000⟩ := by decide +kernel
  obtain ⟨period, inside, same⟩ := precedes .monthly 1711886400000
  have ended := (WindowDates.mk.inj (window.symm.trans same)).2
  have begun := inside.1
  omega

/-- On the 29th of May 2024 it is April. -/
theorem first_window_iff_april :
    IsPrecedingPeriod .monthly 1716984000000 (computePendingWindow [] 1 .monthly 1716984000000) :=
  (first_window_iff rfl .monthly 1716984000000).mpr (by decide +kernel)

end Lobu.Watchers
