import Lobu.Dates.Calendar
import Mathlib.Data.List.Sort

namespace Lobu.Dates

open Lobu.Scheduled Lobu.Watchers

/-! # The next recurrence

A recurrence is on some weekdays, at a time of the day that is given or not.
-/

structure ExplicitRecurrence where
  weekdays : List Weekday
  timeMinutes : Option (Fin 1440)

/-- `Date.UTC(year, month - 1, day)`: years below 100 are of the twentieth century. -/
def dateUTC (year : Int) (month day : Nat) : Int :=
  let fullYear := if 0 ≤ year ∧ year ≤ 99 then 1900 + year else year
  makeDate (makeDay (12 * fullYear + month - 1) day) 0

def taipeiStartOfDay (parts : CalendarDate) : Int :=
  dateUTC parts.year parts.month parts.day - taipeiOffset

def taipeiCalendarDate (now : Int) : CalendarDate := getZonedDateParts now

def resolveWeekday (recurrence : ExplicitRecurrence) (now : Int) (weekday : Weekday) : Option CalendarDate :=
  let current := resolveRelativeWeekday .current weekday now
  let currentStart := taipeiStartOfDay current
  let today := taipeiCalendarDate now
  if currentStart > now then some current
  else if current = today then
    match recurrence.timeMinutes with
    | none => none
    | some timeMinutes =>
      if currentStart + timeMinutes.val * 60 * 1000 ≥ now then some current
      else some (resolveRelativeWeekday .next weekday now)
  else some (resolveRelativeWeekday .next weekday now)

/-- Of the candidates the one that starts first, unless one of them is missing. -/
def resolveNextRecurrence (recurrence : ExplicitRecurrence) (now : Int) : Option CalendarDate :=
  let candidates := recurrence.weekdays.map (resolveWeekday recurrence now)
  if candidates.any Option.isNone then none
  else ((candidates.filterMap id).insertionSort fun left right =>
    taipeiStartOfDay left ≤ taipeiStartOfDay right).head?

/-- Midnight in Taipei. -/
def startOf (day : Int) : Int := day * msPerDay - taipeiOffset

/-- The occurrence on a day is not before the present.  Without a time it is the whole day. -/
def Upcoming (recurrence : ExplicitRecurrence) (now day : Int) : Prop :=
  match recurrence.timeMinutes with
  | none => now ≤ startOf day
  | some timeMinutes => now ≤ startOf day + timeMinutes.val * 60 * 1000

def OnWeekday (recurrence : ExplicitRecurrence) (day : Int) : Prop :=
  ∃ weekday ∈ recurrence.weekdays, weekdayOf day = weekday.val

/-- Today is one of the weekdays, and no time is given. -/
def Undated (recurrence : ExplicitRecurrence) (now : Int) : Prop :=
  OnWeekday recurrence (taipeiDay now) ∧ recurrence.timeMinutes = none

/-- The answer is the first day on one of the weekdays whose occurrence is not before the present;
there is none just when today is one of the weekdays and no time is given. -/
def IsNextRecurrence (recurrence : ExplicitRecurrence) (now : Int) (answer : Option CalendarDate) : Prop :=
  (answer = none ↔ Undated recurrence now) ∧
  ∀ date, answer = some date → ∃ day, date = civilDate day ∧
    IsLeast {day | OnWeekday recurrence day ∧ Upcoming recurrence now day} day

/-- 1 January of the year 100. -/
def fullYears : Int := monthStart 1200

theorem startOf_le_iff {now day : Int} : now < startOf day ↔ taipeiDay now < day := by
  rw [startOf, taipeiDay, dayOf, msPerDay]
  omega

theorem startOf_taipeiDay (now : Int) : startOf (taipeiDay now) ≤ now ∧ now < startOf (taipeiDay now + 1) := by
  rw [startOf, startOf, taipeiDay, dayOf, msPerDay]
  omega

/-- The days between the years of the first century and those of the twentieth. -/
def centuries : Int := 693960

theorem monthStart_century {month : Int} (common : 12 ≤ month) (early : month < 1200) :
    monthStart (month + 22800) = monthStart month + centuries := by
  obtain ⟨year, march, rfl, later, inYear⟩ := exists_march month
  have ahead : 12 * year + march + 2 + 22800 = 12 * (year + 1900) + march + 2 := by omega
  rw [ahead, monthStart_march _ later inYear, monthStart_march _ later inYear, marchStart, marchStart, centuries]
  omega

theorem year_full_iff (day : Int) : 100 ≤ (civilDate day).year ↔ fullYears ≤ day := by
  obtain ⟨date, first, next⟩ := monthOf_spec day
  have month : monthOf day = 12 * (civilDate day).year + (civilDate day).month - 1 := rfl
  have months := civilDate_month day
  rw [fullYears]
  constructor
  · intro full
    have later := monthStart_le (show 1200 ≤ monthOf day by omega)
    omega
  · intro full
    have later := lt_of_monthStart (full.trans_lt next)
    omega

theorem taipeiStartOfDay_full {day : Int} (full : fullYears ≤ day) :
    taipeiStartOfDay (civilDate day) = startOf day := by
  have year := (year_full_iff day).mpr full
  have date := calendarDay_civilDate day 0
  rw [calendarDay] at date
  rw [taipeiStartOfDay, dateUTC, if_neg (by omega), startOf, makeDate]
  rw [Int.add_zero, Int.add_zero] at date
  rw [date, Int.add_zero]

theorem taipeiStartOfDay_early {day : Int} (common : commonEra ≤ day) (early : day < fullYears) :
    taipeiStartOfDay (civilDate day) = startOf (day + centuries) := by
  have year := (year_pos_iff day).mpr common
  have century : ¬ 100 ≤ (civilDate day).year := by
    rw [year_full_iff]
    omega
  have months := civilDate_month day
  have date := calendarDay_civilDate day 0
  rw [calendarDay, makeDay] at date
  have ahead : 12 * (1900 + (civilDate day).year) + ((civilDate day).month : Int) - 1 =
      12 * (civilDate day).year + ((civilDate day).month : Int) - 1 + 22800 := by omega
  rw [taipeiStartOfDay, dateUTC, if_pos (by omega), startOf, makeDate, makeDay, ahead,
    monthStart_century (by omega) (by omega), Int.add_zero]
  congr 2
  omega

/-- The day that the start of a day is taken for. -/
def readDay (day : Int) : Int := if day < fullYears then day + centuries else day

theorem taipeiStartOfDay_readDay {day : Int} (common : commonEra ≤ day) :
    taipeiStartOfDay (civilDate day) = startOf (readDay day) := by
  rw [readDay]
  split
  · rename_i early
    exact taipeiStartOfDay_early common early
  · rename_i full
    exact taipeiStartOfDay_full (by omega)

section Candidates

variable {α : Type} {key : α → Int} {items : List α} {first : α}

theorem head_insertionSort_least
    (sorted : (items.insertionSort fun left right => key left ≤ key right).head? = some first) :
    first ∈ items ∧ ∀ item ∈ items, key first ≤ key item := by
  have total : Std.Total fun left right : α => key left ≤ key right :=
    ⟨fun left right => Int.le_total (key left) (key right)⟩
  have trans : IsTrans α fun left right => key left ≤ key right := ⟨fun _ _ _ => Int.le_trans⟩
  have ordered := List.pairwise_insertionSort (fun left right : α => key left ≤ key right) items
  obtain ⟨rest, whole⟩ := List.head?_eq_some_iff.mp sorted
  have same : ∀ item, item ∈ first :: rest ↔ item ∈ items := by
    intro item
    rw [← whole, List.mem_insertionSort]
  rw [whole, List.pairwise_cons] at ordered
  refine ⟨(same first).mp List.mem_cons_self, fun item member => ?_⟩
  rcases List.mem_cons.mp ((same item).mpr member) with rfl | later
  · exact Int.le_refl _
  · exact ordered.1 item later

end Candidates

variable {recurrence : ExplicitRecurrence} {now : Int}

theorem resolveNextRecurrence_none : resolveNextRecurrence recurrence now = none ↔ recurrence.weekdays = [] ∨
      ∃ weekday ∈ recurrence.weekdays, resolveWeekday recurrence now weekday = none := by
  simp only [resolveNextRecurrence]
  split
  · rename_i missing
    simp only [List.any_map, List.any_eq_true, Function.comp_apply, Option.isNone_iff_eq_none] at missing
    exact ⟨fun _ => .inr missing, fun _ => rfl⟩
  · rename_i found
    simp only [List.any_map, List.any_eq_true, Function.comp_apply, Option.isNone_iff_eq_none] at found
    rw [List.head?_eq_none_iff, ← List.length_eq_zero_iff, List.length_insertionSort,
      List.length_eq_zero_iff, List.filterMap_map, List.filterMap_eq_nil_iff]
    simp only [Function.comp_apply, id_eq]
    constructor
    · intro empty
      cases days : recurrence.weekdays with
      | nil => exact .inl rfl
      | cons weekday _ =>
        have member : weekday ∈ recurrence.weekdays := days ▸ List.mem_cons_self
        exact .inr ⟨weekday, days ▸ member, empty weekday member⟩
    · intro empty weekday member
      rcases empty with empty | missing
      · rw [empty] at member
        cases member
      · exact absurd missing found

theorem resolveNextRecurrence_some {date : CalendarDate} (answer : resolveNextRecurrence recurrence now = some date) :
    (∃ weekday ∈ recurrence.weekdays, resolveWeekday recurrence now weekday = some date) ∧
    ∀ weekday ∈ recurrence.weekdays, ∀ other, resolveWeekday recurrence now weekday = some other →
      taipeiStartOfDay date ≤ taipeiStartOfDay other := by
  simp only [resolveNextRecurrence] at answer
  split at answer
  · cases answer
  · obtain ⟨member, least⟩ := head_insertionSort_least answer
    simp only [List.filterMap_map, List.mem_filterMap, Function.comp_apply, id_eq] at member least
    exact ⟨member, fun weekday present other resolved => least other ⟨weekday, present, resolved⟩⟩

end Lobu.Dates
