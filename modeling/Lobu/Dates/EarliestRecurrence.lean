import Lobu.Dates.NextRecurrence

namespace Lobu.Dates

open Lobu.Scheduled Lobu.Watchers

/-! # The answer is the earliest recurrence

It is so unless `Date.UTC` takes the days of a week of the first century for those of another one.
-/

variable {recurrence : ExplicitRecurrence} {now day other : Int} {weekday : Weekday}

/-- The occurrence on a day is past.  Without a time the day itself is. -/
def Over (recurrence : ExplicitRecurrence) (now day : Int) : Prop :=
  match recurrence.timeMinutes with
  | none => day < taipeiDay now
  | some timeMinutes => startOf day + timeMinutes.val * 60 * 1000 < now

instance (recurrence : ExplicitRecurrence) (now day : Int) : Decidable (Over recurrence now day) := by
  unfold Over
  cases recurrence.timeMinutes <;> infer_instance

/-- The day of a weekday in the present week. -/
def thisWeek (now : Int) (weekday : Weekday) : Int := dayInWeek (taipeiDay now) weekday

/-- The next day of a weekday that is not over. -/
def nextDay (recurrence : ExplicitRecurrence) (now : Int) (weekday : Weekday) : Int :=
  if Over recurrence now (thisWeek now weekday) then thisWeek now weekday + 7 else thisWeek now weekday

/-- The years of the days in question are read as they are meant. -/
def ReadsYears (recurrence : ExplicitRecurrence) (now : Int) : Prop :=
  commonEra ≤ taipeiDay now ∧
  ((∀ weekday ∈ recurrence.weekdays, fullYears ≤ thisWeek now weekday) ∨
   ((∀ weekday ∈ recurrence.weekdays,
      thisWeek now weekday < fullYears ∧ ¬ Over recurrence now (thisWeek now weekday)) ∧
    ¬ Undated recurrence now) ∨
   ((∀ weekday ∈ recurrence.weekdays,
      thisWeek now weekday < fullYears → Over recurrence now (thisWeek now weekday)) ∧
    ∃ weekday ∈ recurrence.weekdays,
      fullYears ≤ thisWeek now weekday ∧ ¬ Over recurrence now (thisWeek now weekday)))

theorem thisWeek_bounds (now : Int) (weekday : Weekday) :
    mondayOf (taipeiDay now) ≤ thisWeek now weekday ∧ thisWeek now weekday ≤ mondayOf (taipeiDay now) + 6 ∧
      taipeiDay now - 6 ≤ mondayOf (taipeiDay now) ∧ mondayOf (taipeiDay now) ≤ taipeiDay now := by
  rw [thisWeek, dayInWeek, mondayOf]
  omega

theorem upcoming_iff (dated : recurrence.timeMinutes = none → day ≠ taipeiDay now) :
    Upcoming recurrence now day ↔ ¬ Over recurrence now day := by
  have present := startOf_taipeiDay now
  simp only [startOf, msPerDay] at present
  simp only [Upcoming, Over]
  cases time : recurrence.timeMinutes with
  | none =>
    have apart := dated time
    simp only [startOf, msPerDay]
    omega
  | some timeMinutes => exact Int.not_lt.symm

theorem upcoming_of_later (later : taipeiDay now < day) : Upcoming recurrence now day := by
  have after := startOf_le_iff.mpr later
  simp only [Upcoming]
  cases recurrence.timeMinutes with
  | none => exact Int.le_of_lt after
  | some timeMinutes =>
    simp only
    omega

theorem not_upcoming_of_earlier (earlier : day < taipeiDay now) : ¬ Upcoming recurrence now day := by
  have present := startOf_taipeiDay now
  simp only [startOf, msPerDay] at present
  simp only [Upcoming, startOf, msPerDay]
  cases recurrence.timeMinutes with
  | none =>
    simp only
    omega
  | some timeMinutes =>
    have inDay := timeMinutes.isLt
    simp only
    omega

theorem over_mono (earlier : other ≤ day) (past : Over recurrence now day) : Over recurrence now other := by
  simp only [Over, startOf, msPerDay] at past ⊢
  cases time : recurrence.timeMinutes with
  | none =>
    simp only [time] at past ⊢
    omega
  | some timeMinutes =>
    simp only [time] at past ⊢
    omega

theorem not_over_of_later (later : taipeiDay now < day) : ¬ Over recurrence now day :=
  (upcoming_iff fun _ => by omega).mp (upcoming_of_later later)

theorem over_of_earlier (earlier : day < taipeiDay now) : Over recurrence now day := by
  by_contra going
  exact not_upcoming_of_earlier earlier ((upcoming_iff fun _ => by omega).mpr going)

theorem undated_iff : Undated recurrence now ↔ recurrence.timeMinutes = none ∧
    ∃ weekday ∈ recurrence.weekdays, thisWeek now weekday = taipeiDay now := by
  have same : ∀ weekday : Weekday,
      weekdayOf (taipeiDay now) = weekday.val ↔ thisWeek now weekday = taipeiDay now := by
    intro weekday
    constructor
    · exact dayInWeek_weekday
    · intro isToday
      rw [← isToday]
      exact weekdayOf_dayInWeek _ _
  simp only [Undated, OnWeekday, same]
  exact and_comm

/-- The days that are asked for. -/
def wanted (recurrence : ExplicitRecurrence) (now : Int) : Set Int :=
  {day | OnWeekday recurrence day ∧ Upcoming recurrence now day}

theorem nextDay_wanted (dated : ¬ Undated recurrence now) (member : weekday ∈ recurrence.weekdays) :
    nextDay recurrence now weekday ∈ wanted recurrence now := by
  have bounds := thisWeek_bounds now weekday
  have onDay : weekdayOf (thisWeek now weekday) = weekday.val := weekdayOf_dayInWeek _ _
  rw [nextDay]
  split
  · refine ⟨⟨weekday, member, ?_⟩, upcoming_of_later ?_⟩
    · rw [weekdayOf] at onDay ⊢
      omega
    · rw [thisWeek, dayInWeek, mondayOf] at *
      omega
  · rename_i going
    refine ⟨⟨weekday, member, onDay⟩, (upcoming_iff ?_).mpr going⟩
    intro untimed isToday
    exact dated (undated_iff.mpr ⟨untimed, weekday, member, isToday⟩)

theorem nextDay_le (dated : ¬ Undated recurrence now) (member : weekday ∈ recurrence.weekdays)
    (onDay : weekdayOf day = weekday.val) (upcoming : Upcoming recurrence now day) :
    nextDay recurrence now weekday ≤ day := by
  have bounds := thisWeek_bounds now weekday
  have later : taipeiDay now ≤ day := by
    by_contra earlier
    exact not_upcoming_of_earlier (Int.not_le.mp earlier) upcoming
  obtain ⟨weeks, rfl⟩ := weeks_apart ((weekdayOf_dayInWeek (taipeiDay now) weekday).trans onDay.symm)
  have going : ¬ Over recurrence now (dayInWeek (taipeiDay now) weekday + 7 * weeks) := by
    refine (upcoming_iff fun untimed isToday => ?_).mp upcoming
    rw [isToday] at onDay
    exact dated ⟨⟨weekday, member, onDay⟩, untimed⟩
  rw [nextDay]
  split
  · rename_i past
    have ahead : ¬ dayInWeek (taipeiDay now) weekday + 7 * weeks ≤ thisWeek now weekday :=
      fun before => going (over_mono before past)
    rw [thisWeek] at *
    omega
  · rw [thisWeek] at *
    omega

theorem isLeast_nextDay (dated : ¬ Undated recurrence now) (member : weekday ∈ recurrence.weekdays)
    (least : ∀ other ∈ recurrence.weekdays, nextDay recurrence now weekday ≤ nextDay recurrence now other) :
    IsLeast (wanted recurrence now) (nextDay recurrence now weekday) := by
  refine ⟨nextDay_wanted dated member, ?_⟩
  intro day ⟨⟨other, present, onDay⟩, upcoming⟩
  exact (least other present).trans (nextDay_le dated present onDay upcoming)

theorem nextDay_eq_over (past : Over recurrence now (thisWeek now weekday)) :
    nextDay recurrence now weekday = thisWeek now weekday + 7 := if_pos past

theorem nextDay_eq (going : ¬ Over recurrence now (thisWeek now weekday)) :
    nextDay recurrence now weekday = thisWeek now weekday := if_neg going

theorem thisWeek_le_nextDay : thisWeek now weekday ≤ nextDay recurrence now weekday := by
  rw [nextDay]
  split <;> omega

theorem nextDay_le_week : nextDay recurrence now weekday ≤ thisWeek now weekday + 7 := by
  rw [nextDay]
  split <;> omega

theorem commonEra_eq : commonEra = -719162 := by decide

theorem commonEra_le_monday (common : commonEra ≤ day) : commonEra ≤ mondayOf day := by
  rw [commonEra_eq] at *
  rw [mondayOf, weekdayOf]
  omega

theorem readDay_full (full : fullYears ≤ day) : readDay day = day := if_neg (by omega)

theorem readDay_early (early : day < fullYears) : readDay day = day + centuries := if_pos early

/-- The day that is found for a weekday: one of the first century is never over. -/
def candidateDay (recurrence : ExplicitRecurrence) (now : Int) (weekday : Weekday) : Int :=
  if thisWeek now weekday < fullYears then thisWeek now weekday else nextDay recurrence now weekday

theorem commonEra_le_candidateDay (common : commonEra ≤ taipeiDay now) :
    commonEra ≤ candidateDay recurrence now weekday := by
  have bounds := thisWeek_bounds now weekday
  have monday := commonEra_le_monday common
  have later : thisWeek now weekday ≤ nextDay recurrence now weekday := thisWeek_le_nextDay
  rw [candidateDay]
  split <;> omega

theorem resolveWeekday_common (common : commonEra ≤ taipeiDay now) :
    resolveWeekday recurrence now weekday =
      if fullYears ≤ thisWeek now weekday ∧ thisWeek now weekday = taipeiDay now ∧
          recurrence.timeMinutes = none then none else some (civilDate (candidateDay recurrence now weekday)) := by
  have bounds := thisWeek_bounds now weekday
  have monday := commonEra_le_monday common
  have today : taipeiCalendarDate now = civilDate (taipeiDay now) := by
    have year := (year_pos_iff _).mpr common
    rw [taipeiCalendarDate, getZonedDateParts, if_neg (by omega)]
  have week : dayInWeek (taipeiDay now) weekday = thisWeek now weekday := rfl
  simp only [resolveWeekday, resolveRelativeWeekday_current, resolveRelativeWeekday_next, today,
    dayRead_common common, week, gt_iff_lt,
    taipeiStartOfDay_readDay (show commonEra ≤ thisWeek now weekday by omega)]
  by_cases early : thisWeek now weekday < fullYears
  · have read : now < startOf (readDay (thisWeek now weekday)) := by
      rw [startOf_le_iff, readDay_early early, centuries]
      omega
    rw [if_pos read, if_neg (by omega), candidateDay, if_pos early]
  · have full : fullYears ≤ thisWeek now weekday := by omega
    rw [readDay_full full, candidateDay, if_neg early]
    simp only [startOf_le_iff]
    by_cases later : taipeiDay now < thisWeek now weekday
    · rw [if_pos later, if_neg (by omega), nextDay_eq (not_over_of_later later)]
    · rw [if_neg later]
      by_cases isToday : thisWeek now weekday = taipeiDay now
      · rw [isToday, if_pos rfl]
        cases time : recurrence.timeMinutes with
        | none => rw [if_pos ⟨isToday ▸ full, rfl, rfl⟩]
        | some timeMinutes =>
          have untimed : ¬ some timeMinutes = none := fun same => by cases same
          rw [if_neg fun missing => untimed missing.2.2, nextDay, isToday]
          simp only [Over, time, ge_iff_le]
          by_cases going : now ≤ startOf (taipeiDay now) + timeMinutes.val * 60 * 1000
          · rw [if_pos going, if_neg (Int.not_lt.mpr going)]
          · rw [if_neg going, if_pos (Int.not_le.mp going)]
      · have other : civilDate (thisWeek now weekday) ≠ civilDate (taipeiDay now) :=
          fun same => isToday (civilDate_injective same)
        rw [if_neg other, if_neg (by tauto), nextDay_eq_over (over_of_earlier (by omega))]

theorem resolveNextRecurrence_undated (days : recurrence.weekdays ≠ []) (common : commonEra ≤ taipeiDay now) :
    resolveNextRecurrence recurrence now = none ↔ Undated recurrence now ∧ fullYears ≤ taipeiDay now := by
  rw [resolveNextRecurrence_none, undated_iff]
  constructor
  · intro missing
    obtain empty | ⟨weekday, member, missing⟩ := missing
    · exact absurd empty days
    · rw [resolveWeekday_common common] at missing
      split at missing
      · rename_i found
        obtain ⟨full, isToday, untimed⟩ := found
        exact ⟨⟨untimed, weekday, member, isToday⟩, isToday ▸ full⟩
      · cases missing
  · intro ⟨⟨untimed, weekday, member, isToday⟩, full⟩
    refine .inr ⟨weekday, member, ?_⟩
    rw [resolveWeekday_common common, if_pos ⟨isToday ▸ full, isToday, untimed⟩]

theorem resolveNextRecurrence_dated (days : recurrence.weekdays ≠ [])
    (common : commonEra ≤ taipeiDay now) (dated : ¬ Undated recurrence now) :
    ∃ weekday ∈ recurrence.weekdays,
      resolveNextRecurrence recurrence now = some (civilDate (candidateDay recurrence now weekday)) ∧
      ∀ other ∈ recurrence.weekdays, readDay (candidateDay recurrence now weekday) ≤
        readDay (candidateDay recurrence now other) := by
  have resolved : ∀ weekday ∈ recurrence.weekdays, resolveWeekday recurrence now weekday =
      some (civilDate (candidateDay recurrence now weekday)) := by
    intro weekday member
    rw [resolveWeekday_common common, if_neg]
    intro ⟨_, isToday, untimed⟩
    exact dated (undated_iff.mpr ⟨untimed, weekday, member, isToday⟩)
  cases answer : resolveNextRecurrence recurrence now with
  | none => exact absurd ((resolveNextRecurrence_undated days common).mp answer).1 dated
  | some date =>
    obtain ⟨⟨weekday, member, found⟩, least⟩ := resolveNextRecurrence_some answer
    rw [resolved weekday member] at found
    cases found
    refine ⟨weekday, member, rfl, fun other present => ?_⟩
    have order := least other present _ (resolved other present)
    rw [taipeiStartOfDay_readDay (commonEra_le_candidateDay common),
      taipeiStartOfDay_readDay (commonEra_le_candidateDay common), startOf, startOf, msPerDay] at order
    omega

theorem isNextRecurrence_some (dated : ¬ Undated recurrence now) :
    IsNextRecurrence recurrence now (some (civilDate day)) ↔ IsLeast (wanted recurrence now) day := by
  constructor
  · intro ⟨_, found⟩
    obtain ⟨other, same, least⟩ := found _ rfl
    rw [civilDate_injective same]
    exact least
  · intro least
    refine ⟨⟨fun missing => (by cases missing), fun undated => absurd undated dated⟩, ?_⟩
    intro date found
    cases found
    exact ⟨day, rfl, least⟩

theorem undated_reads (days : recurrence.weekdays ≠ []) (common : commonEra ≤ taipeiDay now)
    (undated : Undated recurrence now) :
    IsNextRecurrence recurrence now (resolveNextRecurrence recurrence now) ↔ ReadsYears recurrence now := by
  obtain ⟨untimed, weekday, member, isToday⟩ := undated_iff.mp undated
  have over_iff : ∀ day, Over recurrence now day ↔ day < taipeiDay now := by
    intro day
    simp only [Over, untimed]
  have full_iff : IsNextRecurrence recurrence now (resolveNextRecurrence recurrence now) ↔
      fullYears ≤ taipeiDay now := by
    constructor
    · intro ⟨missing, _⟩
      exact ((resolveNextRecurrence_undated days common).mp (missing.mpr undated)).2
    · intro full
      have missing := (resolveNextRecurrence_undated days common).mpr ⟨undated, full⟩
      rw [missing]
      exact ⟨⟨fun _ => undated, fun _ => rfl⟩, fun _ found => by cases found⟩
  rw [full_iff]
  constructor
  · intro full
    refine ⟨common, .inr (.inr ⟨fun other _ early => ?_, weekday, member, isToday ▸ full, ?_⟩)⟩
    · rw [over_iff]
      omega
    · rw [over_iff, isToday]
      omega
  · intro stated
    obtain ⟨-, reads⟩ := stated
    rcases reads with full | ⟨_, dated⟩ | ⟨early, _⟩
    · exact isToday ▸ full weekday member
    · exact absurd undated dated
    · by_contra before
      have past := early weekday member (by omega)
      rw [over_iff] at past
      omega

theorem dated_reads (days : recurrence.weekdays ≠ []) (common : commonEra ≤ taipeiDay now)
    (dated : ¬ Undated recurrence now) :
    IsNextRecurrence recurrence now (resolveNextRecurrence recurrence now) ↔ ReadsYears recurrence now := by
  obtain ⟨weekday, member, answer, least⟩ := resolveNextRecurrence_dated days common dated
  have bounds := thisWeek_bounds now
  rw [answer, isNextRecurrence_some dated]
  have read_early : ∀ other, thisWeek now other < fullYears → candidateDay recurrence now other = thisWeek now other ∧
        readDay (candidateDay recurrence now other) = thisWeek now other + centuries := by
    intro other early
    have found : candidateDay recurrence now other = thisWeek now other := if_pos early
    rw [found]
    exact ⟨rfl, readDay_early early⟩
  have read_full : ∀ other, fullYears ≤ thisWeek now other →
      candidateDay recurrence now other = nextDay recurrence now other ∧
        readDay (candidateDay recurrence now other) = nextDay recurrence now other := by
    intro other full
    have found : candidateDay recurrence now other = nextDay recurrence now other :=
      if_neg (by omega)
    rw [found]
    exact ⟨rfl, readDay_full (full.trans thisWeek_le_nextDay)⟩
  -- A day of the first century is read as one that lies after all others.
  have chosen : ∀ other ∈ recurrence.weekdays, fullYears ≤ thisWeek now other → fullYears ≤ thisWeek now weekday := by
    intro other present full
    by_contra early
    have order := least other present
    have inWeek := bounds weekday
    have otherWeek := bounds other
    have soon : nextDay recurrence now other ≤ thisWeek now other + 7 := nextDay_le_week
    rw [(read_early weekday (by omega)).2, (read_full other full).2, centuries] at order
    omega
  constructor
  · intro isLeast
    refine ⟨common, ?_⟩
    have lower : ∀ other ∈ recurrence.weekdays, candidateDay recurrence now weekday ≤ nextDay recurrence now other :=
      fun other present => isLeast.2 (nextDay_wanted dated present)
    by_cases full : fullYears ≤ thisWeek now weekday
    · rw [(read_full weekday full).1] at lower
      by_cases someEarly : ∃ other ∈ recurrence.weekdays, thisWeek now other < fullYears
      · refine .inr (.inr ⟨?_, weekday, member, full, ?_⟩)
        · intro other present early
          by_contra going
          have order := lower other present
          rw [nextDay_eq going] at order
          have later : thisWeek now weekday ≤ nextDay recurrence now weekday := thisWeek_le_nextDay
          omega
        · intro past
          obtain ⟨other, present, early⟩ := someEarly
          have order := lower other present
          have soon : nextDay recurrence now other ≤ thisWeek now other + 7 := nextDay_le_week
          rw [nextDay_eq_over past] at order
          omega
      · refine .inl fun other present => ?_
        by_contra early
        exact someEarly ⟨other, present, by omega⟩
    · have early : ∀ other ∈ recurrence.weekdays, thisWeek now other < fullYears := by
        intro other present
        by_contra later
        exact full (chosen other present (by omega))
      have found := (read_early weekday (early weekday member)).1
      have upcoming : ¬ Over recurrence now (thisWeek now weekday) := by
        intro past
        have order := lower weekday member
        have asked := isLeast.1.2
        rw [found] at asked
        refine (upcoming_iff fun untimed isToday => ?_).mp asked past
        exact dated (undated_iff.mpr ⟨untimed, weekday, member, isToday⟩)
      refine .inr (.inl ⟨fun other present => ⟨early other present, fun past => ?_⟩, dated⟩)
      have order := least other present
      rw [(read_early weekday (early weekday member)).2, (read_early other (early other present)).2] at order
      exact upcoming (over_mono (by omega) past)
  · intro readable
    rcases readable.2 with full | ⟨early, _⟩ | ⟨early, other, present, full, going⟩
    · rw [(read_full weekday (full weekday member)).1]
      refine isLeast_nextDay dated member fun other present => ?_
      have order := least other present
      rwa [(read_full weekday (full weekday member)).2, (read_full other (full other present)).2] at order
    · have found : candidateDay recurrence now weekday = nextDay recurrence now weekday := by
        rw [(read_early weekday (early weekday member).1).1, nextDay_eq (early weekday member).2]
      rw [found]
      refine isLeast_nextDay dated member fun other present => ?_
      have order := least other present
      rw [(read_early weekday (early weekday member).1).2, (read_early other (early other present).1).2] at order
      rw [nextDay_eq (early weekday member).2, nextDay_eq (early other present).2]
      omega
    · have late := chosen other present full
      have first := least other present
      rw [(read_full weekday late).2, (read_full other full).2, nextDay_eq going] at first
      rw [(read_full weekday late).1]
      refine isLeast_nextDay dated member fun third held => ?_
      by_cases before : thisWeek now third < fullYears
      · rw [nextDay_eq_over (early third held before)]
        have inWeek := bounds third
        have otherWeek := bounds other
        omega
      · have order := least third held
        rwa [(read_full weekday late).2, (read_full third (by omega)).2] at order

/-! ## Before the common era

The year of a date is then read as one of the common era, and the answer lies far ahead.
-/

theorem commonEra_le_dayRead (now : Int) : commonEra ≤ dayRead now := by
  by_cases common : commonEra ≤ taipeiDay now
  · rwa [dayRead_common common]
  · have year : ¬ 1 ≤ (civilDate (taipeiDay now)).year := by rwa [year_pos_iff]
    have months := civilDate_month (taipeiDay now)
    obtain ⟨_, first, _⟩ := monthOf_spec (taipeiDay now)
    rw [dayRead, getZonedDateParts, if_pos (by omega), calendarDay, makeDay, commonEra]
    simp only
    have later := monthStart_le (show 12 ≤ 12 * (1 - (civilDate (taipeiDay now)).year) +
      ((civilDate (taipeiDay now)).month : Int) - 1 by omega)
    omega

theorem resolveWeekday_before (before : taipeiDay now < commonEra) :
    ∃ day, resolveWeekday recurrence now weekday = some (civilDate day) ∧ taipeiDay now + 330 ≤ day := by
  have ahead := dayRead_before before
  have common := commonEra_le_monday (commonEra_le_dayRead now)
  have bounds := dayInWeek_bounds (dayRead now) weekday
  have monday : mondayOf (dayRead now) ≤ dayInWeek (dayRead now) weekday := by
    rw [dayInWeek]
    omega
  refine ⟨dayInWeek (dayRead now) weekday, ?_, by omega⟩
  have read : now < startOf (readDay (dayInWeek (dayRead now) weekday)) := by
    rw [startOf_le_iff, readDay, centuries]
    split <;> omega
  simp only [resolveWeekday, resolveRelativeWeekday_current, gt_iff_lt,
    taipeiStartOfDay_readDay (show commonEra ≤ dayInWeek (dayRead now) weekday by omega)]
  rw [if_pos read]

theorem not_isNextRecurrence_before (days : recurrence.weekdays ≠ []) (before : taipeiDay now < commonEra) :
    ¬ IsNextRecurrence recurrence now (resolveNextRecurrence recurrence now) := by
  intro ⟨missing, found⟩
  cases answer : resolveNextRecurrence recurrence now with
  | none =>
    obtain empty | ⟨weekday, _, unresolved⟩ := resolveNextRecurrence_none.mp answer
    · exact days empty
    · obtain ⟨day, resolved, _⟩ := resolveWeekday_before before
      rw [unresolved] at resolved
      cases resolved
  | some date =>
    obtain ⟨⟨weekday, member, unresolved⟩, _⟩ := resolveNextRecurrence_some answer
    obtain ⟨day, resolved, far⟩ := resolveWeekday_before before
    rw [unresolved] at resolved
    cases resolved
    have dated : ¬ Undated recurrence now := by
      rw [← missing, answer]
      intro missed
      cases missed
    obtain ⟨first, same, least⟩ := found _ answer
    cases civilDate_injective same
    have order := least.2 (nextDay_wanted dated member)
    have soon : nextDay recurrence now weekday ≤ thisWeek now weekday + 7 := nextDay_le_week
    have bounds := thisWeek_bounds now weekday
    omega

/-- The answer is the earliest recurrence, and there is none just when today is one of the weekdays
without a time, if and only if the years of the days in question are read as they are meant. -/
theorem resolveNextRecurrence_earliest_iff (days : recurrence.weekdays ≠ []) :
    IsNextRecurrence recurrence now (resolveNextRecurrence recurrence now) ↔ ReadsYears recurrence now := by
  by_cases common : commonEra ≤ taipeiDay now
  · by_cases undated : Undated recurrence now
    · exact undated_reads days common undated
    · exact dated_reads days common undated
  · constructor
    · intro next
      exact absurd next (not_isNextRecurrence_before days (Int.not_le.mp common))
    · intro reads
      exact absurd reads.1 common

/-- Late on Monday, 28 February 2028, for Tuesdays and Wednesdays. -/
theorem resolveNextRecurrence_leapDay :
    resolveNextRecurrence ⟨[2, 3], none⟩ 1835364600000 = some ⟨2028, 2, 29⟩ ∧
      IsNextRecurrence ⟨[2, 3], none⟩ 1835364600000 (resolveNextRecurrence ⟨[2, 3], none⟩ 1835364600000) :=
  ⟨by decide +kernel, (resolveNextRecurrence_earliest_iff (by decide)).mpr
    ⟨by decide, .inl (by decide)⟩⟩

/-- On 15 June 50 the Monday before is taken for the next one. -/
theorem resolveNextRecurrence_past_monday :
    resolveNextRecurrence ⟨[1], some 600⟩ (-60575025600000) = some ⟨50, 6, 13⟩ ∧
      ¬ IsNextRecurrence ⟨[1], some 600⟩ (-60575025600000)
        (resolveNextRecurrence ⟨[1], some 600⟩ (-60575025600000)) := by
  refine ⟨by decide +kernel, ?_⟩
  have timed : ¬ Undated ⟨[1], some 600⟩ (-60575025600000) := fun undated => by cases undated.2
  rw [dated_reads (by decide) (by decide) timed]
  have early : thisWeek (-60575025600000) 1 < fullYears := by decide
  have past : Over ⟨[1], some 600⟩ (-60575025600000) (thisWeek (-60575025600000) 1) := by decide
  intro ⟨_, reads⟩
  rcases reads with full | ⟨going, _⟩ | ⟨_, weekday, member, full, _⟩
  · exact absurd (full 1 (by decide)) (Int.not_le.mpr early)
  · exact (going 1 (by decide)).2 past
  · cases List.mem_singleton.mp member
    exact absurd full (Int.not_le.mpr early)

end Lobu.Dates
