import Lobu.Reports.Convergence
import Lobu.Reports.Fingerprint

namespace Lobu.Reports

open Lobu.Foundation

/-! # Requests and their answers

A request is refused, fails on a weekday that has no primitive value, or settles its
schedule.  A settled schedule stays settled until a newer revision is accepted.
-/

section Settled

variable {runtime : Runtime} {request : Request} {database after : Database}
variable {input : ReconcileSalesBattleReportScheduleInput} {rows : List ScheduledJobRow}
variable {view other : Weekday → Option ScheduledJobRow} {survivors : Survivors}

theorem Tracked.unique (tracked : Tracked runtime input database view)
    (another : Tracked runtime input database other) : view = other := by
  have forward : ∀ {view other : Weekday → Option ScheduledJobRow},
      Tracked runtime input database view → Tracked runtime input database other →
        ∀ weekday job, view weekday = some job → other weekday = some job := by
    intro view other tracked another weekday job there
    obtain ⟨place, found⟩ := (another.observers job).mp ((tracked.observers job).mpr ⟨weekday, there⟩)
    have days := (another.weekdays place job found).symm.trans (tracked.weekdays weekday job there)
    rw [← Except.ok.inj days]
    exact found
  funext weekday
  exact Option.ext fun job =>
    ⟨forward tracked another weekday job, forward another tracked weekday job⟩

theorem repairExternalKeys_keyed (request : Request) (database : Database) (original : List (Nat × Option String))
    (keyed : ∀ entry ∈ survivors, Keyed request.input.toolboxScheduleId entry.1 entry.2) :
    (repairExternalKeys request original survivors).run database = .ok ((survivors, []), database) := by
  induction survivors with
  | nil => rfl
  | cons entry survivors ih =>
    obtain ⟨weekday, survivor⟩ := entry
    have rest := ih fun entry member => keyed entry (List.mem_cons_of_mem _ member)
    cases found : calendarDay weekday with
    | none =>
      simp only [repairExternalKeys, found, Transaction.run_bind, rest, Transaction.run_pure]
    | some day =>
      have same : survivor.externalKey = some (observerExternalKey request.input.toolboxScheduleId day) :=
        keyed _ List.mem_cons_self day (dayNumber_of_calendarDay found)
      simp only [repairExternalKeys, found, same, if_true, Transaction.run_bind, rest, Transaction.run_pure]

theorem activateObservers_active (database : Database) {days : List (Fin 7)}
    (wanted : ∀ day ∈ days, ∃ job, survivors.lookup (dayNumber day) = some job ∧ Active request.input day job) :
    ∃ active, (activateObservers request survivors days).run database = .ok (active, database) := by
  induction days with
  | nil => exact ⟨{}, rfl⟩
  | cons day days ih =>
    obtain ⟨active, ran⟩ := ih fun day member => wanted day (List.mem_cons_of_mem _ member)
    obtain ⟨job, found, running, same⟩ := wanted day List.mem_cons_self
    refine ⟨{ active with observerRefs := job.id :: active.observerRefs }, ?_⟩
    have fresh : ¬ (job.paused || !sameObserver job request.input day) = true := by
      simp [running, same]
    simp only [activateObservers, found]
    rw [if_neg fresh, Transaction.run_bind, ran]
    rfl

theorem pauseObservers_paused (database : Database)
    (stopped : ∀ entry ∈ survivors, shouldPause request entry.1 = true → entry.2.paused = true) :
    (pauseObservers request survivors).run database = .ok ([], database) := by
  induction survivors with
  | nil => rfl
  | cons entry survivors ih =>
    obtain ⟨weekday, survivor⟩ := entry
    have idle : ¬ (shouldPause request weekday && !survivor.paused) = true := by
      intro pauses
      simp only [Bool.and_eq_true, Bool.not_eq_true'] at pauses
      have resting := stopped _ List.mem_cons_self pauses.1
      rw [pauses.2] at resting
      contradiction
    rw [pauseObservers, if_neg idle]
    exact ih fun entry member => stopped entry (List.mem_cons_of_mem _ member)

theorem groups_single {groups : List (Weekday × List ScheduledJobRow)}
    (listed : Listed runtime input database rows) (tracked : Tracked runtime input database view)
    (grouped : Grouped runtime groups) (all : (groups.flatMap Prod.snd).Perm rows) :
    ∀ group ∈ groups, group.2.length ≤ 1 := by
  intro group member
  have distinct : group.2.Nodup := by
    have once := (all.map (·.id)).nodup_iff.mpr listed.ids
    exact (List.nodup_flatMap.mp once.of_map).1 group member
  have place : ∀ row ∈ group.2, view group.1 = some row := by
    intro row inside
    have listing := all.mem_iff.mp (List.mem_flatMap.mpr ⟨group, member, inside⟩)
    obtain ⟨weekday, there⟩ := (tracked.observers row).mp ((listed.observers row).mpr listing)
    have days := (tracked.weekdays weekday row there).symm.trans (grouped.sorted group member row inside)
    rw [← Except.ok.inj days]
    exact there
  match rows : group.2 with
  | [] => simp
  | [_] => simp
  | first :: second :: others =>
    have same := (place first (by simp [rows])).symm.trans (place second (by simp [rows]))
    rw [rows, Option.some.inj same] at distinct
    simp at distinct

theorem reconcileObservers_settled (listed : Listed runtime request.input database rows)
    (tracked : Tracked runtime request.input database view) (settles : Settles request.input view) :
    ∃ result, (reconcileObservers runtime request rows).run database = .ok (result, database) := by
  have placed : ∀ row ∈ rows, ∃ weekday, view weekday = some row := fun row member =>
    (tracked.observers row).mp ((listed.observers row).mpr member)
  have drift : hasExternalKeyDrift runtime request.input rows = .ok false := by
    apply hasExternalKeyDrift_false.mpr
    intro row member
    obtain ⟨weekday, there⟩ := placed row member
    refine ⟨weekday, tracked.weekdays weekday row there, ?_⟩
    cases found : calendarDay weekday with
    | some day =>
      rw [settles.keyed weekday row there day (dayNumber_of_calendarDay found)]
      simp [keyOf, found]
    | none =>
      cases held : row.externalKey with
      | none => simp [keyOf, found]
      | some key =>
        obtain ⟨day, rfl, _⟩ := tracked.keys weekday row there key held
        rw [calendarDay_dayNumber] at found
        contradiction
  obtain ⟨groups, grouping⟩ := candidatesByWeekday_total [] fun row member => by
    obtain ⟨weekday, there⟩ := placed row member
    exact ⟨weekday, tracked.weekdays weekday row there⟩
  obtain ⟨grouped, all⟩ := candidatesByWeekday_grouped ⟨by simp, by simp⟩ grouping
  have all : (groups.flatMap Prod.snd).Perm rows := by simpa using all
  obtain ⟨chosen, chooses⟩ := chooseSurvivors_single runtime database (groups_single listed tracked grouped all)
  obtain ⟨survivors, deleted, between, chose, sync, holds, parts, names, found⟩ :=
    chooseSurvivors_run runtime groups database
  rw [chooses] at chose
  cases chose
  have keys : ∀ row ∈ rows, ∀ weekday, observerWeekday runtime row = .ok weekday → ∀ key, row.externalKey = some key →
        keyOf request.input.toolboxScheduleId weekday = some key := by
    intro row member weekday read key held
    obtain ⟨known, readable, keyed⟩ := hasExternalKeyDrift_false.mp drift row member
    rw [read] at readable
    cases readable
    rw [← keyed, held]
  obtain ⟨_, mapped⟩ := tracked_of_chosen listed grouped all keys sync holds parts names found
  have once := grouped.once.sublist names
  obtain rfl := tracked.unique mapped
  have entries : ∀ entry ∈ chosen, chosen.lookup entry.1 = some entry.2 := fun entry member =>
    (lookup_eq_some once _ _).mpr member
  have repairs := repairExternalKeys_keyed request database
    (rows.map fun row => (row.id, row.externalKey)) fun entry member =>
      settles.keyed entry.1 entry.2 (entries entry member)
  obtain ⟨active, activates⟩ : ∃ active, (activation request chosen).run database = .ok (active, database) := by
    by_cases running : request.input.desiredState = .active
    · obtain ⟨active, ran⟩ := activateObservers_active database (settles.wanted running)
      exact ⟨active, by rw [activation, if_pos running, ran]⟩
    · exact ⟨{}, by rw [activation, if_neg running]; rfl⟩
  have pauses := pauseObservers_paused database fun entry member unwanted =>
      settles.others entry.1 entry.2 (entries entry member) (shouldPause_iff.mp unwanted)
  refine ⟨({ active with updated := active.updated ++ [] }, [], []), ?_⟩
  simp only [reconcileObservers, repairDrift, Transaction.run_bind, Transaction.run_ofExcept,
    drift, grouping, chooses, repairs, activates, pauses, Except.map, Transaction.run_pure,
    Bool.false_eq_true, if_false, List.filter_nil]

theorem mem_lockedRows {job : ScheduledJobRow} : job ∈ lockedRows runtime input database ↔
    database.jobs.Holds job ∧ locks runtime input.organizationId input.toolboxScheduleId job = true := by
  rw [lockedRows, List.mem_insertionSort, List.mem_filter, List.mem_map]
  rfl

theorem conflictingJobIds_nil :
    conflictingJobIds runtime input (lockedRows runtime input database) = [] ↔ ∀ job, database.jobs.Holds job →
        locks runtime input.organizationId input.toolboxScheduleId job = true →
          Owned input.organizationId input.toolboxScheduleId job := by
  have inside : ∀ job, locks runtime input.organizationId input.toolboxScheduleId job = true →
      job.organizationId = input.organizationId := by
    intro job locked
    simp only [locks, Bool.and_eq_true, beq_iff_eq] at locked
    exact locked.1
  rw [conflictingJobIds, ← List.length_eq_zero_iff, List.length_insertionSort,
    List.length_eq_zero_iff, List.map_eq_nil_iff, List.filter_eq_nil_iff]
  simp only [mem_lockedRows, Bool.not_eq_true', Bool.not_eq_false]
  constructor
  · intro free job held locked
    exact ⟨inside job locked, free job ⟨held, locked⟩⟩
  · rintro alone job ⟨held, locked⟩
    exact (alone job held locked).2

theorem listed_lockedRows (alone : ∀ job, database.jobs.Holds job →
    locks runtime input.organizationId input.toolboxScheduleId job = true →
      Owned input.organizationId input.toolboxScheduleId job) :
    Listed runtime input database ((lockedRows runtime input database).filter fun row =>
      isOwnedObserver row input.toolboxScheduleId) := by
  refine ⟨?_, alone, ?_⟩
  · intro job
    rw [List.mem_filter, mem_lockedRows]
    constructor
    · rintro ⟨held, owned⟩
      exact ⟨⟨held, owned.locks⟩, owned.2⟩
    · rintro ⟨⟨held, locked⟩, _⟩
      exact ⟨held, alone job held locked⟩
  · have ids : ((database.jobs.rows.map (·.job)).map (·.id)).Nodup := by
      rw [List.map_map]
      exact database.jobs.ids
    have locked : ((lockedRows runtime input database).map (·.id)).Nodup := by
      rw [lockedRows, ((List.perm_insertionSort _ _).map _).nodup_iff]
      exact ids.sublist (List.filter_sublist.map _)
    exact locked.sublist (List.filter_sublist.map _)

def ReconcileResult.accepted : ReconcileResult → Bool
  | .reconciled .. => true
  | _ => false

theorem refusal_accepted {accepted : Option SyncRow} {answer : ReconcileResult}
    (refused : refusal runtime input accepted = some answer) : answer.accepted = false := by
  unfold refusal at refused
  split at refused
  · contradiction
  · split at refused
    · cases refused
      rfl
    · split at refused
      · cases refused
        rfl
      · contradiction

theorem refusal_none {accepted : Option SyncRow} :
    refusal runtime input accepted = none ↔
      ∀ row, accepted = some row → row.lastAcceptedRevision ≤ input.scheduleRevision ∧
        (row.lastAcceptedRevision = input.scheduleRevision →
          row.acceptedRequestFingerprint = acceptedRequestFingerprint runtime input) := by
  cases accepted with
  | none => simp [refusal]
  | some row =>
    simp only [refusal, Option.some.injEq, forall_eq']
    split
    · rename_i stale
      simp only [reduceCtorEq, false_iff]
      omega
    · rename_i recent
      split
      · rename_i conflict
        simp only [reduceCtorEq, false_iff]
        exact fun allowed => conflict.2 (allowed.2 conflict.1)
      · rename_i same
        simp only [true_iff]
        refine ⟨not_lt.mp recent, fun revision => ?_⟩
        by_contra different
        exact same ⟨revision, different⟩

/-- What an accepted request does to the database. -/
structure Accepts (runtime : Runtime) (input : ReconcileSalesBattleReportScheduleInput)
    (before after : Database) : Prop where
  newest : ∀ row, syncRow input before = some row →
    row.lastAcceptedRevision ≤ input.scheduleRevision ∧
      (row.lastAcceptedRevision = input.scheduleRevision →
        row.acceptedRequestFingerprint = acceptedRequestFingerprint runtime input)
  recorded : ∃ row, syncRow input after = some row ∧
    row.lastAcceptedRevision = input.scheduleRevision ∧
    row.acceptedRequestFingerprint = acceptedRequestFingerprint runtime input
  spared : ∀ other : ReconcileSalesBattleReportScheduleInput,
    (other.organizationId, other.toolboxScheduleId) ≠
      (input.organizationId, input.toolboxScheduleId) →
      syncRow other after = syncRow other before
  foreign : ∀ job, ¬ Owned input.organizationId input.toolboxScheduleId job →
    (after.jobs.Holds job ↔ before.jobs.Holds job)
  settled : ∃ view, Tracked runtime input after view ∧ Settles input view

/-- The schedule is what the input asked for, and the input is the latest accepted. -/
structure Settled (runtime : Runtime) (input : ReconcileSalesBattleReportScheduleInput)
    (database : Database) : Prop where
  recorded : ∃ row, syncRow input database = some row ∧
    row.lastAcceptedRevision = input.scheduleRevision ∧
    row.acceptedRequestFingerprint = acceptedRequestFingerprint runtime input
  observers : ∃ view, Tracked runtime input database view ∧ Settles input view

theorem Accepts.settles (accepts : Accepts runtime input database after) : Settled runtime input after :=
  ⟨accepts.recorded, accepts.settled⟩

theorem recordRevision_run (runtime : Runtime) (input : ReconcileSalesBattleReportScheduleInput)
    (before between : Database) (sync : between.sync = before.sync)
    (newest : ∀ row, syncRow input before = some row → row.lastAcceptedRevision ≤ input.scheduleRevision ∧
        (row.lastAcceptedRevision = input.scheduleRevision →
          row.acceptedRequestFingerprint = acceptedRequestFingerprint runtime input)) :
    ∃ after, (recordRevision runtime input (syncRow input before)).run between = .ok ((), after) ∧
      after.jobs = between.jobs ∧ (∃ row, syncRow input after = some row ∧
        row.lastAcceptedRevision = input.scheduleRevision ∧
        row.acceptedRequestFingerprint = acceptedRequestFingerprint runtime input) ∧
      ∀ other : ReconcileSalesBattleReportScheduleInput, (other.organizationId, other.toolboxScheduleId) ≠
          (input.organizationId, input.toolboxScheduleId) → syncRow other after = syncRow other before := by
  by_cases known : (syncRow input before).map (·.lastAcceptedRevision) = some input.scheduleRevision
  · obtain ⟨row, found, same⟩ := Option.map_eq_some_iff.mp known
    refine ⟨between, by rw [recordRevision, if_pos known]; rfl, rfl,
      ⟨row, ?_, same, (newest row found).2 same⟩, ?_⟩
    · rw [syncRow, sync]
      exact found
    · intro other _
      rw [syncRow, sync]
      rfl
  · have own : SyncRow.isFor input (acceptedSync runtime input) = true := by
      simp [SyncRow.isFor, acceptedSync]
    refine ⟨{ between with
        sync := upsert (SyncRow.isFor input) (acceptedSync runtime input) between.sync },
      by rw [recordRevision, if_neg known]; rfl, rfl,
      ⟨acceptedSync runtime input, find?_upsert own _, rfl, rfl⟩, ?_⟩
    intro other different
    have apart : ∀ row, SyncRow.isFor input row = true → SyncRow.isFor other row = false := by
      intro row mine
      simp only [SyncRow.isFor, Bool.and_eq_true, beq_iff_eq] at mine
      simp only [SyncRow.isFor, Bool.and_eq_false_iff, beq_eq_false_iff_ne, mine.1, mine.2]
      by_contra same
      push Not at same
      exact different (by rw [← same.1, ← same.2])
    rw [syncRow, syncRow, sync]
    exact find?_upsert_other apart own _

theorem reconcile_outcome (runtime : Runtime) (request : Request) (database : Database) :
    (reconcileSalesBattleReportSchedule runtime request).run database = .error .typeError ∨
      (∃ answer, (reconcileSalesBattleReportSchedule runtime request).run database =
        .ok (answer, database) ∧ answer.accepted = false) ∨
      ∃ answer after, (reconcileSalesBattleReportSchedule runtime request).run database =
        .ok (answer, after) ∧ answer.accepted = true ∧ Accepts runtime request.input database after := by
  cases refused : refusal runtime request.input (syncRow request.input database) with
  | some answer =>
    refine .inr (.inl ⟨answer, ?_, refusal_accepted refused⟩)
    simp [reconcileSalesBattleReportSchedule, refused]
  | none =>
    have newest := refusal_none.mp refused
    cases conflicting : conflictingJobIds runtime request.input (lockedRows runtime request.input database) with
    | cons id ids =>
      refine .inr (.inl ⟨.observerExternalKeyConflict (id :: ids), ?_, rfl⟩)
      simp [reconcileSalesBattleReportSchedule, refused, conflicting]
    | nil =>
      have listed := listed_lockedRows (conflictingJobIds_nil.mp conflicting)
      rcases reconcileObservers_outcome listed with failed |
        ⟨⟨active, paused, deleted⟩, between, view, ran, aside, tracked, settles⟩
      · left
        simp [reconcileSalesBattleReportSchedule, refused, conflicting, failed]
      · obtain ⟨after, records, jobs, recorded, spared⟩ :=
          recordRevision_run runtime request.input database between aside.sync newest
        refine .inr (.inr ⟨.reconciled request.input.scheduleRevision active.created
          active.updated paused deleted active.observerRefs, after, ?_, rfl, newest, recorded,
          spared, ?_, view, ?_, settles⟩)
        · simp [reconcileSalesBattleReportSchedule, refused, conflicting, ran, records]
        · rw [jobs]
          exact aside.foreign
        · refine ⟨?_, tracked.weekdays, tracked.keys, ?_⟩
          · rw [jobs]
            exact tracked.observers
          · rw [jobs]
            exact tracked.alone

theorem reconcile_settled (settled : Settled runtime request.input database) :
    ∃ answer, (reconcileSalesBattleReportSchedule runtime request).run database = .ok (answer, database) := by
  obtain ⟨row, found, revision, fingerprint⟩ := settled.recorded
  obtain ⟨view, tracked, settles⟩ := settled.observers
  have admitted : refusal runtime request.input (some row) = none := by
    apply refusal_none.mpr
    intro other same
    cases same
    exact ⟨revision.le, fun _ => fingerprint⟩
  have free := conflictingJobIds_nil.mpr tracked.alone
  obtain ⟨⟨active, paused, deleted⟩, ran⟩ :=
    reconcileObservers_settled (listed_lockedRows tracked.alone) tracked settles
  refine ⟨.reconciled request.input.scheduleRevision active.created active.updated paused deleted
    active.observerRefs, ?_⟩
  simp [reconcileSalesBattleReportSchedule, found, admitted, free, ran, recordRevision, revision]

end Settled

end Lobu.Reports
