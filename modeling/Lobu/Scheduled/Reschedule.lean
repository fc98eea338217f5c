import Lobu.Scheduled.RowLocks
import Lobu.Scheduled.UserTicks

namespace Lobu.Scheduled

open Lobu.Foundation Lobu.Queue

/-! # Rescheduling against firing

Every change of a job's definition is a new revision.  A dispatch holds the lock of
its row from the read to the write-back, so what it fires is the current row.
-/

/-- What the edits change of a job, apart from its revision, its pauses and its ticks. -/
def ScheduledJobRow.definition (row : ScheduledJobRow) : ScheduledJobRow :=
  { row with
    scheduleRevision := 0
    paused := false
    nextRunAt := 0
    lastFiredAt := none
    lastFiredRunId := none }

/-- The dispatch that writes back in an event. -/
def advanceTarget (state : JobsState) : JobsEvent → Option Dispatch
  | .advances place _ _ => state.dispatches[place]?
  | _ => none

/-- What one step makes of a job. -/
inductive JobMoves (state : JobsState) (event : JobsEvent) :
    ScheduledJobRow → ScheduledJobRow → Prop where
  | revised (newer : row.scheduleRevision < later.scheduleRevision) : JobMoves state event row later
  | kept (revision : later.scheduleRevision = row.scheduleRevision)
      (definition : later.definition = row.definition) (tick : later.nextRunAt = row.nextRunAt) :
      JobMoves state event row later
  | advanced (revision : later.scheduleRevision = row.scheduleRevision)
      (definition : later.definition = row.definition)
      (fired : ∃ dispatch ∈ advanceTarget state event, dispatch.row = row) :
      JobMoves state event row later

/-- Between two moments of a run the revision of a job does not decrease, and
increases when its definition changes. -/
def RevisionsAdvance (before after : JobsState) : Prop :=
  before.nextJobId ≤ after.nextJobId ∧
    ∀ later ∈ after.jobs, later.id < before.nextJobId → ∃ row ∈ before.jobs, row.id = later.id ∧
      row.scheduleRevision ≤ later.scheduleRevision ∧
        (later.definition ≠ row.definition → row.scheduleRevision < later.scheduleRevision)

/-- The tick of a job moves with a new revision, or is advanced by the dispatch
that fired this very row. -/
def TicksMove (before : JobsState) (event : JobsEvent) (after : JobsState) : Prop :=
  ∀ row ∈ before.jobs, ∀ later ∈ after.jobs, later.id = row.id → later.nextRunAt ≠ row.nextRunAt →
    row.scheduleRevision < later.scheduleRevision ∨
      ∃ dispatch ∈ advanceTarget before event, dispatch.row = row

/-- The data of the run of a fired row. -/
def firedData (platform : Platform) (row : ScheduledJobRow) : TaskJobData where
  name := row.actionType
  payload := stringify platform.numberText (firedPayload row)
  scheduledTick := none

/-- What holds of a run when it is spawned. -/
structure FiresCurrent (platform : Platform) (inTime : Spawned → Prop) (before after : JobsState)
    (entry : Spawned) : Prop where
  current : entry.row ∈ before.jobs
  unchanged : after.jobs = before.jobs
  carried : ∃ run ∈ after.scheduler.queue.runs, run.id = entry.runId ∧
    run.actionInput = firedData platform entry.row
  active : entry.row.state = .active
  unpaused : entry.row.paused = false
  due : entry.row.nextRunAt ≤ entry.evaluatedAt
  inTime : inTime entry

/-- Rescheduling and firing are ordered by the lock of the row. -/
structure Reschedules (schedule : Schedule) (platform : Platform) (inTime : Spawned → Prop) :
    Prop where
  revisions : ∀ before after, (jobsMachine schedule platform).Reachable unrestricted before →
    (jobsMachine schedule platform).Later unrestricted before after → RevisionsAdvance before after
  ticks : ∀ before event after, (jobsMachine schedule platform).Reachable unrestricted before →
    jobsStep schedule platform before event = some after → TicksMove before event after
  fires : ∀ before event after, (jobsMachine schedule platform).Reachable unrestricted before →
    jobsStep schedule platform before event = some after →
      ∀ entry ∈ after.spawned, entry ∈ before.spawned ∨
        FiresCurrent platform inTime before after entry

def beforeUntil (entry : Spawned) : Prop :=
  ∀ untilAt ∈ entry.row.untilAt, entry.spawnedAt ≤ untilAt

/-- The tick is not past `until_at`, and the row was locked before that or within
the grace of the tick. -/
def withinGrace (entry : Spawned) : Prop :=
  ∀ untilAt ∈ entry.row.untilAt, entry.row.nextRunAt ≤ untilAt ∧
    (entry.evaluatedAt ≤ untilAt ∨
      entry.evaluatedAt ≤ entry.row.nextRunAt + boundedScheduleStaleGraceMs)

section Steps

variable {schedule : Schedule} {platform : Platform} {before after state : JobsState}
variable {event : JobsEvent} {row : ScheduledJobRow}

theorem withinGrace_of_alive {dispatch : Dispatch} (alive : dispatch.expired = false)
    {entry : Spawned} (own : entry.row = dispatch.row)
    (evaluated : entry.evaluatedAt = dispatch.evaluatedAt) : withinGrace entry := by
  intro untilAt bounded
  rw [own] at bounded
  rw [own, evaluated]
  simp only [Dispatch.expired, scheduleHasExpired, Option.mem_def.mp bounded] at alive
  split at alive
  · contradiction
  · rename_i notAfter
    refine ⟨Int.not_lt.mp notAfter, ?_⟩
    split at alive
    · rename_i early
      exact .inl early
    · rw [decide_eq_false_iff_not] at alive
      exact .inr (sub_le_iff_le_add'.mp (Int.not_lt.mp alive))

/-- Every job of the table after a step is new, or was there before the step. -/
def JobsMove (before : JobsState) (event : JobsEvent) (after : JobsState) : Prop :=
  before.nextJobId ≤ after.nextJobId ∧ ∀ later ∈ after.jobs, later.id = before.nextJobId ∨
    ∃ row ∈ before.jobs, later.id = row.id ∧ JobMoves before event row later

theorem JobsMove.same (jobs : after.jobs = before.jobs)
    (nextJobId : after.nextJobId = before.nextJobId) : JobsMove before event after := by
  refine ⟨nextJobId.ge, ?_⟩
  intro later member
  rw [jobs] at member
  exact .inr ⟨later, member, rfl, .kept rfl rfl rfl⟩

theorem JobsMove.insert (newRow : Nat → ScheduledJobRow) (numbered : ∀ id, (newRow id).id = id)
    (jobs : after.jobs = before.jobs ++ [newRow before.nextJobId])
    (nextJobId : after.nextJobId = before.nextJobId + 1) : JobsMove before event after := by
  refine ⟨by omega, ?_⟩
  intro later member
  rw [jobs, List.mem_append, List.mem_singleton] at member
  rcases member with member | rfl
  · exact .inr ⟨later, member, rfl, .kept rfl rfl rfl⟩
  · exact .inl (numbered _)

theorem JobsMove.update (statement : RowUpdate ScheduledJobRow) (identity : ∀ row, (statement.sets row).id = row.id)
    (sets : ∀ row ∈ before.jobs, statement.selects row = true → JobMoves before event row (statement.sets row))
    (jobs : after.jobs = statement.run before.jobs)
    (nextJobId : after.nextJobId = before.nextJobId) : JobsMove before event after := by
  refine ⟨nextJobId.ge, ?_⟩
  intro later member
  rw [jobs] at member
  obtain ⟨row, rowMember, rfl⟩ := RowUpdate.mem_run.mp member
  refine .inr ⟨row, rowMember, RowUpdate.onRow_column _ identity row, ?_⟩
  rw [RowUpdate.onRow]
  split
  · rename_i selected
    exact sets row rowMember selected
  · exact .kept rfl rfl rfl

theorem LocksHeld.jobsMove (locks : LocksHeld before)
    (stepped : jobsStep schedule platform before event = some after) : JobsMove before event after := by
  cases jobsStep_effect stepped with
  | quiet jobs nextJobId => exact .same jobs nextJobId
  | staged params | created params => exact .insert _ (fun _ => rfl) rfl rfl
  | held | locked => exact .same rfl rfl
  | committed place held found =>
    cases updates : held.existing with
    | none =>
      simp only [commit, updates]
      exact .insert (held.job.row held.externalKey .active held.createdByUser) (fun _ => rfl) rfl rfl
    | some existing =>
      simp only [commit, updates]
      apply JobsMove.update (rewrite existing held.job) (fun _ => rfl)
      · intro row _ _
        exact .revised (Nat.lt_succ_self _)
      · rfl
      · rfl
  | edited statement edits =>
    cases edits with
    | activate owner externalKey id now =>
      apply JobsMove.update (activateScheduledJob owner externalKey id now) (fun _ => rfl)
      · intro row _ _
        exact .revised (Nat.lt_succ_self _)
      · rfl
      · rfl
    | pause owner id paused =>
      apply JobsMove.update (pauseScheduledJob owner id paused) (fun _ => rfl)
      · intro row _ _
        exact .kept rfl rfl rfl
      · rfl
      · rfl
  | deleted owner id =>
    refine ⟨Nat.le_refl _, ?_⟩
    intro later member
    exact .inr ⟨later, (mem_deleteWhere.mp member).1, rfl, .kept rfl rfl rfl⟩
  | expired place dispatch found =>
    apply JobsMove.update (pauseExpired dispatch.row) (fun _ => rfl)
    · intro row _ _
      exact .kept rfl rfl rfl
    · rfl
    · rfl
  | fired _ _ _ _ _ _ _ _ _ _ jobs nextJobId => exact .same jobs nextJobId
  | advanced place localNow now dispatch found nextAt =>
    have locked : dispatch.row ∈ before.lockedRows :=
      List.mem_append_left _ (List.mem_map_of_mem (List.mem_of_getElem? found))
    apply JobsMove.update (advance dispatch.row nextAt now)
    · intro row
      simp only [advance]
      split <;> rfl
    · intro row member selected
      simp only [advance, Bool.and_eq_true, beq_iff_eq] at selected
      have same : row = dispatch.row :=
        RowUpdate.eq_of_column locks.unique member (locks.present _ locked) selected.1
      subst same
      simp only [advance]
      split
      · exact .advanced rfl rfl ⟨dispatch, found, rfl⟩
      · exact .kept rfl rfl rfl
    · rfl
    · rfl

theorem JobsMove.revisions (moves : JobsMove before event after) : RevisionsAdvance before after := by
  refine ⟨moves.1, ?_⟩
  intro later member old
  rcases moves.2 later member with fresh | ⟨row, rowMember, same, moved⟩
  · omega
  · refine ⟨row, rowMember, same.symm, ?_⟩
    cases moved with
    | revised newer => exact ⟨Nat.le_of_lt newer, fun _ => newer⟩
    | kept revision definition | advanced revision definition =>
      exact ⟨revision.ge, fun changed => absurd definition changed⟩

theorem JobsMove.ticks (moves : JobsMove before event after) (locks : LocksHeld before) :
    TicksMove before event after := by
  intro row member later laterMember same changed
  rcases moves.2 later laterMember with fresh | ⟨origin, originMember, sameOrigin, moved⟩
  · have below := locks.bounded row member
    omega
  · have one : row = origin :=
      RowUpdate.eq_of_column locks.unique member originMember (same.symm.trans sameOrigin)
    subst one
    cases moved with
    | revised newer => exact .inl newer
    | kept _ _ tick => exact absurd tick changed
    | advanced _ _ fired => exact .inr fired

theorem RevisionsAdvance.trans {first second third : JobsState}
    (earlier : RevisionsAdvance first second) (later : RevisionsAdvance second third) :
    RevisionsAdvance first third := by
  refine ⟨earlier.1.trans later.1, ?_⟩
  intro last member old
  obtain ⟨middle, middleMember, middleId, middleRevision, middleChange⟩ :=
    later.2 last member (Nat.lt_of_lt_of_le old earlier.1)
  obtain ⟨row, rowMember, rowId, revision, change⟩ :=
    earlier.2 middle middleMember (by omega)
  refine ⟨row, rowMember, rowId.trans middleId, revision.trans middleRevision, ?_⟩
  intro changed
  by_cases same : last.definition = middle.definition
  · have changedBefore : middle.definition ≠ row.definition := by
      rw [← same]
      exact changed
    exact Nat.lt_of_lt_of_le (change changedBefore) middleRevision
  · exact Nat.lt_of_le_of_lt revision (middleChange same)

/-- A dispatch locks only rows that are due. -/
def DispatchesDue (state : JobsState) : Prop :=
  ∀ dispatch ∈ state.dispatches, isDue dispatch.evaluatedAt dispatch.row = true

theorem DispatchesDue.step (due : DispatchesDue before)
    (stepped : jobsStep schedule platform before event = some after) : DispatchesDue after := by
  cases jobsStep_effect stepped with
  | quiet _ _ _ dispatches =>
    intro dispatch member
    exact due dispatch (dispatches.subset member)
  | locked candidate now row found free =>
    intro dispatch member
    rw [List.mem_append, List.mem_singleton] at member
    rcases member with member | rfl
    · exact due dispatch member
    · have selected := List.find?_some found
      simp only [dispatchable, Bool.and_eq_true] at selected
      exact selected.2
  | expired place dispatch found | advanced place _ _ dispatch found =>
    intro other member
    exact due other ((List.eraseIdx_sublist ..).subset member)
  | fired place _ _ _ dispatch found _ _ _ kept =>
    intro other member
    rcases kept with same | released
    · rw [same] at member
      rcases List.mem_or_eq_of_mem_set member with member | rfl
      · exact due other member
      · exact due dispatch (List.mem_of_getElem? found)
    · rw [released] at member
      exact due other ((List.eraseIdx_sublist ..).subset member)
  | committed place held found =>
    intro dispatch member
    apply due dispatch
    simp only [commit] at member
    split at member <;> exact member
  | staged | created | held | edited | deleted => exact due

theorem DispatchesDue.reachable {allowed : Discipline JobsState JobsEvent}
    (reached : (jobsMachine schedule platform).Reachable allowed state) : DispatchesDue state := by
  apply reached.invariant
  · intro state begins dispatch member
    obtain ⟨identities, jobs, nextJobId, rfl, _⟩ := begins
    contradiction
  · intro before event after _ due _ stepped
    exact due.step stepped

theorem fire_entry {dispatch : Dispatch} {localNow now : Instant} {entry : Spawned}
    (member : entry ∈ (before.fire platform dispatch localNow now).spawned) :
    entry ∈ before.spawned ∨ entry.row = dispatch.row ∧ entry.evaluatedAt = dispatch.evaluatedAt ∧
        ∃ run ∈ (before.fire platform dispatch localNow now).scheduler.queue.runs,
          run.id = entry.runId ∧ run.actionInput = firedData platform dispatch.row := by
  cases inserted : insertRun (fireRequest platform dispatch.row localNow)
      before.scheduler.queue.nextId now before.scheduler.queue.runs with
  | none =>
    simp only [JobsState.fire, inserted] at member
    exact .inl member
  | some run =>
    obtain ⟨same, _⟩ := insertRun_some inserted
    simp only [JobsState.fire, inserted, List.mem_append, List.mem_singleton] at member
    rcases member with member | rfl
    · exact .inl member
    · refine .inr ⟨rfl, rfl, run, ?_, rfl, ?_⟩
      · simp [JobsState.fire, SchedulerState.send, inserted]
      · rw [same]
        rfl

theorem LocksHeld.fires (locks : LocksHeld before) (due : DispatchesDue before)
    (stepped : jobsStep schedule platform before event = some after) {entry : Spawned}
    (member : entry ∈ after.spawned) :
    entry ∈ before.spawned ∨ FiresCurrent platform withinGrace before after entry := by
  cases jobsStep_effect stepped with
  | quiet _ _ spawned =>
    rw [spawned] at member
    exact .inl member
  | committed place held found =>
    simp only [commit] at member
    split at member <;> exact .inl member
  | fired place localNow now _ dispatch found _ alive _ _ jobs _ _ spawned scheduler =>
    rw [spawned] at member
    rcases fire_entry member with earlier | ⟨own, evaluated, carried⟩
    · exact .inl earlier
    · have held := List.mem_of_getElem? found
      have ready := due dispatch held
      simp only [isDue, Bool.and_eq_true, beq_iff_eq, decide_eq_true_eq, Bool.not_eq_true'] at ready
      have present : dispatch.row ∈ before.jobs :=
        locks.present _ (List.mem_append_left _ (List.mem_map_of_mem held))
      rw [← scheduler, ← own] at carried
      rw [← own, ← evaluated] at ready
      rw [← own] at present
      exact .inr ⟨present, jobs, carried, ready.1.1, ready.2, ready.1.2, withinGrace_of_alive alive own evaluated⟩
  | staged | created | held | edited | deleted | locked | expired | advanced => exact .inl member

end Steps

/-- Revisions only advance, each run is fired from the current row, in time, and
nothing of a newer revision is overwritten. -/
theorem reschedule_or_fire :
    ∀ (schedule : Schedule) (platform : Platform), Reschedules schedule platform withinGrace := by
  intro schedule platform
  constructor
  · intro before after reached later
    apply Machine.Later.related RevisionsAdvance ?_ ?_ ?_ reached later
    · intro state
      exact ⟨Nat.le_refl _, fun row member _ =>
        ⟨row, member, rfl, Nat.le_refl _, fun changed => absurd rfl changed⟩⟩
    · intro first second third earlier later
      exact earlier.trans later
    · intro before event after reached _ stepped
      exact ((LocksHeld.reachable reached).jobsMove stepped).revisions
  · intro before event after reached stepped
    have locks := LocksHeld.reachable reached
    exact (locks.jobsMove stepped).ticks locks
  · intro before event after reached stepped entry member
    exact (LocksHeld.reachable reached).fires (DispatchesDue.reachable reached) stepped member

/-- A reminder for 00:01 that is valid until then. -/
def boundedReminder : CreateScheduledJobParams :=
  { reminder with untilAt := some 60000 }

def lateFire (entry : Spawned) : Bool :=
  entry.row.untilAt == some 60000 && entry.spawnedAt == 90000

theorem fired_past_until :
    ¬ ∀ (schedule : Schedule) (platform : Platform), Reschedules schedule platform beforeUntil := by
  intro always
  obtain ⟨before, reached, tested⟩ := Machine.exists_of_replay (jobsMachine reminders utcPlatform)
    unrestricted (JobsState.initial ["gateway-a"] [] 1)
    [.createScheduledJob boundedReminder, .locks ⟨1, 1⟩ 90000]
    (fun before => before.spawned.isEmpty &&
      (jobsStep reminders utcPlatform before (.spawns 0 90000 90000)).any
        fun after => after.spawned.any lateFire)
    (jobs_initial _) (by decide +kernel)
  rw [Bool.and_eq_true, List.isEmpty_iff, Option.any_eq_true] at tested
  obtain ⟨nothing, after, stepped, fired⟩ := tested
  obtain ⟨entry, member, late⟩ := List.any_eq_true.mp fired
  simp only [lateFire, Bool.and_eq_true, beq_iff_eq] at late
  rcases (always reminders utcPlatform).fires before _ after reached stepped entry member with
    earlier | current
  · rw [nothing] at earlier
    contradiction
  · have inTime := current.inTime 60000 late.1
    rw [late.2] at inTime
    contradiction

end Lobu.Scheduled
