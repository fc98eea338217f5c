import Lobu.Foundation.Json
import Lobu.Foundation.Text
import Lobu.Scheduled.TaskScheduler

namespace Lobu.Scheduled

open Lobu.Foundation Lobu.Queue

/-! # Scheduled jobs

The definitions of recurring and one-shot jobs, their edits and the ticker that
spawns a task for each due one, over the task scheduler of all pods.

A statement that needs a row or an advisory lock that another transaction holds
waits for it, so its event is disabled until then.  Transactions that do one thing
are one step; a guarded creation reads in one step and writes in another, and a
dispatch locks its row, spawns on another connection and writes back.
-/

inductive JobState where
  | staged
  | active
deriving DecidableEq

/-- A row of `public.scheduled_jobs`. -/
structure ScheduledJobRow where
  id : Nat
  externalKey : Option String
  scheduleRevision : Nat
  state : JobState
  organizationId : String
  actionType : String
  actionArgs : Json
  cron : Option String
  untilAt : Option Instant
  nextRunAt : Instant
  lastFiredAt : Option Instant
  lastFiredRunId : Option Nat
  paused : Bool
  description : String
  createdByUser : Option String
  createdByAgent : Option String
  sourceRunId : Option Int
  sourceEventId : Option Int
  sourceThreadId : Option String

structure CreateScheduledJobParams where
  organizationId : String
  actionType : String
  actionArgs : Json
  description : String
  cron : Option String := none
  untilAt : Option Instant := none
  runAt : Instant
  createdByUser : Option String := none
  createdByAgent : Option String := none
  sourceRunId : Option Int := none
  sourceEventId : Option Int := none
  sourceThreadId : Option String := none

inductive ChangeDetection where
  | trustedCourseWake
  | full
deriving DecidableEq

/-- `createdByUser` is the owner, whom a schedule with an external key must have. -/
structure UpsertScheduledJobParams where
  job : CreateScheduledJobParams
  externalKey : String
  createdByUser : String
  changeDetection : Option ChangeDetection := none
  activeQuota : Option Nat := none

/-- How the runtime writes numbers, and dates inside a template string. -/
structure Platform where
  numberText : Rat → String
  dateText : Instant → String

/-- The defaults of the table for a new row. -/
def CreateScheduledJobParams.row (params : CreateScheduledJobParams) (externalKey : Option String)
    (state : JobState) (createdByUser : Option String) (id : Nat) : ScheduledJobRow where
  id
  externalKey
  scheduleRevision := 1
  state
  organizationId := params.organizationId
  actionType := params.actionType
  actionArgs := params.actionArgs
  cron := params.cron
  untilAt := params.untilAt
  nextRunAt := params.runAt
  lastFiredAt := none
  lastFiredRunId := none
  paused := false
  description := params.description
  createdByUser
  createdByAgent := params.createdByAgent
  sourceRunId := params.sourceRunId
  sourceEventId := params.sourceEventId
  sourceThreadId := params.sourceThreadId

section Changes

variable (platform : Platform)

mutual

def canonicalJson : Json → String
  | .array items => bracketed (canonicalItems items)
  | .object fields =>
    braced ((canonicalFields fields).insertionSort fun first second =>
      sortsBefore first.1 second.1)
  | value => scalarText platform.numberText value

def canonicalItems : List Json → List String
  | [] => []
  | item :: items => canonicalJson item :: canonicalItems items

def canonicalFields : List (String × Json) → List (String × String)
  | [] => []
  | (key, value) :: fields => (key, canonicalJson value) :: canonicalFields fields

end

def asRecord : Json → Option Json
  | .object fields => some (.object fields)
  | _ => none

structure WakeIdentity where
  eventVersion : Option String
  scheduledFor : Option String
  payloadIdentity : String

def trustedWakeIdentity (actionArgs : Json) : WakeIdentity :=
  let wake := (actionArgs.get? "trustedCourseWake").bind asRecord
  let eventRef := (wake.bind (·.get? "calendarEventRef")).bind asRecord
  { eventVersion := (eventRef.bind (·.get? "eventVersion")).bind Json.string?
    scheduledFor := (wake.bind (·.get? "scheduledFor")).bind Json.string?
    payloadIdentity := canonicalJson platform (wake.getD .null) }

def trustedCourseWakeChanged (existing : ScheduledJobRow) (params : UpsertScheduledJobParams) : Bool :=
  let oldWake := trustedWakeIdentity platform existing.actionArgs
  let newWake := trustedWakeIdentity platform params.job.actionArgs
  oldWake.eventVersion != newWake.eventVersion || oldWake.scheduledFor != newWake.scheduledFor ||
    oldWake.payloadIdentity != newWake.payloadIdentity ||
    existing.createdByUser != some params.createdByUser ||
    existing.createdByAgent != params.job.createdByAgent

def fullScheduledJobChanged (existing : ScheduledJobRow) (params : UpsertScheduledJobParams) : Bool :=
  existing.paused || existing.actionType != params.job.actionType ||
    canonicalJson platform existing.actionArgs != canonicalJson platform params.job.actionArgs ||
    existing.cron != params.job.cron || existing.untilAt != params.job.untilAt ||
    existing.nextRunAt != params.job.runAt || existing.description != params.job.description ||
    existing.createdByUser != some params.createdByUser ||
    existing.createdByAgent != params.job.createdByAgent ||
    existing.sourceRunId != params.job.sourceRunId ||
    existing.sourceEventId != params.job.sourceEventId ||
    existing.sourceThreadId != params.job.sourceThreadId

def stagedPayloadMatches (existing : ScheduledJobRow) (params : UpsertScheduledJobParams) : Bool :=
  existing.actionType == params.job.actionType &&
    canonicalJson platform existing.actionArgs == canonicalJson platform params.job.actionArgs &&
    existing.cron == params.job.cron && existing.untilAt == params.job.untilAt &&
    existing.nextRunAt == params.job.runAt && existing.description == params.job.description &&
    existing.createdByAgent == params.job.createdByAgent &&
    existing.sourceRunId == params.job.sourceRunId &&
    existing.sourceEventId == params.job.sourceEventId &&
    existing.sourceThreadId == params.job.sourceThreadId

end Changes

def boundedScheduleStaleGraceMs : Int := 60000

def scheduleHasExpired (nextRunAt : Instant) (untilAt : Option Instant) (now : Instant) : Bool :=
  match untilAt with
  | none => false
  | some untilAt =>
    if untilAt < nextRunAt then true
    else if now ≤ untilAt then false
    else decide (boundedScheduleStaleGraceMs < now - nextRunAt)

structure ScheduledJobCandidate where
  id : Nat
  scheduleRevision : Nat
deriving DecidableEq

/-- The predicate of the ticker's scan. -/
def isDue (now : Instant) (row : ScheduledJobRow) : Bool :=
  row.state == .active && decide (row.nextRunAt ≤ now) && !row.paused

def dispatchable (candidate : ScheduledJobCandidate) (now : Instant) (row : ScheduledJobRow) : Bool :=
  row.id == candidate.id && row.scheduleRevision == candidate.scheduleRevision && isDue now row

def idempotencyKey (platform : Platform) (row : ScheduledJobRow) : String :=
  "scheduled_job:" ++ toString row.id ++ ":r" ++ toString row.scheduleRevision ++ ":" ++
    platform.dateText row.nextRunAt

/-- `{...own, ...fields}`: a field that `own` has as well keeps its place there. -/
def spread (fields : List (String × Json)) : Json → Json
  | .object own =>
    .object (own.map (fun field => (field.1, (fields.lookup field.1).getD field.2)) ++
      fields.filter fun field => (own.lookup field.1).isNone)
  | _ => .object fields

def textOrNull : Option String → Json
  | some text => .string text
  | none => .null

def firedPayload (row : ScheduledJobRow) : Json :=
  spread [("__scheduled_job_id", .string (toString row.id)),
    ("__scheduled_job_external_key", textOrNull row.externalKey),
    ("__scheduled_job_tick", .string (toISOString row.nextRunAt)),
    ("__scheduled_job_revision", .number (.finite row.scheduleRevision)),
    ("__organization_id", .string row.organizationId),
    ("__created_by_user", textOrNull row.createdByUser),
    ("__created_by_agent", textOrNull row.createdByAgent)] row.actionArgs

def fireRequest (platform : Platform) (row : ScheduledJobRow) (localNow : Instant) : SendRequest TaskJobData :=
  spawnRequest row.actionType (stringify platform.numberText (firedPayload row))
    { idempotencyKey := some (idempotencyKey platform row) } localNow

/-- The write-back of a dispatch. -/
def advance (row : ScheduledJobRow) (nextAt : Option Instant) (now : Instant) : RowUpdate ScheduledJobRow where
  selects job := job.id == row.id && job.scheduleRevision == row.scheduleRevision
  sets job :=
    match nextAt.filter fun nextAt => row.untilAt.all fun untilAt => decide (nextAt ≤ untilAt) with
    | some nextAt => { job with lastFiredAt := some now, nextRunAt := nextAt }
    | none => { job with lastFiredAt := some now, paused := true }

def pauseExpired (row : ScheduledJobRow) : RowUpdate ScheduledJobRow where
  selects job := job.id == row.id && job.scheduleRevision == row.scheduleRevision
  sets job := { job with paused := true }

def countsAsActive (organizationId userId : String) (row : ScheduledJobRow) : Bool :=
  row.organizationId == organizationId && row.createdByUser == some userId &&
    row.state == .active && !row.paused

def activeCount (organizationId userId : String) (jobs : List ScheduledJobRow) : Nat :=
  jobs.countP (countsAsActive organizationId userId)

def pauseScheduledJob (organizationId : String) (id : Nat) (paused : Bool) : RowUpdate ScheduledJobRow where
  selects job := job.organizationId == organizationId && job.id == id
  sets job := { job with paused := paused }

/-- `now` is the argument of the call or, without one, that of the database. -/
def activates (organizationId externalKey : String) (id : Nat) (now : Instant) (row : ScheduledJobRow) : Bool :=
  row.organizationId == organizationId && row.externalKey == some externalKey && row.id == id &&
    !row.paused && row.state == .staged && decide (now < row.nextRunAt) &&
    row.untilAt.all fun untilAt => decide (now < untilAt)

def activateScheduledJob (organizationId externalKey : String) (id : Nat) (now : Instant) :
    RowUpdate ScheduledJobRow where
  selects := activates organizationId externalKey id now
  sets job := { job with state := .active, scheduleRevision := job.scheduleRevision + 1 }

def rewrite (existing : ScheduledJobRow) (params : CreateScheduledJobParams) : RowUpdate ScheduledJobRow where
  selects job := job.id == existing.id
  sets job := { job with
    actionType := params.actionType
    actionArgs := params.actionArgs
    cron := params.cron
    untilAt := params.untilAt
    nextRunAt := params.runAt
    description := params.description
    createdByAgent := params.createdByAgent
    sourceRunId := params.sourceRunId
    sourceEventId := params.sourceEventId
    sourceThreadId := params.sourceThreadId
    paused := false
    lastFiredAt := none
    lastFiredRunId := none
    scheduleRevision := job.scheduleRevision + 1 }

/-- `String.prototype.trim` leaves nothing. -/
def blank (text : String) : Bool :=
  text.toList.all isSpace

inductive UpsertPlan where
  | refused
  | unchanged (existing : ScheduledJobRow)
  | conflict
  | quotaExceeded (activeCount : Nat)
  | insert
  | update (existing : ScheduledJobRow)

def ownedByKey (organizationId externalKey createdByUser : String) (row : ScheduledJobRow) : Bool :=
  row.organizationId == organizationId && row.externalKey == some externalKey &&
    row.createdByUser == some createdByUser

/-- A schedule that was over when it was paused, and would be again. -/
def expiredPausedSchedule (existing : ScheduledJobRow) (params : UpsertScheduledJobParams)
    (localNow : Instant) : Bool :=
  existing.paused &&
    (existing.cron.isNone && decide (existing.nextRunAt ≤ localNow) &&
        decide (params.job.runAt ≤ localNow) ||
      existing.cron.isSome && existing.untilAt.any (fun untilAt => decide (untilAt ≤ localNow)) &&
        params.job.untilAt.any fun untilAt => decide (untilAt ≤ localNow))

def scheduledJobChanged (platform : Platform) (existing : ScheduledJobRow)
    (params : UpsertScheduledJobParams) : Bool :=
  match params.changeDetection.getD .trustedCourseWake with
  | .full => fullScheduledJobChanged platform existing params
  | .trustedCourseWake => trustedCourseWakeChanged platform existing params

/-- What `upsertScheduledJobByExternalKeyWithQuota` has decided when it comes to its write. -/
def upsertPlan (platform : Platform) (jobs : List ScheduledJobRow)
    (params : UpsertScheduledJobParams) (localNow : Instant) : UpsertPlan :=
  if blank params.externalKey || params.createdByUser == "" then .refused
  else
    let count := activeCount params.job.organizationId params.createdByUser jobs
    let full := params.activeQuota.any fun quota => decide (quota ≤ count)
    match jobs.find?
      (ownedByKey params.job.organizationId params.externalKey params.createdByUser) with
    | none => if full then .quotaExceeded count else .insert
    | some existing =>
      if existing.state = .staged then
        if stagedPayloadMatches platform existing params then .unchanged existing else .conflict
      else
        let trusted := params.changeDetection.getD .trustedCourseWake = .trustedCourseWake
        if ¬ trusted ∧ expiredPausedSchedule existing params localNow then .unchanged existing
        else if ¬ scheduledJobChanged platform existing params ∨
            trusted ∧ params.job.runAt ≤ localNow then .unchanged existing
        else if existing.paused && full then .quotaExceeded count
        else .update existing

/-- A user who has reached the quota of the call gets no more active jobs by it. -/
def UpsertScheduledJobParams.full (params : UpsertScheduledJobParams) (jobs : List ScheduledJobRow) : Bool :=
  params.activeQuota.any fun quota =>
    decide (quota ≤ activeCount params.job.organizationId params.createdByUser jobs)

section Plans

variable {platform : Platform} {jobs : List ScheduledJobRow} {params : UpsertScheduledJobParams}
variable {localNow : Instant} {existing : ScheduledJobRow}

theorem upsertPlan_insert (planned : upsertPlan platform jobs params localNow = .insert) :
    params.full jobs = false := by
  simp only [upsertPlan] at planned
  split at planned
  · contradiction
  · split at planned
    · split at planned
      · contradiction
      · rename_i room
        exact Bool.not_eq_true _ ▸ room
    · repeat' split at planned
      all_goals contradiction

structure Updates (platform : Platform) (jobs : List ScheduledJobRow)
    (params : UpsertScheduledJobParams) (localNow : Instant) (existing : ScheduledJobRow) :
    Prop where
  found : jobs.find? (ownedByKey params.job.organizationId params.externalKey
    params.createdByUser) = some existing
  active : existing.state ≠ .staged
  changed : scheduledJobChanged platform existing params = true
  room : existing.paused = true → params.full jobs = false

theorem upsertPlan_update (planned : upsertPlan platform jobs params localNow = .update existing) :
    Updates platform jobs params localNow existing := by
  simp only [upsertPlan] at planned
  split at planned
  · contradiction
  · split at planned
    · split at planned <;> contradiction
    · rename_i row found
      split at planned
      · split at planned <;> contradiction
      · rename_i active
        split at planned
        · contradiction
        · split at planned
          · contradiction
          · rename_i changes
            split at planned
            · contradiction
            · rename_i room
              cases planned
              rw [not_or, not_not] at changes
              refine ⟨found, active, changes.1, ?_⟩
              intro paused
              simpa [paused, UpsertScheduledJobParams.full] using room

end Plans

/-- A guarded creation between its count and its write.  It holds the quota lock of
the user, the lock of its external key, and the row that it found. -/
structure PendingWrite where
  job : CreateScheduledJobParams
  externalKey : Option String
  userId : String
  existing : Option ScheduledJobRow

/-- A dispatch that has locked its row. -/
structure Dispatch where
  row : ScheduledJobRow
  evaluatedAt : Instant
  spawned : Bool

/-- A run that the ticker inserted, with the row it was spawned from. -/
structure Spawned where
  runId : Nat
  row : ScheduledJobRow
  evaluatedAt : Instant
  spawnedAt : Instant

/-- No function reads `spawned`. -/
structure JobsState where
  scheduler : SchedulerState
  jobs : List ScheduledJobRow
  nextJobId : Nat
  pending : List PendingWrite
  dispatches : List Dispatch
  spawned : List Spawned

/-- The verdicts on the agent and its release that `createScheduledJobWithGuards` reads
from other tables. -/
structure CreateGuard where
  userId : String
  activeQuota : Nat
  agentOwned : Bool
  releaseAllowed : Bool
deriving DecidableEq

inductive JobsEvent where
  | scheduler (event : SchedulerEvent)
  | createScheduledJob (params : CreateScheduledJobParams)
  | createScheduledJobWithGuards (params : CreateScheduledJobParams) (guard_ : CreateGuard)
  | stageScheduledJob (params : UpsertScheduledJobParams)
  | activateScheduledJob (organizationId externalKey : String) (id : Nat) (now : Instant)
  | upsertScheduledJob (params : UpsertScheduledJobParams) (localNow : Instant)
  | commits (place : Nat)
  | aborts (place : Nat)
  | pauseScheduledJob (organizationId : String) (id : Nat) (paused : Bool)
  | deleteScheduledJob (organizationId : String) (id : Nat)
  | locks (candidate : ScheduledJobCandidate) (now : Instant)
  | expires (place : Nat)
  | spawns (place : Nat) (localNow now : Instant)
  | spawnFails (place : Nat) (localNow now : Instant) (committed : Bool)
  | advances (place : Nat) (localNow now : Instant)
  | crashes (place : Nat)

namespace JobsState

variable (state : JobsState)

def initial (identities : List String) (jobs : List ScheduledJobRow) (nextJobId : Nat) : JobsState where
  scheduler := SchedulerState.initial identities
  jobs
  nextJobId
  pending := []
  dispatches := []
  spawned := []

def locked : List Nat :=
  state.dispatches.map (·.row.id) ++ state.pending.filterMap fun held => held.existing.map (·.id)

def quotaLocked (organizationId userId : String) : Bool :=
  state.pending.any fun held => held.job.organizationId == organizationId && held.userId == userId

def keyLocked (organizationId externalKey : String) : Bool :=
  state.pending.any fun held =>
    held.job.organizationId == organizationId && held.externalKey == some externalKey

/-- No row that the statement touches is locked. -/
def free (selects : ScheduledJobRow → Bool) : Bool :=
  state.jobs.all fun row => !selects row || !state.locked.contains row.id

def update (statement : RowUpdate ScheduledJobRow) : JobsState :=
  { state with jobs := statement.run state.jobs }

def insert (row : Nat → ScheduledJobRow) : JobsState :=
  { state with
    jobs := state.jobs ++ [row state.nextJobId]
    nextJobId := state.nextJobId + 1 }

def hold (held : PendingWrite) : JobsState :=
  { state with pending := state.pending ++ [held] }

def releaseDispatch (place : Nat) : JobsState :=
  { state with dispatches := state.dispatches.eraseIdx place }

/-- `spawn` commits on a connection of its own. -/
def fire (platform : Platform) (dispatch : Dispatch) (localNow now : Instant) : JobsState :=
  let request := fireRequest platform dispatch.row localNow
  let queue := state.scheduler.queue
  { state with
    scheduler := state.scheduler.send request now
    spawned := match insertRun request queue.nextId now queue.runs with
      | some run => state.spawned ++ [{
          runId := run.id
          row := dispatch.row
          evaluatedAt := dispatch.evaluatedAt
          spawnedAt := now }]
      | none => state.spawned }

end JobsState

def PendingWrite.createdByUser (held : PendingWrite) : Option String :=
  match held.externalKey with
  | some _ => some held.userId
  | none => held.job.createdByUser

/-- `scheduled_jobs_attribution_check`. -/
def PendingWrite.attributed (held : PendingWrite) : Bool :=
  held.createdByUser.isSome || held.job.createdByAgent.isSome

/-- The write of a guarded creation. -/
def commit (state : JobsState) (held : PendingWrite) : JobsState :=
  match held.existing with
  | some existing => state.update (rewrite existing held.job)
  | none => state.insert (held.job.row held.externalKey .active held.createdByUser)

def withPending (state : JobsState) (place : Nat) (next : PendingWrite → Option JobsState) : Option JobsState :=
  (state.pending[place]?).bind fun held =>
    (next held).map fun after => { after with pending := state.pending.eraseIdx place }

def withDispatch (state : JobsState) (place : Nat) (next : Dispatch → Option JobsState) : Option JobsState :=
  (state.dispatches[place]?).bind next

/-- An expired row is paused instead of fired. -/
def Dispatch.expired (dispatch : Dispatch) : Bool :=
  scheduleHasExpired dispatch.row.nextRunAt dispatch.row.untilAt dispatch.evaluatedAt

/-- The next tick that the pod's clock gives; `none` when the parser throws. -/
def nextCronTick (schedule : Schedule) (row : ScheduledJobRow) (localNow : Instant) : Option (Option Instant) :=
  match row.cron.filter (· ≠ "") with
  | none => some none
  | some cron => (schedule.nextRunAt cron localNow).map some

def jobsStep (schedule : Schedule) (platform : Platform) (state : JobsState) : JobsEvent → Option JobsState
  | .scheduler event =>
    (schedulerStep schedule state.scheduler event).map fun scheduler =>
      { state with scheduler := scheduler }
  | .createScheduledJob params =>
    if params.createdByUser.all (· == "") && params.createdByAgent.all (· == "") then some state
    else some (state.insert (params.row none .active params.createdByUser))
  | .createScheduledJobWithGuards params guard_ =>
    if guard_.agentOwned && guard_.releaseAllowed then
      if state.quotaLocked params.organizationId guard_.userId then none
      else if guard_.activeQuota ≤ activeCount params.organizationId guard_.userId state.jobs then
        some state
      else some (state.hold {
        job := params, externalKey := none, userId := guard_.userId, existing := none })
    else some state
  | .stageScheduledJob params =>
    if blank params.externalKey || params.createdByUser == "" then some state
    else
      let owned := ownedByKey params.job.organizationId params.externalKey params.createdByUser
      if state.keyLocked params.job.organizationId params.externalKey || !state.free owned then none
      else if state.jobs.any owned then some state
      else some (state.insert
        (params.job.row (some params.externalKey) .staged (some params.createdByUser)))
  | .activateScheduledJob organizationId externalKey id now =>
    let statement := activateScheduledJob organizationId externalKey id now
    if state.free statement.selects then some (state.update statement) else none
  | .upsertScheduledJob params localNow =>
    let owned := ownedByKey params.job.organizationId params.externalKey params.createdByUser
    if state.keyLocked params.job.organizationId params.externalKey ||
        state.quotaLocked params.job.organizationId params.createdByUser ||
        !state.free owned then none
    else
      match upsertPlan platform state.jobs params localNow with
      | .insert => some (state.hold {
          job := params.job, externalKey := some params.externalKey
          userId := params.createdByUser, existing := none })
      | .update existing => some (state.hold {
          job := params.job, externalKey := some params.externalKey
          userId := params.createdByUser, existing := some existing })
      | .refused | .unchanged _ | .conflict | .quotaExceeded _ => some state
  | .commits place => withPending state place fun held =>
    if held.attributed then some (commit state held) else none
  | .aborts place => withPending state place fun _ => some state
  | .pauseScheduledJob organizationId id paused =>
    let statement := pauseScheduledJob organizationId id paused
    if state.free statement.selects then some (state.update statement) else none
  | .deleteScheduledJob organizationId id =>
    let selects := (pauseScheduledJob organizationId id true).selects
    if state.free selects then some { state with jobs := deleteWhere selects state.jobs } else none
  | .locks candidate now =>
    match state.jobs.find? (dispatchable candidate now) with
    | some row =>
      if state.locked.contains row.id then some state
      else some { state with
        dispatches := state.dispatches ++ [{ row, evaluatedAt := now, spawned := false }] }
    | none => some state
  | .expires place => withDispatch state place fun dispatch =>
    if !dispatch.spawned && dispatch.expired then
      some ((state.update (pauseExpired dispatch.row)).releaseDispatch place)
    else none
  | .spawns place localNow now => withDispatch state place fun dispatch =>
    if !dispatch.spawned && !dispatch.expired && (schedule.find dispatch.row.actionType).isSome then
      some { state.fire platform dispatch localNow now with
        dispatches := state.dispatches.set place { dispatch with spawned := true } }
    else none
  -- The error of `spawn` is caught, also when only the answer of its insert was lost.
  | .spawnFails place localNow now committed => withDispatch state place fun dispatch =>
    if !dispatch.spawned && !dispatch.expired then
      if committed then
        if (schedule.find dispatch.row.actionType).isSome then
          some ((state.fire platform dispatch localNow now).releaseDispatch place)
        else none
      else some (state.releaseDispatch place)
    else none
  | .advances place localNow now => withDispatch state place fun dispatch =>
    if dispatch.spawned then
      (nextCronTick schedule dispatch.row localNow).map fun nextAt =>
        (state.update (advance dispatch.row nextAt now)).releaseDispatch place
    else none
  | .crashes place => withDispatch state place fun _ => some (state.releaseDispatch place)

/-- A table of jobs with unique ids, and nothing under way. -/
def jobsMachine (schedule : Schedule) (platform : Platform) : Machine JobsState JobsEvent where
  starts state := ∃ identities jobs nextJobId, state = JobsState.initial identities jobs nextJobId ∧
    (jobs.map ScheduledJobRow.id).Nodup ∧ ∀ row ∈ jobs, row.id < nextJobId
  step := jobsStep schedule platform

/-- The edits that are one statement about one job. -/
inductive JobsEvent.Edits : JobsEvent → RowUpdate ScheduledJobRow → Prop where
  | activate (organizationId externalKey : String) (id : Nat) (now : Instant) :
      Edits (.activateScheduledJob organizationId externalKey id now)
        (Scheduled.activateScheduledJob organizationId externalKey id now)
  | pause (organizationId : String) (id : Nat) (paused : Bool) :
      Edits (.pauseScheduledJob organizationId id paused)
        (Scheduled.pauseScheduledJob organizationId id paused)

/-- The guarded creations that go on to their write. -/
inductive Holds (platform : Platform) (state : JobsState) : JobsEvent → PendingWrite → Prop where
  | create (params : CreateScheduledJobParams) (guard_ : CreateGuard)
      (alone : state.quotaLocked params.organizationId guard_.userId = false)
      (room : activeCount params.organizationId guard_.userId state.jobs < guard_.activeQuota) :
      Holds platform state (.createScheduledJobWithGuards params guard_)
        { job := params, externalKey := none, userId := guard_.userId, existing := none }
  | insert (params : UpsertScheduledJobParams) (localNow : Instant)
      (alone : state.quotaLocked params.job.organizationId params.createdByUser = false)
      (planned : upsertPlan platform state.jobs params localNow = .insert) :
      Holds platform state (.upsertScheduledJob params localNow)
        { job := params.job, externalKey := some params.externalKey
          userId := params.createdByUser, existing := none }
  | update (params : UpsertScheduledJobParams) (localNow : Instant) (existing : ScheduledJobRow)
      (alone : state.quotaLocked params.job.organizationId params.createdByUser = false)
      (free : state.free
        (ownedByKey params.job.organizationId params.externalKey params.createdByUser) = true)
      (planned : upsertPlan platform state.jobs params localNow = .update existing) :
      Holds platform state (.upsertScheduledJob params localNow)
        { job := params.job, externalKey := some params.externalKey
          userId := params.createdByUser, existing := some existing }

inductive JobsEffect (schedule : Schedule) (platform : Platform) (before : JobsState) :
    JobsEvent → JobsState → Prop where
  | quiet {event : JobsEvent} {after : JobsState} (jobs : after.jobs = before.jobs)
      (nextJobId : after.nextJobId = before.nextJobId) (spawned : after.spawned = before.spawned)
      (dispatches : after.dispatches.Sublist before.dispatches)
      (pending : after.pending.Sublist before.pending) :
      JobsEffect schedule platform before event after
  | staged (params : UpsertScheduledJobParams) :
      JobsEffect schedule platform before (.stageScheduledJob params) (before.insert
        (params.job.row (some params.externalKey) .staged (some params.createdByUser)))
  | created (params : CreateScheduledJobParams) :
      JobsEffect schedule platform before (.createScheduledJob params)
        (before.insert (params.row none .active params.createdByUser))
  | held {event : JobsEvent} (held : PendingWrite) (holds : Holds platform before event held) :
      JobsEffect schedule platform before event (before.hold held)
  | committed (place : Nat) (held : PendingWrite) (found : before.pending[place]? = some held) :
      JobsEffect schedule platform before (.commits place)
        { commit before held with pending := before.pending.eraseIdx place }
  | edited {event : JobsEvent} (statement : RowUpdate ScheduledJobRow)
      (edits : event.Edits statement) (free : before.free statement.selects = true) :
      JobsEffect schedule platform before event (before.update statement)
  | deleted (organizationId : String) (id : Nat)
      (free : before.free (pauseScheduledJob organizationId id true).selects = true) :
      JobsEffect schedule platform before (.deleteScheduledJob organizationId id) { before with
        jobs := deleteWhere (pauseScheduledJob organizationId id true).selects before.jobs }
  | locked (candidate : ScheduledJobCandidate) (now : Instant) (row : ScheduledJobRow)
      (found : before.jobs.find? (dispatchable candidate now) = some row)
      (free : row.id ∉ before.locked) :
      JobsEffect schedule platform before (.locks candidate now) { before with
        dispatches := before.dispatches ++ [{ row, evaluatedAt := now, spawned := false }] }
  | expired (place : Nat) (dispatch : Dispatch) (found : before.dispatches[place]? = some dispatch) :
      JobsEffect schedule platform before (.expires place)
        ((before.update (pauseExpired dispatch.row)).releaseDispatch place)
  | fired {event : JobsEvent} {after : JobsState} (place : Nat) (localNow now : Instant)
      (asked : event = .spawns place localNow now ∨ event = .spawnFails place localNow now true)
      (dispatch : Dispatch) (found : before.dispatches[place]? = some dispatch)
      (fresh : dispatch.spawned = false) (alive : dispatch.expired = false)
      (known : (schedule.find dispatch.row.actionType).isSome)
      (kept : after.dispatches = before.dispatches.set place { dispatch with spawned := true } ∨
        after.dispatches = before.dispatches.eraseIdx place)
      (stillJobs : after.jobs = before.jobs) (nextJobId : after.nextJobId = before.nextJobId)
      (pending : after.pending = before.pending)
      (spawned : after.spawned = (before.fire platform dispatch localNow now).spawned)
      (scheduler : after.scheduler = (before.fire platform dispatch localNow now).scheduler) :
      JobsEffect schedule platform before event after
  | advanced (place : Nat) (localNow now : Instant) (dispatch : Dispatch)
      (found : before.dispatches[place]? = some dispatch) (nextAt : Option Instant) :
      JobsEffect schedule platform before (.advances place localNow now)
        ((before.update (advance dispatch.row nextAt now)).releaseDispatch place)

section Effects

variable {schedule : Schedule} {platform : Platform} {before after : JobsState}
variable {event : JobsEvent}

theorem JobsEffect.nothing : JobsEffect schedule platform before event before :=
  .quiet rfl rfl rfl (List.Sublist.refl _) (List.Sublist.refl _)

theorem JobsEffect.released (place : Nat) :
    JobsEffect schedule platform before event (before.releaseDispatch place) :=
  .quiet rfl rfl rfl (List.eraseIdx_sublist ..) (List.Sublist.refl _)

theorem withPending_some {place : Nat} {next : PendingWrite → Option JobsState}
    (stepped : withPending before place next = some after) :
    ∃ held between, before.pending[place]? = some held ∧ next held = some between ∧
      after = { between with pending := before.pending.eraseIdx place } := by
  obtain ⟨held, found, moved⟩ := Option.bind_eq_some_iff.mp stepped
  obtain ⟨between, written, same⟩ := Option.map_eq_some_iff.mp moved
  exact ⟨held, between, found, written, same.symm⟩

theorem withDispatch_some {place : Nat} {next : Dispatch → Option JobsState}
    (stepped : withDispatch before place next = some after) :
    ∃ dispatch, before.dispatches[place]? = some dispatch ∧ next dispatch = some after :=
  Option.bind_eq_some_iff.mp stepped

theorem jobsStep_effect (stepped : jobsStep schedule platform before event = some after) :
    JobsEffect schedule platform before event after := by
  cases event with
  | scheduler event =>
    obtain ⟨next, _, rfl⟩ := Option.map_eq_some_iff.mp stepped
    exact .quiet rfl rfl rfl (List.Sublist.refl _) (List.Sublist.refl _)
  | createScheduledJob params =>
    simp only [jobsStep] at stepped
    split at stepped
    · cases stepped
      exact .nothing
    · cases stepped
      exact .created params
  | createScheduledJobWithGuards params guard_ =>
    simp only [jobsStep] at stepped
    split at stepped
    · split at stepped
      · contradiction
      · rename_i alone
        split at stepped
        · cases stepped
          exact .nothing
        · rename_i room
          cases stepped
          exact .held _ (.create params guard_ (by simpa using alone) (by omega))
    · cases stepped
      exact .nothing
  | stageScheduledJob params =>
    simp only [jobsStep] at stepped
    split at stepped
    · cases stepped
      exact .nothing
    · split at stepped
      · contradiction
      · split at stepped
        · cases stepped
          exact .nothing
        · cases stepped
          exact .staged params
  | activateScheduledJob organizationId externalKey id now =>
    simp only [jobsStep] at stepped
    split at stepped
    · rename_i free
      cases stepped
      exact .edited _ (.activate organizationId externalKey id now) free
    · contradiction
  | upsertScheduledJob params localNow =>
    simp only [jobsStep] at stepped
    split at stepped
    · contradiction
    · rename_i available
      simp only [Bool.or_eq_true, Bool.not_eq_true', not_or, Bool.not_eq_true, Bool.not_eq_false] at available
      obtain ⟨⟨_, alone⟩, free⟩ := available
      split at stepped
      · rename_i planned
        cases stepped
        exact .held _ (.insert params localNow alone planned)
      · rename_i existing planned
        cases stepped
        exact .held _ (.update params localNow existing alone free planned)
      all_goals
        cases stepped
        exact .nothing
  | commits place =>
    obtain ⟨held, between, found, written, rfl⟩ := withPending_some stepped
    split at written
    · cases written
      exact .committed place held found
    · contradiction
  | aborts place =>
    obtain ⟨held, between, found, written, rfl⟩ := withPending_some stepped
    cases written
    exact .quiet rfl rfl rfl (List.Sublist.refl _) (List.eraseIdx_sublist ..)
  | pauseScheduledJob organizationId id paused =>
    simp only [jobsStep] at stepped
    split at stepped
    · rename_i free
      cases stepped
      exact .edited _ (.pause organizationId id paused) free
    · contradiction
  | deleteScheduledJob organizationId id =>
    simp only [jobsStep] at stepped
    split at stepped
    · rename_i free
      cases stepped
      exact .deleted organizationId id free
    · contradiction
  | locks candidate now =>
    simp only [jobsStep] at stepped
    split at stepped
    · rename_i row found
      split at stepped
      · cases stepped
        exact .nothing
      · rename_i free
        cases stepped
        exact .locked candidate now row found (by simpa using free)
    · cases stepped
      exact .nothing
  | expires place =>
    obtain ⟨dispatch, found, moved⟩ := withDispatch_some stepped
    split at moved
    · cases moved
      exact .expired place dispatch found
    · contradiction
  | spawns place localNow now =>
    obtain ⟨dispatch, found, moved⟩ := withDispatch_some stepped
    split at moved
    · rename_i ready
      simp only [Bool.and_eq_true, Bool.not_eq_true'] at ready
      cases moved
      exact .fired place localNow now (.inl rfl) dispatch found ready.1.1 ready.1.2 ready.2
        (.inl rfl) rfl rfl rfl rfl rfl
    · contradiction
  | spawnFails place localNow now committed =>
    obtain ⟨dispatch, found, moved⟩ := withDispatch_some stepped
    split at moved
    · rename_i ready
      simp only [Bool.and_eq_true, Bool.not_eq_true'] at ready
      split at moved
      · rename_i inserted
        split at moved
        · rename_i known
          cases moved
          subst inserted
          exact .fired place localNow now (.inr rfl) dispatch found ready.1 ready.2 known
            (.inr rfl) rfl rfl rfl rfl rfl
        · contradiction
      · cases moved
        exact .released place
    · contradiction
  | advances place localNow now =>
    obtain ⟨dispatch, found, moved⟩ := withDispatch_some stepped
    split at moved
    · obtain ⟨nextAt, _, rfl⟩ := Option.map_eq_some_iff.mp moved
      exact .advanced place localNow now dispatch found nextAt
    · contradiction
  | crashes place =>
    obtain ⟨dispatch, found, moved⟩ := withDispatch_some stepped
    cases moved
    exact .released place

end Effects

end Lobu.Scheduled
