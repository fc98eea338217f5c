import Lobu.Queue.Claims
import Lobu.Queue.Statement
import Lobu.Scheduled.IsoDate

namespace Lobu.Scheduled

open Lobu.Foundation Lobu.Queue

/-! # The task scheduler

Every pod runs the same registrations over one queue, so the machine is the
queue of the consumers with the handler of the queue `task` made explicit: a
dispatch first seeds the next tick and then runs the handler's body.

`inserted` lists the rows of the queue `task` that were ever inserted, and
`dispatched` the handler bodies that were run, each with the id of its row.  No
function reads them.
-/

/-- An instant stands for the ISO string of `__scheduledTick`, which only a cron
seed sets. -/
structure TaskJobData where
  name : String
  payload : String
  scheduledTick : Option Instant
deriving DecidableEq

structure TaskRegistration where
  name : String
  cron : Option String

structure SpawnOptions where
  idempotencyKey : Option String := none
  runAt : Option Instant := none
  maxAttempts : Option Nat := none
  priority : Option Int := none

def taskQueueName : String := "task"

def cronSeedKey (name : String) (tick : Instant) : String :=
  "cron:" ++ name ++ ":" ++ toISOString tick

def spawnRequest (name payload : String) (options : SpawnOptions) (localNow : Instant) : SendRequest TaskJobData where
  queueName := taskQueueName
  data := { name, payload, scheduledTick := none }
  options := {
    singletonKey := options.idempotencyKey
    delayMs := some ((options.runAt.map fun runAt => max 0 (runAt - localNow)).getD 0)
    retryLimit := options.maxAttempts
    priority := options.priority
    actionKey := some name }

def seedRequest (name : String) (tick localNow : Instant) : SendRequest TaskJobData where
  queueName := taskQueueName
  data := { name, payload := "{}", scheduledTick := some tick }
  options := {
    singletonKey := some (cronSeedKey name tick)
    delayMs := some (max 0 (tick - localNow))
    actionKey := some name }

/-- The registrations, and `nextRunAt` of the cron parser: `none` when it throws. -/
structure Schedule where
  handlers : List TaskRegistration
  nextRunAt : String → Instant → Option Instant

def Schedule.find (schedule : Schedule) (name : String) : Option TaskRegistration :=
  schedule.handlers.find? fun registration => registration.name == name

/-- `bodies` holds the calls of `runHandler` whose dispatch has come to the handler. -/
structure SchedulerState where
  queue : QueueState TaskJobData
  bodies : List Nat
  inserted : List (Nat × TaskJobData)
  dispatched : List (Nat × TaskJobData)

/-- `localNow` is the pod's clock, `now` that of the database.  A send that fails
may have `committed` all the same. -/
inductive SchedulerEvent where
  | queue (event : QueueEvent TaskJobData)
  | spawn (name payload : String) (options : SpawnOptions) (localNow now : Instant)
  | seedAtBoot (name : String) (localNow now : Instant)
  | dispatch (execution : Nat) (localNow now : Instant)
  | dispatchFails (execution : Nat) (localNow now : Instant) (committed : Bool)
  | bodyReturns (execution : Nat)
  | bodyThrows (execution : Nat)
  | cleanup (cleanup : RunsCleanup)

/-- The queue's own events, with `task` the only queue worked on and the handler's
outcome left to the dispatch. -/
def queueEvent : QueueEvent TaskJobData → Bool
  | .enqueue _ _ | .handlerReturns _ | .handlerThrows _ => false
  | .work _ queueName _ => queueName == taskQueueName
  | .start _ | .recoverStaleClaimedRowsOnStartup _ _ | .workReplaces _ _ | .pauseWorker _ _
  | .resumeWorker _ _ | .poll _ _ | .claimOne _ _ _ _ _ | .heartbeatFires _ | .heartbeatClaim _ _
  | .markCompleted _ _ | .markCompletedThrows _ _ | .recordFailure _ _ _ | .recordFailureThrows _
  | .staleSweep _ | .stop _ | .releaseClaims _ | .releaseClaimsThrows _ | .clearWorkers _ => true

namespace SchedulerState

variable (state : SchedulerState)

def initial (identities : List String) : SchedulerState where
  queue := QueueState.initial identities
  bodies := []
  inserted := []
  dispatched := []

def send (request : SendRequest TaskJobData) (now : Instant) : SchedulerState :=
  match insertRun request state.queue.nextId now state.queue.runs with
  | none => state
  | some row => { state with
      queue := { state.queue with
        runs := state.queue.runs ++ [row]
        nextId := state.queue.nextId + 1 }
      inserted := state.inserted ++ [(row.id, request.data)] }

/-- The call whose dispatch is before its handler's body. -/
def dispatching (index : Nat) : Option (Execution TaskJobData) :=
  (state.queue.executions[index]?).filter fun execution =>
    execution.phase == .running && !state.bodies.contains index

end SchedulerState

/-- A dispatch can only fail before its handler for want of a registration or at its seed. -/
def mayFail (schedule : Schedule) (execution : Execution TaskJobData) : Bool :=
  (schedule.find execution.claimed.payload.name).all fun registration => registration.cron.isSome

/-- The tick that a seed is for, when there is one to seed. -/
def nextTick (schedule : Schedule) (registration : TaskRegistration) (start : Instant) : Option Instant :=
  registration.cron.bind fun cron => schedule.nextRunAt cron start

/-- The instant from which a dispatch looks for the next tick. -/
def dispatchFrom (data : TaskJobData) (localNow : Instant) : Instant :=
  data.scheduledTick.getD localNow + 1

/-- The seed that an event executes. -/
def seedTarget (schedule : Schedule) (state : SchedulerState) : SchedulerEvent → Option (String × Instant)
  | .seedAtBoot name localNow _ => do
      let registration ← schedule.find name
      let tick ← nextTick schedule registration localNow
      pure (registration.name, tick)
  | .dispatch index localNow _ | .dispatchFails index localNow _ true => do
      let execution ← state.dispatching index
      let registration ← schedule.find execution.claimed.payload.name
      let tick ← nextTick schedule registration (dispatchFrom execution.claimed.payload localNow)
      pure (registration.name, tick)
  | _ => none

/-- `dispatch` comes to the handler when the task is registered and its next tick,
if it has a cron, was queued. -/
def reachesBody (schedule : Schedule) (execution : Execution TaskJobData) (localNow : Instant) : Bool :=
  match schedule.find execution.claimed.payload.name with
  | none => false
  | some registration =>
    registration.cron.isNone ||
      (nextTick schedule registration (dispatchFrom execution.claimed.payload localNow)).isSome

def seed (state : SchedulerState) (localNow now : Instant) : Option (String × Instant) → SchedulerState
  | some (name, tick) => state.send (seedRequest name tick localNow) now
  | none => state

def schedulerStep (schedule : Schedule) (state : SchedulerState) : SchedulerEvent → Option SchedulerState
  | .queue event =>
    if queueEvent event then
      (consumerStep state.queue event).map fun queue => { state with queue := queue }
    else none
  | .spawn name payload options localNow now =>
    if (schedule.find name).isSome then
      some (state.send (spawnRequest name payload options localNow) now)
    else none
  | .seedAtBoot name localNow now =>
    (seedTarget schedule state (.seedAtBoot name localNow now)).map fun target =>
      seed state localNow now (some target)
  | .dispatch index localNow now =>
    match state.dispatching index with
    | some execution =>
      if reachesBody schedule execution localNow then
        let seeded := seed state localNow now
          (seedTarget schedule state (.dispatch index localNow now))
        some { seeded with
          bodies := seeded.bodies ++ [index]
          dispatched := seeded.dispatched ++
            [(execution.claimed.runId, execution.claimed.payload)] }
      else none
    | none => none
  | .dispatchFails index localNow now committed =>
    match state.dispatching index with
    | some execution =>
      if mayFail schedule execution then
        let seeded := seed state localNow now
          (seedTarget schedule state (.dispatchFails index localNow now committed))
        (consumerStep seeded.queue (.handlerThrows index)).map fun queue =>
          { seeded with queue := queue }
      else none
    | none => none
  | .bodyReturns index =>
    if state.bodies.contains index then
      (consumerStep state.queue (.handlerReturns index)).map fun queue =>
        { state with queue := queue }
    else none
  | .bodyThrows index =>
    if state.bodies.contains index then
      (consumerStep state.queue (.handlerThrows index)).map fun queue =>
        { state with queue := queue }
    else none
  | .cleanup cleanup =>
    some { state with queue := { state.queue with runs := cleanup.run state.queue.runs } }

def scheduling (schedule : Schedule) : Machine SchedulerState SchedulerEvent where
  starts state := ∃ identities, state = SchedulerState.initial identities
  step := schedulerStep schedule

inductive SchedulerEffect (schedule : Schedule) (before : SchedulerState)
    (event : SchedulerEvent) : SchedulerState → Prop where
  | queued (inner : QueueEvent TaskJobData) (next : QueueState TaskJobData)
      (sends : ∀ request now, inner ≠ .enqueue request now)
      (moved : consumerStep before.queue inner = some next) :
      SchedulerEffect schedule before event { before with queue := next }
  | spawned (name payload : String) (options : SpawnOptions) (localNow now : Instant)
      (asked : event = .spawn name payload options localNow now) :
      SchedulerEffect schedule before event
        (before.send (spawnRequest name payload options localNow) now)
  | seeded (localNow now : Instant) :
      SchedulerEffect schedule before event
        (seed before localNow now (seedTarget schedule before event))
  | dispatched (index : Nat) (localNow now : Instant) (execution : Execution TaskJobData)
      (asked : event = .dispatch index localNow now)
      (found : before.dispatching index = some execution)
      (reaches : reachesBody schedule execution localNow = true) (after : SchedulerState)
      (seeded : after = seed before localNow now (seedTarget schedule before event)) :
      SchedulerEffect schedule before event { after with
        bodies := after.bodies ++ [index]
        dispatched := after.dispatched ++
          [(execution.claimed.runId, execution.claimed.payload)] }
  | failed (index : Nat) (localNow now : Instant) (after : SchedulerState)
      (next : QueueState TaskJobData)
      (seeded : after = seed before localNow now (seedTarget schedule before event))
      (moved : consumerStep after.queue (.handlerThrows index) = some next) :
      SchedulerEffect schedule before event { after with queue := next }
  | cleaned (cleanup : RunsCleanup) :
      SchedulerEffect schedule before event
        { before with queue := { before.queue with runs := cleanup.run before.queue.runs } }

theorem schedulerStep_effect {schedule : Schedule} {before after : SchedulerState}
    {event : SchedulerEvent} (stepped : schedulerStep schedule before event = some after) :
    SchedulerEffect schedule before event after := by
  cases event with
  | queue event =>
    simp only [schedulerStep] at stepped
    split at stepped
    · rename_i own
      obtain ⟨next, moved, rfl⟩ := Option.map_eq_some_iff.mp stepped
      apply SchedulerEffect.queued event next _ moved
      rintro request now rfl
      contradiction
    · contradiction
  | spawn name payload options localNow now =>
    simp only [schedulerStep] at stepped
    split at stepped
    · cases stepped
      exact .spawned name payload options localNow now rfl
    · contradiction
  | seedAtBoot name localNow now =>
    obtain ⟨target, found, rfl⟩ := Option.map_eq_some_iff.mp stepped
    rw [← found]
    exact .seeded localNow now
  | dispatch index localNow now =>
    simp only [schedulerStep] at stepped
    split at stepped
    · rename_i execution found
      split at stepped
      · rename_i reaches
        cases stepped
        exact .dispatched index localNow now execution rfl found reaches _ rfl
      · contradiction
    · contradiction
  | dispatchFails index localNow now committed =>
    simp only [schedulerStep] at stepped
    split at stepped
    · split at stepped
      · obtain ⟨next, moved, rfl⟩ := Option.map_eq_some_iff.mp stepped
        exact .failed index localNow now _ next rfl moved
      · contradiction
    · contradiction
  | bodyReturns index | bodyThrows index =>
    simp only [schedulerStep] at stepped
    split at stepped
    · obtain ⟨next, moved, rfl⟩ := Option.map_eq_some_iff.mp stepped
      exact .queued _ next (by simp) moved
    · contradiction
  | cleanup cleanup =>
    cases stepped
    exact .cleaned cleanup

end Lobu.Scheduled
