import Lobu.Foundation.Machine
import Lobu.Queue.Run

namespace Lobu.Queue

open Lobu.Foundation

/-! # Consumers of the queue

Any number of `RunsQueue` instances, in one or several processes, over one
`runs` table.  Each `UPDATE` is one statement outside any transaction, so it is
one step; everything a process does between two statements is a step of its own.
A process that crashes simply takes no further step.

`claims` counts how often each row has been claimed, and `failures` how often a
handler's failure has been recorded on it.  No function reads the two: they say
which claim of a row a handler is for, and what its attempts should amount to.
-/

variable {P : Type}

def defaultWorkerConcurrency : Nat := 1

/-- One poll loop.  `registered` holds while it is the entry of its queue in the map
of workers, `claiming` while its claim statement is under way. -/
structure QueueWorker where
  queueName : String
  runType : RunType
  concurrency : Nat
  paused : Bool
  stopped : Bool
  registered : Bool
  active : Nat
  claiming : Bool

/-- A call of `work` that waits for the lease of the loop it replaces. -/
structure Registration where
  queueName : String
  startPaused : Bool
  existing : Nat

/-- One `RunsQueue`.  `workers` keeps the loops that the map has lost.  The calls of
`start` in `recovering` have not run their statement yet, no more than the calls of
`stop` in `draining`; those in `clearing` have still to clear the map. -/
structure Consumer where
  claimedBy : String
  isConnected : Bool
  shuttingDown : Bool
  recovering : Nat
  draining : Nat
  clearing : Nat
  registrations : List Registration
  workers : List QueueWorker

def Consumer.new (claimedBy : String) : Consumer where
  claimedBy
  isConnected := false
  shuttingDown := false
  recovering := 0
  draining := 0
  clearing := 0
  registrations := []
  workers := []

structure Claimed (P : Type) where
  runId : Nat
  payload : P
  attempts : Nat
  maxAttempts : Nat
  retryDelaySeconds : Option Int

/-- Where `runHandler` stands: inside the handler, before the statement that
records its success, before the one that records its failure, or done. -/
inductive HandlerPhase where
  | running
  | completing
  | failing
  | settled
deriving DecidableEq

/-- One call of `runHandler`.  `heartbeats` counts the heartbeat statements that
have been issued and have not yet reached the table. -/
structure Execution (P : Type) where
  consumer : Nat
  worker : Nat
  claimedBy : String
  claimed : Claimed P
  claimNumber : Nat
  phase : HandlerPhase
  heartbeats : Nat

namespace Execution

/-- The statement that ends `runHandler` has not been executed yet. -/
def unsettled (execution : Execution P) : Prop :=
  execution.phase ≠ .settled

/-- Some statement of this call may still reach the table. -/
def mayWrite (execution : Execution P) : Prop :=
  execution.unsettled ∨ 0 < execution.heartbeats

instance : DecidablePred (unsettled (P := P)) := fun execution =>
  inferInstanceAs (Decidable (execution.phase ≠ .settled))

instance : DecidablePred (mayWrite (P := P)) := fun execution =>
  inferInstanceAs (Decidable (execution.unsettled ∨ 0 < execution.heartbeats))

def nextAttempt (execution : Execution P) : Nat :=
  execution.claimed.attempts + 1

def failureStatement (execution : Execution P) (message : String) (now : Instant) : RowUpdate (Run P) :=
  if execution.claimed.maxAttempts ≤ execution.nextAttempt then
    markFailed execution.claimedBy execution.claimed.runId message now
  else
    scheduleRetry execution.claimedBy execution.claimed.runId execution.nextAttempt
      execution.claimed.retryDelaySeconds now

end Execution

structure QueueState (P : Type) where
  runs : List (Run P)
  nextId : Nat
  consumers : List Consumer
  executions : List (Execution P)
  claims : Nat → Nat
  failures : Nat → Nat

inductive QueueEvent (P : Type) where
  | enqueue (request : SendRequest P) (now : Instant)
  | start (consumer : Nat)
  | recoverStaleClaimedRowsOnStartup (consumer : Nat) (now : Instant)
  | work (consumer : Nat) (queueName : String) (startPaused : Bool)
  | workReplaces (consumer registration : Nat)
  | pauseWorker (consumer : Nat) (queueName : String)
  | resumeWorker (consumer : Nat) (queueName : String)
  | poll (consumer worker : Nat)
  | claimOne (consumer worker : Nat) (now : Instant) (locked : List Nat) (answered : Bool)
  | heartbeatFires (execution : Nat)
  | heartbeatClaim (execution : Nat) (now : Instant)
  | handlerReturns (execution : Nat)
  | handlerThrows (execution : Nat)
  | markCompleted (execution : Nat) (now : Instant)
  | markCompletedThrows (execution : Nat) (committed : Option Instant)
  | recordFailure (execution : Nat) (message : String) (now : Instant)
  | recordFailureThrows (execution : Nat)
  | staleSweep (now : Instant)
  | stop (consumer : Nat)
  | releaseClaims (consumer : Nat)
  | releaseClaimsThrows (consumer : Nat)
  | clearWorkers (consumer : Nat)

namespace QueueState

variable (state : QueueState P)

def update (statement : RowUpdate (Run P)) : QueueState P :=
  { state with runs := statement.run state.runs }

def setConsumer (index : Nat) (consumer : Consumer) : QueueState P :=
  { state with consumers := state.consumers.set index consumer }

def setExecution (index : Nat) (execution : Execution P) : QueueState P :=
  { state with executions := state.executions.set index execution }

def failuresAfter (runId : Nat) (statement : RowUpdate (Run P)) : Nat → Nat := fun id =>
  if id = runId ∧ state.runs.any statement.selects = true then state.failures id + 1
  else state.failures id

end QueueState

def QueueWorker.registeredFor (queueName : String) (worker : QueueWorker) : Bool :=
  worker.registered && worker.queueName == queueName

namespace Consumer

variable (consumer : Consumer)

def mapRegistered (queueName : String) (change : QueueWorker → QueueWorker) : Consumer :=
  { consumer with workers := consumer.workers.map fun worker =>
      if worker.registeredFor queueName then change worker else worker }

/-- The new loop takes the place of its queue in the map. -/
def register (queueName : String) (startPaused : Bool) : Consumer :=
  let others := consumer.mapRegistered queueName fun worker => { worker with registered := false }
  { others with workers := others.workers ++ [{
      queueName
      runType := classifyQueue queueName
      concurrency := defaultWorkerConcurrency
      paused := startPaused
      stopped := false
      registered := true
      active := 0
      claiming := false }] }

/-- `work` up to its first `await`. -/
def work (queueName : String) (startPaused : Bool) : Consumer :=
  match consumer.workers.findIdx? (QueueWorker.registeredFor queueName) with
  | none => consumer.register queueName startPaused
  | some existing => { consumer with
      registrations := consumer.registrations ++ [{ queueName, startPaused, existing }] }

/-- The rest of a `work` that replaces a loop.  It stops the loop it has found at its
start, also when another call has taken that one's place since. -/
def replace (registration : Registration) : Consumer :=
  let stopped := { consumer with
    workers := consumer.workers.modify registration.existing fun worker =>
      { worker with stopped := true } }
  stopped.register registration.queueName registration.startPaused

def stop : Consumer :=
  { consumer with
    isConnected := false
    shuttingDown := true
    draining := consumer.draining + 1
    workers := consumer.workers.map fun worker =>
      if worker.registered then { worker with stopped := true } else worker }

end Consumer

/-- The guards at the head of the poll loop. -/
def QueueWorker.polls (worker : QueueWorker) : Bool :=
  !worker.stopped && !worker.paused && decide (worker.active < worker.concurrency) &&
    !worker.claiming

def Consumer.setWorker (consumer : Consumer) (index : Nat) (worker : QueueWorker) : Consumer :=
  { consumer with workers := consumer.workers.set index worker }

section

variable (state : QueueState P)
include state

/-- `claimOne` and, when it found a row, the start of `runHandler`.  When only the
answer was lost the row is claimed all the same, and its call is over at once. -/
def claimStep (consumerIndex workerIndex : Nat) (consumer : Consumer)
    (worker : QueueWorker) (now : Instant) (locked : List Nat) (answered : Bool) : QueueState P :=
  match nextRun worker.runType worker.queueName now locked state.runs with
  | none =>
    state.setConsumer consumerIndex
      (consumer.setWorker workerIndex { worker with claiming := false })
  | some row =>
    { runs := (claimRun consumer.claimedBy row.id now).run state.runs
      nextId := state.nextId
      consumers := state.consumers.set consumerIndex
        (consumer.setWorker workerIndex
          { worker with
            claiming := false
            active := if answered then worker.active + 1 else worker.active })
      executions := state.executions ++ [{
        consumer := consumerIndex
        worker := workerIndex
        claimedBy := consumer.claimedBy
        claimed := {
          runId := row.id
          payload := row.actionInput
          attempts := row.attempts
          maxAttempts := row.maxAttempts
          retryDelaySeconds := row.retryDelaySeconds }
        claimNumber := state.claims row.id + 1
        phase := if answered then .running else .settled
        heartbeats := 0 }]
      claims := fun id => if id = row.id then state.claims id + 1 else state.claims id
      failures := state.failures }

/-- `.finally(() => { worker.active -= 1 })`. -/
def deactivate (execution : Execution P) : List Consumer :=
  state.consumers.modify execution.consumer fun consumer =>
    { consumer with workers := consumer.workers.modify execution.worker fun worker =>
        { worker with active := worker.active - 1 } }

def settle (index : Nat) (execution : Execution P) : QueueState P :=
  { state with
    consumers := deactivate state execution
    executions := state.executions.set index { execution with phase := .settled } }

def fromPhase (index : Nat) (phase : HandlerPhase) (next : Execution P → QueueState P) : Option (QueueState P) :=
  match state.executions[index]? with
  | some execution => if execution.phase = phase then some (next execution) else none
  | none => none

def withConsumer (index : Nat) (next : Consumer → Option (QueueState P)) : Option (QueueState P) :=
  (state.consumers[index]?).bind next

def withWorker (consumer worker : Nat)
    (next : Consumer → QueueWorker → Option (QueueState P)) : Option (QueueState P) :=
  withConsumer state consumer fun held => (held.workers[worker]?).bind (next held)

def consumerStep : QueueEvent P → Option (QueueState P)
  | .enqueue request now =>
    match insertRun request state.nextId now state.runs with
    | none => some state
    | some row => some { state with runs := state.runs ++ [row], nextId := state.nextId + 1 }
  | .start index =>
    withConsumer state index fun consumer =>
      if consumer.isConnected then none
      else some (state.setConsumer index { consumer with
        isConnected := true
        shuttingDown := false
        recovering := consumer.recovering + 1 })
  | .recoverStaleClaimedRowsOnStartup index now =>
    withConsumer state index fun consumer =>
      if 0 < consumer.recovering then
        some ((state.update (recoverStaleClaimedRowsOnStartup now)).setConsumer index
          { consumer with recovering := consumer.recovering - 1 })
      else none
  | .work index queueName startPaused =>
    withConsumer state index fun consumer =>
      if consumer.isConnected && !consumer.shuttingDown then
        some (state.setConsumer index (consumer.work queueName startPaused))
      else none
  | .workReplaces index place =>
    withConsumer state index fun consumer =>
      (consumer.registrations[place]?).map fun registration =>
        state.setConsumer index { consumer.replace registration with
          registrations := consumer.registrations.eraseIdx place }
  | .pauseWorker index queueName =>
    withConsumer state index fun consumer =>
      some (state.setConsumer index
        (consumer.mapRegistered queueName fun worker => { worker with paused := true }))
  | .resumeWorker index queueName =>
    withConsumer state index fun consumer =>
      some (state.setConsumer index
        (consumer.mapRegistered queueName fun worker => { worker with paused := false }))
  | .poll consumerIndex workerIndex =>
    withWorker state consumerIndex workerIndex fun consumer worker =>
      if worker.polls then
        some (state.setConsumer consumerIndex
          (consumer.setWorker workerIndex { worker with claiming := true }))
      else none
  | .claimOne consumerIndex workerIndex now locked answered =>
    withWorker state consumerIndex workerIndex fun consumer worker =>
      if worker.claiming then
        some (claimStep state consumerIndex workerIndex consumer worker now locked answered)
      else none
  | .heartbeatFires index =>
    match state.executions[index]? with
    | some execution =>
      if execution.phase ≠ .settled then
        some (state.setExecution index
          { execution with heartbeats := execution.heartbeats + 1 })
      else none
    | none => none
  | .heartbeatClaim index now =>
    match state.executions[index]? with
    | some execution =>
      if 0 < execution.heartbeats then
        some ((state.update
          (heartbeatClaim execution.claimedBy execution.claimed.runId now)).setExecution index
            { execution with heartbeats := execution.heartbeats - 1 })
      else none
    | none => none
  | .handlerReturns index =>
    fromPhase state index .running fun execution =>
      state.setExecution index { execution with phase := .completing }
  | .handlerThrows index =>
    fromPhase state index .running fun execution =>
      state.setExecution index { execution with phase := .failing }
  | .markCompleted index now =>
    fromPhase state index .completing fun execution =>
      settle (state.update (markCompleted execution.claimedBy execution.claimed.runId now))
        index execution
  -- `markCompleted` is inside the `try`: its own error is handled like the handler's, also
  -- when only the answer was lost and the statement had been executed.
  | .markCompletedThrows index committed =>
    fromPhase state index .completing fun execution =>
      let written := match committed with
        | some now => state.update (markCompleted execution.claimedBy execution.claimed.runId now)
        | none => state
      written.setExecution index { execution with phase := .failing }
  | .recordFailure index message now =>
    fromPhase state index .failing fun execution =>
      let statement := execution.failureStatement message now
      settle { state.update statement with
        failures := state.failuresAfter execution.claimed.runId statement } index execution
  | .recordFailureThrows index =>
    fromPhase state index .failing fun execution => settle state index execution
  | .staleSweep now => some (state.update (staleSweep now))
  | .stop index =>
    withConsumer state index fun consumer => some (state.setConsumer index consumer.stop)
  -- The drain ends when nothing is in flight or after a time limit, so this may come early.
  | .releaseClaims index =>
    withConsumer state index fun consumer =>
      if 0 < consumer.draining then
        some ((state.update (releaseClaims consumer.claimedBy)).setConsumer index
          { consumer with draining := consumer.draining - 1, clearing := consumer.clearing + 1 })
      else none
  | .releaseClaimsThrows index =>
    withConsumer state index fun consumer =>
      if 0 < consumer.draining then
        some (state.setConsumer index
          { consumer with draining := consumer.draining - 1, clearing := consumer.clearing + 1 })
      else none
  | .clearWorkers index =>
    withConsumer state index fun consumer =>
      if 0 < consumer.clearing then
        some (state.setConsumer index { consumer with
          clearing := consumer.clearing - 1
          workers := consumer.workers.map fun worker => { worker with registered := false } })
      else none

end

/-- The queue from an empty table, with one consumer for each identity. -/
def QueueState.initial (identities : List String) : QueueState P where
  runs := []
  nextId := 1
  consumers := identities.map Consumer.new
  executions := []
  claims := fun _ => 0
  failures := fun _ => 0

def queue : Machine (QueueState P) (QueueEvent P) where
  starts state := ∃ identities, state = QueueState.initial identities
  step := consumerStep

/-! ## What a step can do

Every event has one of six effects on rows, claims and calls.  The results below
this one split on the effect and never unfold the step.
-/

/-- `after` is a later state of the same call, with no more left to write. -/
structure Execution.Advances (before after : Execution P) : Prop where
  claimedBy : after.claimedBy = before.claimedBy
  claimed : after.claimed = before.claimed
  claimNumber : after.claimNumber = before.claimNumber
  unsettled : after.unsettled → before.unsettled
  mayWrite : after.mayWrite → before.mayWrite

/-- The statements of a call; the flag tells those that record a failure. -/
inductive Execution.Writes (execution : Execution P) : Bool → RowUpdate (Run P) → Prop where
  | heartbeat (now : Instant) (issued : 0 < execution.heartbeats) :
      execution.Writes false (heartbeatClaim execution.claimedBy execution.claimed.runId now)
  | completed (now : Instant) (reached : execution.phase = .completing) :
      execution.Writes false (markCompleted execution.claimedBy execution.claimed.runId now)
  | failed (message : String) (now : Instant) (reached : execution.phase = .failing) :
      execution.Writes true (execution.failureStatement message now)

inductive Releases : RowUpdate (Run P) → Prop where
  | swept (now : Instant) : Releases (staleSweep now)
  | recovered (now : Instant) : Releases (recoverStaleClaimedRowsOnStartup now)
  | stopped (claimedBy : String) : Releases (releaseClaims claimedBy)

def claimTarget (state : QueueState P) : QueueEvent P → Option (String × Run P)
  | .claimOne consumerIndex workerIndex now locked _ => do
      let consumer ← state.consumers[consumerIndex]?
      let worker ← consumer.workers[workerIndex]?
      let row ← nextRun worker.runType worker.queueName now locked state.runs
      pure (consumer.claimedBy, row)
  | _ => none

/-- The statement of a handler that an event executes, with the call it is from. -/
def handlerWrite (state : QueueState P) : QueueEvent P → Option (Execution P × RowUpdate (Run P))
  | .heartbeatClaim index now =>
    state.executions[index]?.map fun execution =>
      (execution, heartbeatClaim execution.claimedBy execution.claimed.runId now)
  | .markCompleted index now | .markCompletedThrows index (some now) =>
    state.executions[index]?.map fun execution =>
      (execution, markCompleted execution.claimedBy execution.claimed.runId now)
  | .recordFailure index message now =>
    state.executions[index]?.map fun execution =>
      (execution, execution.failureStatement message now)
  | _ => none

def Execution.StartedFor (execution : Execution P) (identity : String) (row : Run P) (claimNumber : Nat) : Prop :=
  execution.claimedBy = identity ∧ execution.claimed.runId = row.id ∧
    execution.claimed.payload = row.actionInput ∧ execution.claimed.attempts = row.attempts ∧
    execution.claimed.maxAttempts = row.maxAttempts ∧ execution.claimNumber = claimNumber

inductive Effect (before : QueueState P) (event : QueueEvent P) (after : QueueState P) : Prop where
  | quiet (runs : after.runs = before.runs) (nextId : after.nextId = before.nextId)
      (executions : after.executions = before.executions) (claims : after.claims = before.claims)
      (failures : after.failures = before.failures)
  | inserted (request : SendRequest P) (now : Instant) (asked : event = .enqueue request now)
      (runs : after.runs = before.runs ++ [request.row before.nextId now])
      (nextId : after.nextId = before.nextId + 1)
      (executions : after.executions = before.executions) (claims : after.claims = before.claims)
      (failures : after.failures = before.failures)
  | released (statement : RowUpdate (Run P)) (releases : Releases statement)
      (runs : after.runs = statement.run before.runs) (nextId : after.nextId = before.nextId)
      (executions : after.executions = before.executions) (claims : after.claims = before.claims)
      (failures : after.failures = before.failures)
  | claimed (identity : String) (row : Run P) (now : Instant) (execution : Execution P)
      (target : claimTarget before event = some (identity, row)) (pending : row.status = .pending)
      (member : row ∈ before.runs)
      (started : execution.StartedFor identity row (after.claims row.id))
      (runs : after.runs = (claimRun identity row.id now).run before.runs)
      (nextId : after.nextId = before.nextId)
      (executions : after.executions = before.executions ++ [execution])
      (counted : after.claims row.id = before.claims row.id + 1)
      (others : ∀ id, id ≠ row.id → after.claims id = before.claims id)
      (failures : after.failures = before.failures)
  | progressed (index : Nat) (execution next : Execution P)
      (found : before.executions[index]? = some execution) (advances : execution.Advances next)
      (runs : after.runs = before.runs) (nextId : after.nextId = before.nextId)
      (executions : after.executions = before.executions.set index next)
      (claims : after.claims = before.claims) (failures : after.failures = before.failures)
  | wrote (index : Nat) (execution next : Execution P) (records : Bool)
      (statement : RowUpdate (Run P)) (found : before.executions[index]? = some execution)
      (advances : execution.Advances next) (writes : execution.Writes records statement)
      (recorded : handlerWrite before event = some (execution, statement))
      (runs : after.runs = statement.run before.runs) (nextId : after.nextId = before.nextId)
      (executions : after.executions = before.executions.set index next)
      (claims : after.claims = before.claims)
      (failures : after.failures = if records then
        before.failuresAfter execution.claimed.runId statement else before.failures)

section Effects

variable {before after : QueueState P} {event : QueueEvent P} {execution : Execution P}

theorem Execution.Advances.settled (unsettled : execution.unsettled) :
    execution.Advances { execution with phase := .settled } where
  claimedBy := rfl
  claimed := rfl
  claimNumber := rfl
  unsettled _ := unsettled
  mayWrite _ := .inl unsettled

theorem Execution.Advances.ofUnsettled (unsettled : execution.unsettled) (phase : HandlerPhase)
    (heartbeats : Nat) : execution.Advances { execution with phase := phase, heartbeats := heartbeats } where
  claimedBy := rfl
  claimed := rfl
  claimNumber := rfl
  unsettled _ := unsettled
  mayWrite _ := .inl unsettled

theorem Execution.Advances.heartbeatDone (issued : 0 < execution.heartbeats) :
    execution.Advances { execution with heartbeats := execution.heartbeats - 1 } where
  claimedBy := rfl
  claimed := rfl
  claimNumber := rfl
  unsettled unsettled := unsettled
  mayWrite _ := .inr issued

theorem Effect.setConsumer (index : Nat) (consumer : Consumer) :
    Effect before event (before.setConsumer index consumer) :=
  .quiet rfl rfl rfl rfl rfl

theorem Effect.release {statement : RowUpdate (Run P)} (releases : Releases statement)
    (index : Nat) (consumer : Consumer) :
    Effect before event ((before.update statement).setConsumer index consumer) :=
  .released statement releases rfl rfl rfl rfl rfl

theorem Effect.advance {index : Nat} {next : Execution P}
    (found : before.executions[index]? = some execution) (advances : execution.Advances next) :
    Effect before event (before.setExecution index next) :=
  .progressed index execution next found advances rfl rfl rfl rfl rfl

theorem withConsumer_some {index : Nat} {next : Consumer → Option (QueueState P)}
    (stepped : withConsumer before index next = some after) :
    ∃ consumer, before.consumers[index]? = some consumer ∧ next consumer = some after :=
  Option.bind_eq_some_iff.mp stepped

theorem withWorker_some {index place : Nat} {next : Consumer → QueueWorker → Option (QueueState P)}
    (stepped : withWorker before index place next = some after) :
    ∃ consumer worker, before.consumers[index]? = some consumer ∧
      consumer.workers[place]? = some worker ∧ next consumer worker = some after := by
  obtain ⟨consumer, found, moved⟩ := withConsumer_some stepped
  obtain ⟨worker, stands, moved⟩ := Option.bind_eq_some_iff.mp moved
  exact ⟨consumer, worker, found, stands, moved⟩

theorem fromPhase_some {index : Nat} {phase : HandlerPhase}
    {next : Execution P → QueueState P} (moved : fromPhase before index phase next = some after) :
    ∃ execution, before.executions[index]? = some execution ∧ execution.phase = phase ∧ after = next execution := by
  simp only [fromPhase] at moved
  split at moved
  · rename_i execution found
    split at moved
    · rename_i stands
      cases moved
      exact ⟨execution, found, stands, rfl⟩
    · contradiction
  · contradiction

theorem Execution.unsettled_of_phase {phase : HandlerPhase} (stands : execution.phase = phase)
    (open_ : phase ≠ .settled) : execution.unsettled := by
  rw [Execution.unsettled]
  rw [stands]
  exact open_

theorem claimStep_effect {consumerIndex workerIndex : Nat} {consumer : Consumer}
    {worker : QueueWorker} {now : Instant} {locked : List Nat} {answered : Bool}
    (consumerFound : before.consumers[consumerIndex]? = some consumer)
    (workerFound : consumer.workers[workerIndex]? = some worker) :
    Effect before (.claimOne consumerIndex workerIndex now locked answered)
      (claimStep before consumerIndex workerIndex consumer worker now locked answered) := by
  cases found : nextRun worker.runType worker.queueName now locked before.runs with
  | none =>
    simp only [claimStep, found]
    exact .quiet rfl rfl rfl rfl rfl
  | some row =>
    have target : claimTarget before (.claimOne consumerIndex workerIndex now locked answered) =
        some (consumer.claimedBy, row) := by
      simp [claimTarget, consumerFound, workerFound, found]
    simp only [claimStep, found]
    refine .claimed consumer.claimedBy row now _ target (nextRun_pending found)
      (nextRun_mem found).1 ⟨rfl, rfl, rfl, rfl, rfl, ?_⟩ rfl rfl rfl ?_ ?_ rfl
    · simp
    · simp
    · intro id other
      simp [other]

theorem consumerStep_effect (stepped : consumerStep before event = some after) : Effect before event after := by
  cases event with
  | enqueue request now =>
    simp only [consumerStep] at stepped
    split at stepped
    · cases stepped
      exact .quiet rfl rfl rfl rfl rfl
    · rename_i row inserted
      cases stepped
      obtain ⟨rfl, _⟩ := insertRun_some inserted
      exact .inserted request now rfl rfl rfl rfl rfl rfl
  | start index =>
    obtain ⟨consumer, _, moved⟩ := withConsumer_some stepped
    split at moved
    · contradiction
    · cases moved
      exact .setConsumer _ _
  | recoverStaleClaimedRowsOnStartup index now =>
    obtain ⟨consumer, _, moved⟩ := withConsumer_some stepped
    split at moved
    · cases moved
      exact .release (.recovered now) _ _
    · contradiction
  | work index queueName startPaused =>
    obtain ⟨consumer, _, moved⟩ := withConsumer_some stepped
    split at moved
    · cases moved
      exact .setConsumer _ _
    · contradiction
  | workReplaces index place =>
    obtain ⟨consumer, _, moved⟩ := withConsumer_some stepped
    obtain ⟨registration, _, rfl⟩ := Option.map_eq_some_iff.mp moved
    exact .setConsumer _ _
  | pauseWorker index queueName =>
    obtain ⟨consumer, _, moved⟩ := withConsumer_some stepped
    cases moved
    exact .setConsumer _ _
  | resumeWorker index queueName =>
    obtain ⟨consumer, _, moved⟩ := withConsumer_some stepped
    cases moved
    exact .setConsumer _ _
  | poll consumerIndex workerIndex =>
    obtain ⟨consumer, worker, _, _, moved⟩ := withWorker_some stepped
    split at moved
    · cases moved
      exact .setConsumer _ _
    · contradiction
  | claimOne consumerIndex workerIndex now locked answered =>
    obtain ⟨consumer, worker, consumerFound, workerFound, moved⟩ := withWorker_some stepped
    split at moved
    · cases moved
      exact claimStep_effect consumerFound workerFound
    · contradiction
  | heartbeatFires index =>
    simp only [consumerStep] at stepped
    split at stepped
    · rename_i execution found
      split at stepped
      · rename_i unsettled
        cases stepped
        exact .advance found (.ofUnsettled unsettled _ _)
      · contradiction
    · contradiction
  | heartbeatClaim index now =>
    simp only [consumerStep] at stepped
    split at stepped
    · rename_i execution found
      split at stepped
      · rename_i issued
        cases stepped
        exact .wrote index execution _ _ _ found (.heartbeatDone issued) (.heartbeat now issued)
          (by simp [handlerWrite, found]) rfl rfl rfl rfl rfl
      · contradiction
    · contradiction
  | handlerReturns index =>
    obtain ⟨execution, found, stands, rfl⟩ := fromPhase_some stepped
    have unsettled := Execution.unsettled_of_phase stands (by decide)
    exact .advance found (.ofUnsettled unsettled _ _)
  | handlerThrows index =>
    obtain ⟨execution, found, stands, rfl⟩ := fromPhase_some stepped
    have unsettled := Execution.unsettled_of_phase stands (by decide)
    exact .advance found (.ofUnsettled unsettled _ _)
  | markCompleted index now =>
    obtain ⟨execution, found, stands, rfl⟩ := fromPhase_some stepped
    have unsettled := Execution.unsettled_of_phase stands (by decide)
    exact .wrote index execution _ _ _ found (.settled unsettled) (.completed now stands)
      (by simp [handlerWrite, found]) rfl rfl rfl rfl rfl
  | markCompletedThrows index committed =>
    obtain ⟨execution, found, stands, rfl⟩ := fromPhase_some stepped
    have unsettled := Execution.unsettled_of_phase stands (by decide)
    cases committed with
    | none =>
      exact .advance found (.ofUnsettled unsettled _ _)
    | some now =>
      exact .wrote index execution _ _ _ found (.ofUnsettled unsettled _ _)
        (.completed now stands) (by simp [handlerWrite, found]) rfl rfl rfl rfl rfl
  | recordFailure index message now =>
    obtain ⟨execution, found, stands, rfl⟩ := fromPhase_some stepped
    have unsettled := Execution.unsettled_of_phase stands (by decide)
    exact .wrote index execution _ _ _ found (.settled unsettled) (.failed message now stands)
      (by simp [handlerWrite, found]) rfl rfl rfl rfl rfl
  | recordFailureThrows index =>
    obtain ⟨execution, found, stands, rfl⟩ := fromPhase_some stepped
    have unsettled := Execution.unsettled_of_phase stands (by decide)
    exact .progressed index execution _ found (.settled unsettled) rfl rfl rfl rfl rfl
  | staleSweep now =>
    cases stepped
    exact .released _ (.swept now) rfl rfl rfl rfl rfl
  | stop index =>
    obtain ⟨consumer, _, moved⟩ := withConsumer_some stepped
    cases moved
    exact .setConsumer _ _
  | releaseClaims index =>
    obtain ⟨consumer, _, moved⟩ := withConsumer_some stepped
    split at moved
    · cases moved
      exact .release (.stopped _) _ _
    · contradiction
  | releaseClaimsThrows index =>
    obtain ⟨consumer, _, moved⟩ := withConsumer_some stepped
    split at moved
    · cases moved
      exact .setConsumer _ _
    · contradiction
  | clearWorkers index =>
    obtain ⟨consumer, _, moved⟩ := withConsumer_some stepped
    split at moved
    · cases moved
      exact .setConsumer _ _
    · contradiction

end Effects

end Lobu.Queue
