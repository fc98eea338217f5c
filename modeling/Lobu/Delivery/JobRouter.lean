import Lobu.Queue.Returns
import Lobu.Worker.MessageBatcher
import Mathlib.Algebra.BigOperators.Group.List.Lemmas
import Mathlib.Algebra.Order.BigOperators.Group.List
import Mathlib.Algebra.Order.Ring.Nat

namespace Lobu.Delivery

open Lobu.Foundation Lobu.Queue Lobu.Worker

/-! # Delivery of jobs to a worker

The queue of one deployment, the job routers of the gateway processes, the events
and receipts on their way, and the worker process.  A router writes the job of a
claimed row to the worker and waits five seconds for its receipt; the worker sends
the receipt and executes the job at once (`exec`) or through its batcher.

Events may be lost; receipts may be lost, repeated and late, and may reach any
process.  `written` lists the calls of `handleJob` that have written their event,
`delivered` the messages of the events the worker has read, and `returns` counts
how often each row was put back to pending.  No function reads the three.
-/

/-- The claims of a native run token, as far as the worker looks at them. -/
structure RunTokenClaims where
  isRun : Bool
  hasExecutionMode : Bool
  deploymentName : String
deriving DecidableEq

/-- The payload of a row.  `runJobToken` holds what `verifyWorkerToken` makes of a
native token, `wellFormed` the verdict of `JobEventSchema`, `trust` whether a
resolved course context has one. -/
structure JobData where
  message : MessagePayload
  jobType : Option String := none
  execId : Option String := none
  execCommand : Option String := none
  runJobToken : Option (Option RunTokenClaims) := none
  trust : Option Bool := none
  wellFormed : Bool := true

structure JobEvent where
  jobId : Nat
  payload : JobData

/-- An entry of `pendingJobs` of the router in one gateway process. -/
structure PendingJob where
  router : Nat
  jobId : Nat
  execution : Nat

/-- `awaiting` holds the calls of `handleJob` whose receipt timer is running. -/
structure DeliveryState where
  queue : QueueState JobData
  pendingJobs : List PendingJob
  awaiting : List Nat
  stream : List JobEvent
  receipts : List Nat
  worker : BatcherState
  execRuns : List String
  written : List Nat
  delivered : List String
  returns : Nat → Nat

inductive DeliveryEvent where
  | queue (event : QueueEvent JobData)
  | cleanup (cleanup : RunsCleanup)
  | sendSSE (execution : Nat)
  | sendFails (execution : Nat)
  | receiptTimeout (execution : Nat)
  | acknowledgeJob (router jobId : Nat)
  | eventLost (position : Nat)
  | eventRead (position : Nat) (timestamp : Int)
  | worker (event : BatcherEvent)

def threadQueueName (deploymentName : String) : String :=
  "thread_message_" ++ deploymentName

/-- The queue's own events, with the deployment's queue the only one worked on and
the handler's outcome left to the router. -/
def queueEvent (deploymentName : String) : QueueEvent JobData → Bool
  | .handlerReturns _ | .handlerThrows _ => false
  | .work _ queueName _ => queueName == threadQueueName deploymentName
  | .enqueue _ _ | .start _ | .recoverStaleClaimedRowsOnStartup _ _ | .workReplaces _ _
  | .pauseWorker _ _ | .resumeWorker _ _ | .poll _ _ | .claimOne _ _ _ _ _ | .heartbeatFires _
  | .heartbeatClaim _ _ | .markCompleted _ _ | .markCompletedThrows _ _ | .recordFailure _ _ _
  | .recordFailureThrows _ | .staleSweep _ | .stop _ | .releaseClaims _ | .releaseClaimsThrows _
  | .clearWorkers _ => true

namespace DeliveryState

variable (state : DeliveryState)

def initial (identities : List String) : DeliveryState where
  queue := QueueState.initial identities
  pendingJobs := []
  awaiting := []
  stream := []
  receipts := []
  worker := BatcherState.initial
  execRuns := []
  written := []
  delivered := []
  returns := fun _ => 0

def moveQueue (queue : QueueState JobData) : DeliveryState :=
  { state with
    queue := queue
    returns := returnsAfter state.returns state.queue.runs queue.runs }

def onQueue (event : QueueEvent JobData) : Option DeliveryState :=
  (consumerStep state.queue event).map state.moveQueue

/-- The call of `handleJob` that has not come to its write. -/
def handling (index : Nat) : Option (Execution JobData) :=
  (state.queue.executions[index]?).filter fun execution =>
    execution.phase == .running && !state.written.contains index

def pendingJob (router jobId : Nat) : Option Nat :=
  (state.pendingJobs.find? fun job => job.router == router && job.jobId == jobId).map
    PendingJob.execution

/-- `pendingJobs.delete(jobId)`. -/
def withoutPendingJob (router jobId : Nat) : List PendingJob :=
  state.pendingJobs.filter fun job => !(job.router == router && job.jobId == jobId)

end DeliveryState

/-- `handleJob` from its checks to the receipt timer. -/
def sendJob (state : DeliveryState) (index : Nat) (execution : Execution JobData) : DeliveryState :=
  let jobId := execution.claimed.runId
  { state with
    stream := state.stream ++ [{ jobId, payload := execution.claimed.payload }]
    written := state.written ++ [index]
    awaiting := state.awaiting ++ [index]
    pendingJobs := state.withoutPendingJob execution.consumer jobId ++
      [{ router := execution.consumer, jobId, execution := index }] }

def JobData.boundElsewhere (job : JobData) (deploymentName : String) : Bool :=
  match job.runJobToken with
  | some (some claims) =>
    claims.isRun && claims.hasExecutionMode && claims.deploymentName != deploymentName
  | some none | none => false

/-- `handleEvent` for a job, with `handleThreadMessage` and the test of `handleExecJob`. -/
def handleEvent (deploymentName : String) (state : DeliveryState) (job : JobEvent)
    (timestamp : Int) : DeliveryState :=
  let payload := job.payload
  let read := { state with delivered := state.delivered ++ [payload.message.messageId] }
  if !payload.wellFormed || payload.boundElsewhere deploymentName then read
  else
    let receipted := { read with receipts := read.receipts ++ [job.jobId] }
    -- An untrusted course context is answered with an error and never executed.
    if payload.trust = some false then receipted
    else if payload.jobType = some "exec" then
      if (truthy payload.execId).isSome && (truthy payload.execCommand).isSome then
        { receipted with execRuns := receipted.execRuns ++ [payload.message.messageId] }
      else receipted
    else { receipted with
      worker := addMessage receipted.worker { payload := payload.message, timestamp } }

def deliveryStep (deploymentName : String) (state : DeliveryState) : DeliveryEvent → Option DeliveryState
  | .queue event => if queueEvent deploymentName event then state.onQueue event else none
  | .cleanup cleanup =>
    some { state with queue := { state.queue with runs := cleanup.run state.queue.runs } }
  | .sendSSE index =>
    match state.handling index with
    | some execution =>
      if execution.claimed.payload.runJobToken = some none then none
      else some (sendJob state index execution)
    | none => none
  -- No connection, a token that fails its validation, or a failed write.
  | .sendFails index =>
    if (state.handling index).isSome then state.onQueue (.handlerThrows index) else none
  | .receiptTimeout index =>
    match state.queue.executions[index]? with
    | some execution =>
      if state.awaiting.contains index then
        (state.onQueue (.handlerThrows index)).map fun moved => { moved with
          awaiting := state.awaiting.erase index
          pendingJobs := state.withoutPendingJob execution.consumer execution.claimed.runId }
      else none
    | none => none
  | .acknowledgeJob router jobId =>
    if state.receipts.contains jobId then
      match state.pendingJob router jobId with
      | some index =>
        (state.onQueue (.handlerReturns index)).map fun moved => { moved with
          awaiting := state.awaiting.erase index
          pendingJobs := state.withoutPendingJob router jobId }
      | none => some state
    else none
  | .eventLost position => some { state with stream := state.stream.eraseIdx position }
  | .eventRead position timestamp =>
    match state.stream[position]? with
    | some job =>
      some (handleEvent deploymentName
        { state with stream := state.stream.eraseIdx position } job timestamp)
    | none => none
  | .worker event =>
    match event with
    | .addMessage _ => none
    | .timerFires | .groupReturns | .groupThrows | .stop =>
      (batcherStep state.worker event).map fun worker => { state with worker := worker }

def delivering (deploymentName : String) : Machine DeliveryState DeliveryEvent where
  starts state := ∃ identities, state = DeliveryState.initial identities
  step := deliveryStep deploymentName

def isFor (messageId : String) (message : QueuedMessage) : Bool :=
  message.payload.messageId == messageId

namespace DeliveryState

variable (state : DeliveryState) (messageId : String)

/-- How often a message was handed to execution. -/
def executionsOf : Nat :=
  state.worker.executed.flatten.countP (isFor messageId) + state.execRuns.count messageId

/-- The call is for a row that carries the message. -/
def carries (index : Nat) : Bool :=
  (state.queue.executions[index]?).any fun execution =>
    execution.claimed.payload.message.messageId == messageId

def writesOf : Nat :=
  state.written.countP (state.carries messageId)

/-- The rows of the message that were ever claimed. -/
def rowsOf : List Nat :=
  ((state.queue.executions.filter fun execution =>
    execution.claimed.payload.message.messageId == messageId).map
      fun execution => execution.claimed.runId).dedup

end DeliveryState

/-- A message is executed at most once for each event read, an event is written at
most once for each claim, and a row is claimed once and once more for each time it
was put back. -/
structure ExecutedPerClaim (state : DeliveryState) (messageId : String) : Prop where
  perRead : state.executionsOf messageId ≤ state.delivered.count messageId
  perWrite : state.delivered.count messageId ≤ state.writesOf messageId
  perClaim : state.writesOf messageId ≤
    ((state.rowsOf messageId).map fun runId => 1 + state.returns runId).sum

structure DeliveryInvariant (state : DeliveryState) : Prop where
  bounded : ClaimsBounded state.queue state.returns
  counted : ClaimsCounted state.queue
  once : state.written.Nodup
  known : ∀ index ∈ state.written, index < state.queue.executions.length
  executed : ExecutedOnce state.worker
  received : ∀ messageId, state.worker.added.countP (isFor messageId) +
    state.execRuns.count messageId ≤ state.delivered.count messageId
  sent : ∀ messageId, state.delivered.count messageId +
    state.stream.countP (fun job => job.payload.message.messageId == messageId) ≤
      state.writesOf messageId

section Steps

variable {state after moved : DeliveryState} {event : QueueEvent JobData} {messageId : String}
variable {index position : Nat} {execution : Execution JobData}

theorem DeliveryState.handling_some (found : state.handling index = some execution) :
    state.queue.executions[index]? = some execution ∧ index ∉ state.written := by
  obtain ⟨stands, open_⟩ := Option.filter_eq_some_iff.mp found
  simp only [Bool.and_eq_true, Bool.not_eq_true', List.contains_eq_mem, decide_eq_false_iff_not] at open_
  exact ⟨stands, open_.2⟩

theorem DeliveryInvariant.onQueue (invariant : DeliveryInvariant state)
    (stepped : state.onQueue event = some moved) : DeliveryInvariant moved := by
  obtain ⟨queue, moves, rfl⟩ := Option.map_eq_some_iff.mp stepped
  have effect := consumerStep_effect moves
  have kept : ∀ index ∈ state.written, ∃ execution later : Execution JobData,
      state.queue.executions[index]? = some execution ∧ queue.executions[index]? = some later ∧
        later.claimed = execution.claimed := by
    intro index member
    have found := List.getElem?_eq_getElem (invariant.known index member)
    obtain ⟨later, stands, same⟩ := effect.call_kept found
    exact ⟨_, later, found, stands, same⟩
  refine ⟨effect.claimsBounded invariant.bounded, effect.claimsCounted invariant.counted,
    invariant.once, fun index member => ?_, invariant.executed, invariant.received,
    fun messageId => ?_⟩
  · obtain ⟨_, later, _, stands, _⟩ := kept index member
    exact (List.getElem?_eq_some_iff.mp stands).1
  · have same : (state.moveQueue queue).writesOf messageId = state.writesOf messageId := by
      refine List.countP_congr fun index member => ?_
      obtain ⟨execution, later, found, stands, same⟩ := kept index member
      simp [DeliveryState.carries, DeliveryState.moveQueue, found, stands, same]
    rw [same]
    exact invariant.sent messageId

theorem DeliveryInvariant.bookkeeping (invariant : DeliveryInvariant state) (awaiting : List Nat)
    (pendingJobs : List PendingJob) :
    DeliveryInvariant { state with awaiting := awaiting, pendingJobs := pendingJobs } :=
  ⟨invariant.bounded, invariant.counted, invariant.once, invariant.known, invariant.executed,
    invariant.received, invariant.sent⟩

theorem DeliveryInvariant.sendJob (invariant : DeliveryInvariant state)
    (found : state.handling index = some execution) : DeliveryInvariant (sendJob state index execution) := by
  obtain ⟨stands, unwritten⟩ := DeliveryState.handling_some found
  refine ⟨invariant.bounded, invariant.counted, ?_, fun place member => ?_, invariant.executed,
    invariant.received, fun messageId => ?_⟩
  · refine List.nodup_append.mpr ⟨invariant.once, List.nodup_singleton index, ?_⟩
    intro first member second last
    rw [List.mem_singleton.mp last]
    exact fun same => unwritten (same ▸ member)
  · rcases List.mem_append.mp member with old | new
    · exact invariant.known place old
    · rw [List.mem_singleton.mp new]
      exact (List.getElem?_eq_some_iff.mp stands).1
  · have held := invariant.sent messageId
    have one : (Delivery.sendJob state index execution).writesOf messageId = state.writesOf messageId +
          if execution.claimed.payload.message.messageId == messageId then 1 else 0 := by
      have same : (Delivery.sendJob state index execution).carries messageId = state.carries messageId := rfl
      have carried : state.carries messageId index = (execution.claimed.payload.message.messageId == messageId) := by
        simp [DeliveryState.carries, stands]
      rw [DeliveryState.writesOf, same, Delivery.sendJob, List.countP_append, List.countP_singleton, carried]
      rfl
    rw [one]
    simp only [Delivery.sendJob, List.countP_append, List.countP_singleton]
    omega

theorem countP_eraseIdx_le {α : Type} (kind : α → Bool) (items : List α) (position : Nat) :
    (items.eraseIdx position).countP kind ≤ items.countP kind :=
  (List.eraseIdx_sublist items position).countP_le

theorem countP_eraseIdx_found {α : Type} (kind : α → Bool) {items : List α} {item : α}
    (found : items[position]? = some item) :
    (items.eraseIdx position).countP kind + (if kind item then 1 else 0) = items.countP kind := by
  obtain ⟨bound, rfl⟩ := List.getElem?_eq_some_iff.mp found
  have cut := congrArg (List.countP kind) (List.take_append_drop position items)
  rw [List.drop_eq_getElem_cons bound, List.countP_append, List.countP_cons] at cut
  rw [List.eraseIdx_eq_take_drop_succ, List.countP_append]
  omega

theorem DeliveryInvariant.eventLost (invariant : DeliveryInvariant state) (position : Nat) :
    DeliveryInvariant { state with stream := state.stream.eraseIdx position } := by
  refine ⟨invariant.bounded, invariant.counted, invariant.once, invariant.known, invariant.executed,
    invariant.received, fun messageId => ?_⟩
  have held := invariant.sent messageId
  have fewer := countP_eraseIdx_le
    (fun job : JobEvent => job.payload.message.messageId == messageId) state.stream position
  have same : DeliveryState.writesOf { state with stream := state.stream.eraseIdx position }
    messageId = state.writesOf messageId := rfl
  rw [same]
  dsimp only
  omega

theorem addMessage_added (worker : BatcherState) (message : QueuedMessage) :
    (addMessage worker message).added = worker.added ++ [message] := by
  rw [addMessage]
  dsimp only
  split
  · rfl
  split
  · rfl
  split
  · unfold processBatch
    dsimp only
    split <;> rfl
  · rfl

theorem batcherStep_added {worker later : BatcherState} {event : BatcherEvent}
    (stepped : batcherStep worker event = some later) (silent : ∀ message, event ≠ .addMessage message) :
    later.added = worker.added := by
  cases event with
  | addMessage message => exact absurd rfl (silent message)
  | timerFires =>
    simp only [batcherStep] at stepped
    split at stepped
    · cases stepped
      rw [processBatch]
      dsimp only
      split <;> rfl
    · contradiction
  | groupReturns =>
    simp only [batcherStep] at stepped
    split at stepped <;> cases stepped <;> rfl
  | groupThrows =>
    simp only [batcherStep] at stepped
    split at stepped <;> cases stepped
    rfl
  | stop =>
    cases stepped
    rfl

theorem DeliveryInvariant.eventRead (invariant : DeliveryInvariant state) {job : JobEvent}
    (found : state.stream[position]? = some job) (deploymentName : String) (timestamp : Int) :
    DeliveryInvariant (handleEvent deploymentName
      { state with stream := state.stream.eraseIdx position } job timestamp) := by
  have received (messageId : String) : state.worker.added.countP (isFor messageId) +
      state.execRuns.count messageId + (if job.payload.message.messageId == messageId then 1 else 0) ≤
        (state.delivered ++ [job.payload.message.messageId]).count messageId := by
    have held := invariant.received messageId
    rw [List.count_append, List.count_singleton]
    omega
  have sent (messageId : String) : (state.delivered ++ [job.payload.message.messageId]).count messageId +
        (state.stream.eraseIdx position).countP (fun job =>
          job.payload.message.messageId == messageId) ≤ state.writesOf messageId := by
    have held := invariant.sent messageId
    have one := countP_eraseIdx_found (fun job : JobEvent => job.payload.message.messageId == messageId) found
    rw [List.count_append, List.count_singleton]
    omega
  have fewer (messageId : String) : state.worker.added.countP (isFor messageId) + state.execRuns.count messageId ≤
        (state.delivered ++ [job.payload.message.messageId]).count messageId := by
    have held := received messageId
    omega
  rw [handleEvent]
  dsimp only
  split
  · exact ⟨invariant.bounded, invariant.counted, invariant.once, invariant.known, invariant.executed, fewer, sent⟩
  split
  · exact ⟨invariant.bounded, invariant.counted, invariant.once, invariant.known, invariant.executed, fewer, sent⟩
  split
  · split
    · refine ⟨invariant.bounded, invariant.counted, invariant.once, invariant.known,
        invariant.executed, fun messageId => ?_, sent⟩
      have held := received messageId
      dsimp only
      rw [List.count_append, List.count_singleton]
      omega
    · exact ⟨invariant.bounded, invariant.counted, invariant.once, invariant.known, invariant.executed, fewer, sent⟩
  · refine ⟨invariant.bounded, invariant.counted, invariant.once, invariant.known,
      invariant.executed.addMessage _, fun messageId => ?_, sent⟩
    have held := received messageId
    have carried : isFor messageId { payload := job.payload.message, timestamp } =
      (job.payload.message.messageId == messageId) := rfl
    dsimp only
    rw [addMessage_added, List.countP_append, List.countP_singleton, carried]
    omega

theorem DeliveryInvariant.step {event : DeliveryEvent} {deploymentName : String} (invariant : DeliveryInvariant state)
    (stepped : deliveryStep deploymentName state event = some after) : DeliveryInvariant after := by
  cases event with
  | queue event =>
    simp only [deliveryStep] at stepped
    split at stepped
    · exact invariant.onQueue stepped
    · contradiction
  | cleanup cleanup =>
    cases stepped
    exact ⟨invariant.bounded.cleanup cleanup, invariant.counted, invariant.once, invariant.known,
      invariant.executed, invariant.received, invariant.sent⟩
  | sendSSE index =>
    simp only [deliveryStep] at stepped
    split at stepped
    · rename_i execution found
      split at stepped
      · contradiction
      · cases stepped
        exact invariant.sendJob found
    · contradiction
  | sendFails index =>
    simp only [deliveryStep] at stepped
    split at stepped
    · exact invariant.onQueue stepped
    · contradiction
  | receiptTimeout index =>
    simp only [deliveryStep] at stepped
    split at stepped
    · split at stepped
      · obtain ⟨moved, queued, rfl⟩ := Option.map_eq_some_iff.mp stepped
        exact (invariant.onQueue queued).bookkeeping _ _
      · contradiction
    · contradiction
  | acknowledgeJob router jobId =>
    simp only [deliveryStep] at stepped
    split at stepped
    · split at stepped
      · obtain ⟨moved, queued, rfl⟩ := Option.map_eq_some_iff.mp stepped
        exact (invariant.onQueue queued).bookkeeping _ _
      · cases stepped
        exact invariant
    · contradiction
  | eventLost position =>
    cases stepped
    exact invariant.eventLost position
  | eventRead position timestamp =>
    simp only [deliveryStep] at stepped
    split at stepped
    · rename_i job found
      cases stepped
      exact invariant.eventRead found deploymentName timestamp
    · contradiction
  | worker event =>
    have ran (event : BatcherEvent) (silent : ∀ message, event ≠ .addMessage message)
        (moved : (batcherStep state.worker event).map
          (fun worker => { state with worker := worker }) = some after) :
        DeliveryInvariant after := by
      obtain ⟨worker, moves, rfl⟩ := Option.map_eq_some_iff.mp moved
      refine ⟨invariant.bounded, invariant.counted, invariant.once, invariant.known,
        invariant.executed.step moves, fun messageId => ?_, invariant.sent⟩
      rw [batcherStep_added moves silent]
      exact invariant.received messageId
    cases event with
    | addMessage message => contradiction
    | timerFires => exact ran .timerFires (fun _ same => (by cases same)) stepped
    | groupReturns => exact ran .groupReturns (fun _ same => (by cases same)) stepped
    | groupThrows => exact ran .groupThrows (fun _ same => (by cases same)) stepped
    | stop => exact ran .stop (fun _ same => (by cases same)) stepped

theorem DeliveryInvariant.perRead (invariant : DeliveryInvariant state) (messageId : String) :
    state.executionsOf messageId ≤ state.delivered.count messageId := by
  have executed := invariant.executed (isFor messageId)
  have received := invariant.received messageId
  rw [DeliveryState.executionsOf]
  omega

theorem DeliveryInvariant.perClaim (invariant : DeliveryInvariant state) (messageId : String) :
    state.writesOf messageId ≤ ((state.rowsOf messageId).map fun runId => 1 + state.returns runId).sum := by
  let carrying : Execution JobData → Bool := fun execution =>
    execution.claimed.payload.message.messageId == messageId
  let rows := (state.queue.executions.filter carrying).map fun execution => execution.claimed.runId
  have claimed (runId : Nat) : rows.count runId ≤ 1 + state.returns runId := by
    have total := invariant.bounded.total runId
    have counted := invariant.counted runId
    have fewer : rows.count runId ≤
        state.queue.executions.countP fun execution => execution.claimed.runId == runId := by
      rw [List.count, List.countP_map, List.countP_filter]
      exact List.countP_mono_left fun execution _ both => by
        simp only [Function.comp, Bool.and_eq_true] at both
        exact both.1
    omega
  calc state.writesOf messageId
      ≤ state.queue.executions.countP carrying := countP_places_le invariant.once carrying _
    _ = rows.length := by rw [List.countP_eq_length_filter, List.length_map]
    _ = (rows.dedup.map fun runId => rows.count runId).sum :=
        (List.sum_map_count_dedup_eq_length rows).symm
    _ ≤ (rows.dedup.map fun runId => 1 + state.returns runId).sum :=
        List.sum_le_sum fun runId _ => claimed runId

end Steps

theorem delivering_invariant {deploymentName : String} {state : DeliveryState}
    (reached : (delivering deploymentName).Reachable unrestricted state) : DeliveryInvariant state := by
  apply reached.invariant
  · intro state begins
    obtain ⟨identities, rfl⟩ := begins
    exact ⟨ClaimsBounded.initial identities, fun _ => rfl, List.nodup_nil,
      fun _ member => absurd member List.not_mem_nil, fun _ => Nat.le_refl _,
      fun _ => Nat.le_refl _, fun _ => Nat.le_refl _⟩
  · intro before event after _ invariant _ stepped
    exact invariant.step stepped

/-- Whatever happens to events and receipts, a message is executed at most once for
each claim of its row, and the row is claimed again only after it was put back. -/
theorem executed_per_claim :
    ∀ (deploymentName : String) (state : DeliveryState), (delivering deploymentName).Reachable unrestricted state →
        ∀ messageId, ExecutedPerClaim state messageId := by
  intro deploymentName state reached messageId
  have invariant := delivering_invariant reached
  have sent := invariant.sent messageId
  exact ⟨invariant.perRead messageId, by omega, invariant.perClaim messageId⟩

/-- One message is queued, claimed and written to its worker, which reads it. -/
def firstDelivery : List DeliveryEvent :=
  [.queue (.start 0), .queue (.work 0 "thread_message_worker" false),
    .queue (.enqueue {
      queueName := "thread_message_worker"
      data := { message := { messageId := "message", channelId := "channel" } }
      options := { singletonKey := some "worker-message:message" } } 0),
    .queue (.poll 0 0), .queue (.claimOne 0 0 0 [] true), .sendSSE 0, .eventRead 0 10]

theorem executed_per_claim_after_receipt :
    ∃ state : DeliveryState, (delivering "worker").Reachable unrestricted state ∧
      state.executionsOf "message" = 1 ∧ state.rowsOf "message" = [1] ∧ state.returns 1 = 0 ∧
        ExecutedPerClaim state "message" := by
  obtain ⟨state, reached, tested⟩ := Machine.exists_of_replay (delivering "worker") unrestricted
    (DeliveryState.initial ["gateway"])
    (firstDelivery ++ [.acknowledgeJob 0 1, .queue (.markCompleted 0 20), .worker .groupReturns])
    (fun state => state.executionsOf "message" == 1 && state.rowsOf "message" == [1] &&
      state.returns 1 == 0)
    ⟨["gateway"], rfl⟩ (by decide +kernel)
  simp only [Bool.and_eq_true, beq_iff_eq] at tested
  obtain ⟨⟨executions, rows⟩, returns⟩ := tested
  exact ⟨state, reached, executions, rows, returns, executed_per_claim "worker" state reached "message"⟩

/-- The receipt does not arrive within five seconds: the row is retried, and the
worker, which is still executing the first copy, queues and executes the second. -/
theorem message_executed_twice :
    ¬ ∀ (deploymentName : String) (state : DeliveryState), (delivering deploymentName).Reachable unrestricted state →
        ∀ messageId, state.executionsOf messageId ≤ 1 := by
  intro always
  obtain ⟨state, reached, tested⟩ := Machine.exists_of_replay (delivering "worker") unrestricted
    (DeliveryState.initial ["gateway"])
    (firstDelivery ++ [.receiptTimeout 0, .queue (.recordFailure 0 "receipt timeout" 5000),
      .queue (.poll 0 0), .queue (.claimOne 0 0 10000 [] true), .sendSSE 1, .eventRead 0 10001,
      .acknowledgeJob 0 1, .queue (.markCompleted 1 10002), .worker .groupReturns,
      .worker .timerFires])
    (fun state => state.executionsOf "message" == 2) ⟨["gateway"], rfl⟩ (by decide +kernel)
  have once := always "worker" state reached "message"
  rw [beq_iff_eq.mp tested] at once
  omega

end Lobu.Delivery
