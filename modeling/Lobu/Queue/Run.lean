import Lobu.Foundation.Table
import Mathlib.Algebra.Order.Ring.Int

namespace Lobu.Queue

open Lobu.Foundation

/-! # The `runs` table

One row is one unit of work.  Only the columns that the queue's own statements
read or write are kept.  Instants are milliseconds, read from the database
clock by each statement, so they enter as an argument of the statement.
-/

abbrev Instant := Int

inductive RunStatus where
  | pending
  | claimed
  | running
  | completed
  | failed
  | cancelled
  | timeout
deriving DecidableEq

/-- The statuses inside the predicate of `runs_idempotency_key_uniq`. -/
def RunStatus.active : RunStatus → Bool
  | .pending | .claimed | .running => true
  | .completed | .failed | .cancelled | .timeout => false

/-- `run_type`: five connector lanes and the five lanes of the queue. -/
inductive RunType where
  | sync
  | action
  | embedBackfill
  | watcher
  | auth
  | chatMessage
  | schedule
  | agentRun
  | internal
  | task
deriving DecidableEq

def RunType.lobu : RunType → Bool
  | .chatMessage | .schedule | .agentRun | .internal | .task => true
  | .sync | .action | .embedBackfill | .watcher | .auth => false

/-- `String.prototype.startsWith`. -/
def startsWith (text start : String) : Bool :=
  start.toList.isPrefixOf text.toList

def classifyQueue (queueName : String) : RunType :=
  if queueName == "task" || startsWith queueName "task:" then .task
  else if startsWith queueName "schedule" then .schedule
  else if queueName == "agent_run" || startsWith queueName "agent_run:" then .agentRun
  else if startsWith queueName "internal" then .internal
  else .chatMessage

def maxBackoffSeconds : Int := 300

def backoffSeconds (attempt : Int) : Int :=
  min (2 ^ (max 0 attempt).toNat) maxBackoffSeconds

def claimVisibilityTimeoutMs : Int := 5 * 60 * 1000

/-- A row of `public.runs`; `P` is the type of `action_input`. -/
structure Run (P : Type) where
  id : Nat
  runType : RunType
  queueName : String
  actionKey : Option String
  actionInput : P
  idempotencyKey : Option String
  maxAttempts : Nat
  attempts : Nat
  status : RunStatus
  runAt : Instant
  priority : Int
  expiresAt : Option Instant
  retryDelaySeconds : Option Int
  organizationId : Option String
  claimedAt : Option Instant
  claimedBy : Option String
  completedAt : Option Instant
  errorMessage : Option String
deriving DecidableEq

variable {P : Type}

def claimable (runType : RunType) (queueName : String) (now : Instant) (row : Run P) : Bool :=
  row.status == .pending && row.runType == runType && row.queueName == queueName &&
    decide (row.runAt ≤ now) && row.expiresAt.all fun expiry => decide (now < expiry)

/-- `ORDER BY priority DESC, run_at ASC, id ASC`. -/
def claimedBefore (first second : Run P) : Bool :=
  decide (second.priority < first.priority) ||
    first.priority == second.priority &&
      (decide (first.runAt < second.runAt) ||
        first.runAt == second.runAt && decide (first.id < second.id))

/-- `… FOR UPDATE SKIP LOCKED LIMIT 1`: the first claimable row that no other
statement holds locked at that moment. -/
def nextRun (runType : RunType) (queueName : String) (now : Instant) (locked : List Nat)
    (runs : List (Run P)) : Option (Run P) :=
  firstBy claimedBefore (runs.filter fun row =>
    claimable runType queueName now row && !locked.contains row.id)

def claimRun (claimedBy : String) (runId : Nat) (now : Instant) : RowUpdate (Run P) where
  selects row := row.id == runId
  sets row := { row with status := .claimed, claimedAt := some now, claimedBy := some claimedBy }

theorem nextRun_mem {runType : RunType} {queueName : String} {now : Instant} {locked : List Nat}
    {runs : List (Run P)} {row : Run P} (found : nextRun runType queueName now locked runs = some row) :
    row ∈ runs ∧ claimable runType queueName now row = true := by
  have member := firstBy_mem found
  simp only [List.mem_filter, Bool.and_eq_true] at member
  exact ⟨member.1, member.2.1⟩

theorem nextRun_pending {runType : RunType} {queueName : String} {now : Instant}
    {locked : List Nat} {runs : List (Run P)} {row : Run P}
    (found : nextRun runType queueName now locked runs = some row) : row.status = .pending := by
  have suitable := (nextRun_mem found).2
  simp only [claimable, Bool.and_eq_true, beq_iff_eq] at suitable
  exact suitable.1.1.1.1

/-! ## Writes of a handler

Every one of them carries the guard `id = … AND status = 'claimed' AND
claimed_by = …`, the identity being that of the process, not of the claim.
-/

def heldBy (claimedBy : String) (runId : Nat) (row : Run P) : Bool :=
  row.id == runId && row.status == .claimed && row.claimedBy == some claimedBy

theorem heldBy_iff {claimedBy : String} {runId : Nat} {row : Run P} :
    heldBy claimedBy runId row = true ↔ row.id = runId ∧ row.status = .claimed ∧ row.claimedBy = some claimedBy := by
  simp only [heldBy, Bool.and_eq_true, beq_iff_eq, and_assoc]

def heartbeatClaim (claimedBy : String) (runId : Nat) (now : Instant) : RowUpdate (Run P) where
  selects := heldBy claimedBy runId
  sets row := { row with claimedAt := some now }

def markCompleted (claimedBy : String) (runId : Nat) (now : Instant) : RowUpdate (Run P) where
  selects := heldBy claimedBy runId
  sets row := { row with status := .completed, completedAt := some now }

def markFailed (claimedBy : String) (runId : Nat) (message : String) (now : Instant) : RowUpdate (Run P) where
  selects := heldBy claimedBy runId
  sets row := { row with
    status := .failed
    completedAt := some now
    errorMessage := some message
    attempts := row.attempts + 1 }

def retryDelay (attempt : Nat) (retryDelaySeconds : Option Int) : Int :=
  match retryDelaySeconds with
  | some seconds => max 0 seconds
  | none => backoffSeconds attempt

def scheduleRetry (claimedBy : String) (runId attempt : Nat) (retryDelaySeconds : Option Int)
    (now : Instant) : RowUpdate (Run P) where
  selects := heldBy claimedBy runId
  sets row := { row with
    status := .pending
    attempts := attempt
    runAt := now + retryDelay attempt retryDelaySeconds * 1000
    claimedAt := none
    claimedBy := none }

def staleSweep (now : Instant) : RowUpdate (Run P) where
  selects row := row.status == .claimed && row.runType.lobu &&
    row.claimedAt.any fun at_ => decide (at_ < now - claimVisibilityTimeoutMs)
  sets row := { row with status := .pending, claimedAt := none, claimedBy := none, runAt := now }

def recoverStaleClaimedRowsOnStartup (now : Instant) : RowUpdate (Run P) where
  selects row := (row.status == .claimed || row.status == .running) && row.runType.lobu &&
    row.claimedAt.all fun at_ => decide (at_ < now - claimVisibilityTimeoutMs * 2)
  sets row := { row with status := .pending, claimedAt := none, claimedBy := none, runAt := now }

/-- `stop()` gives back what the process still holds. -/
def releaseClaims (claimedBy : String) : RowUpdate (Run P) where
  selects row := row.claimedBy == some claimedBy && row.status == .claimed
  sets row := { row with status := .pending, claimedAt := none, claimedBy := none }

structure QueueOptions where
  priority : Option Int := none
  retryLimit : Option Nat := none
  retryDelay : Option Int := none
  expireInSeconds : Option Int := none
  singletonKey : Option String := none
  durableSingleton : Bool := false
  delayMs : Option Int := none
  actionKey : Option String := none

/-- The arguments of a send.  `dataOrganizationId` is the payload's
`organizationId` when that is a string. -/
structure SendRequest (P : Type) where
  queueName : String
  data : P
  dataOrganizationId : Option String := none
  options : QueueOptions := {}

namespace SendRequest

def idempotencyKey (request : SendRequest P) : Option String :=
  request.options.singletonKey

def maxAttempts (request : SendRequest P) : Nat :=
  request.options.retryLimit.getD 3

/-- An empty organization id counts as none. -/
def organizationIdFromPayload (request : SendRequest P) : Option String :=
  request.dataOrganizationId.filter fun organization => decide (organization ≠ "")

def row (request : SendRequest P) (id : Nat) (now : Instant) : Run P where
  id
  runType := classifyQueue request.queueName
  queueName := request.queueName
  actionKey := request.options.actionKey
  actionInput := request.data
  idempotencyKey := request.idempotencyKey
  maxAttempts := request.maxAttempts
  attempts := 0
  status := .pending
  runAt := if 0 < request.options.delayMs.getD 0 then now + request.options.delayMs.getD 0 else now
  priority := request.options.priority.getD 0
  expiresAt := (request.options.expireInSeconds.filter (0 < ·)).map (now + · * 1000)
  retryDelaySeconds := request.options.retryDelay
  organizationId := request.organizationIdFromPayload
  claimedAt := none
  claimedBy := none
  completedAt := none
  errorMessage := none

end SendRequest

/-- `runs_idempotency_key_uniq`. -/
def runsIdempotencyKeyUniq : PartialIndex (Run P) String where
  covers row := row.status.active
  key row := row.idempotencyKey

abbrev activeUnder (key : String) (row : Run P) : Bool :=
  runsIdempotencyKeyUniq.holds key row

/-- `INSERT … ON CONFLICT (idempotency_key) … DO NOTHING`: the new row, if any. -/
def insertRun (request : SendRequest P) (id : Nat) (now : Instant) (runs : List (Run P)) : Option (Run P) :=
  if runsIdempotencyKeyUniq.conflicts request.idempotencyKey runs then none
  else some (request.row id now)

theorem insertRun_some {request : SendRequest P} {id : Nat} {now : Instant} {runs : List (Run P)}
    {row : Run P} (inserted : insertRun request id now runs = some row) :
    row = request.row id now ∧ runsIdempotencyKeyUniq.conflicts request.idempotencyKey runs = false := by
  simp only [insertRun] at inserted
  split at inserted
  · contradiction
  · rename_i free
    cases inserted
    exact ⟨rfl, by simpa using free⟩

end Lobu.Queue
