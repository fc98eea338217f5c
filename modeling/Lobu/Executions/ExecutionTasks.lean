import Lobu.Foundation.Json
import Lobu.Foundation.Machine
import Lobu.Foundation.Utf8

namespace Lobu.Executions

open Lobu.Foundation

/-! # Execution tasks

One task with its log, its writers and a client that polls it.  `recordExecutionEvent` locks the
task's row before it draws the id of its event, so another writer of the task waits until it ends;
the sequence of ids is shared with all other tasks.
-/

inductive ExecutionTaskStatus where
  | running
  | waitingForTool
  | completed
  | failed
  | cancelled
deriving DecidableEq, Repr

def terminalStatuses : List ExecutionTaskStatus := [.completed, .failed, .cancelled]

def isTerminalStatus (status : ExecutionTaskStatus) : Bool := terminalStatuses.contains status

/-- An `unknown` that a caller passes. -/
inductive Given where
  | undefined
  | unserializable
  | json (value : Json)

/-- The row; no summary and no error read as `null`. -/
structure ExecutionTaskRow where
  id : String
  agentId : String
  sessionId : Option String
  conversationId : Option String
  userId : Option String
  source : String
  status : ExecutionTaskStatus
  startedAt : Int
  lastEventAt : Int
  completedAt : Option Int
  finalSummary : Json
  error : Json
  metadata : Json

structure ExecutionEvent where
  id : Nat
  type : String
  message : Option String
  payload : Json
  createdAt : Int
deriving DecidableEq

structure CreateExecutionTaskInput where
  id : String
  agentId : String
  sessionId : Option String
  conversationId : Option String
  userId : Option String
  source : Option String
  status : Option ExecutionTaskStatus
  metadata : Option Json

structure StatusUpdates where
  finalSummary : Given
  error : Given

structure RecordExecutionEventInput extends StatusUpdates where
  type : String
  message : Option String
  payload : Given
  status : Option ExecutionTaskStatus

section Writes

variable (numberText : Rat → String)

def maxObservabilityJsonBytes : Nat := 32 * 1024

def jsonByteLength : Given → Option Nat
  | .json value => some (encodeUtf8 (stringify numberText value).toList).length
  | .undefined => none
  | .unserializable => none

def boundedJson (value : Given) : Json :=
  match value, jsonByteLength numberText value with
  | .json json, some bytes =>
    if bytes ≤ maxObservabilityJsonBytes then json
    else .object [("truncated", .bool true), ("originalBytes", .number (.finite bytes))]
  | _, _ => .object [("truncated", .bool true), ("unserializable", .bool true)]

def boundedPayload : Given → Json
  | .undefined => boundedJson numberText (.json (.object []))
  | given => boundedJson numberText given

/-- The column that an update leaves. -/
def suppliedOr (column : Json) : Given → Json
  | .undefined => column
  | given => boundedJson numberText given

def CreateExecutionTaskInput.row (input : CreateExecutionTaskInput) (now : Int) : ExecutionTaskRow where
  id := input.id
  agentId := input.agentId
  sessionId := input.sessionId
  conversationId := input.conversationId
  userId := input.userId
  source := input.source.getD "unknown"
  status := input.status.getD .running
  startedAt := now
  lastEventAt := now
  completedAt := none
  finalSummary := .null
  error := .null
  metadata := input.metadata.getD (.object [])

def replayConflicts (row : ExecutionTaskRow) (input : CreateExecutionTaskInput) : Bool :=
  row.agentId != input.agentId || row.sessionId != input.sessionId ||
    row.conversationId != input.conversationId || row.userId != input.userId ||
    row.source != input.source.getD "unknown" || row.status != input.status.getD .running ||
    row.metadata.canonicalize != (input.metadata.getD (.object [])).canonicalize

/-- The row under the id, and what the call returns. -/
def createExecutionTaskIdempotent (stored : Option ExecutionTaskRow)
    (input : CreateExecutionTaskInput) (now : Int) : ExecutionTaskRow × Except String ExecutionTaskRow :=
  match stored with
  | none => (input.row now, .ok (input.row now))
  | some row =>
    if replayConflicts row input then
      (row, .error "execution task replay conflicts with prior write")
    else (row, .ok row)

/-- The row that the statement of `updateExecutionTaskStatus` leaves. -/
def updateExecutionTaskStatus (row : ExecutionTaskRow) (status : ExecutionTaskStatus)
    (updates : StatusUpdates) (clientNow now : Int) : ExecutionTaskRow :=
  let statusIsTerminal := isTerminalStatus status
  let completedAt := if statusIsTerminal then some clientNow else none
  let stays := isTerminalStatus row.status && !statusIsTerminal
  { row with
    status := if stays then row.status else status
    lastEventAt := now
    completedAt :=
      if stays then row.completedAt
      else if completedAt.isNone then row.completedAt
      else row.completedAt <|> completedAt
    finalSummary :=
      if stays then row.finalSummary
      else suppliedOr numberText row.finalSummary updates.finalSummary
    error := if stays then row.error else suppliedOr numberText row.error updates.error }

/-- The row after the second statement of `recordExecutionEvent`. -/
def recordedRow (row : ExecutionTaskRow) (input : RecordExecutionEventInput)
    (clientNow now : Int) : ExecutionTaskRow :=
  match input.status with
  | some status =>
    updateExecutionTaskStatus numberText row status input.toStatusUpdates clientNow now
  | none => { row with lastEventAt := now }

def insertedEvent (input : RecordExecutionEventInput) (id : Nat) (now : Int) : ExecutionEvent where
  id := id
  type := input.type
  message := input.message
  payload := boundedPayload numberText input.payload
  createdAt := now

end Writes

structure EventPage where
  events : List ExecutionEvent
  hasMoreEvents : Bool
  eventsTruncated : Bool
  nextCursor : Option Nat

def clampedLimit (limit : Option Int) : Nat := (min (max (limit.getD 50) 1) 200).toNat

/-- What `getExecutionTaskStatus` reads and returns of the log. -/
def eventPage (events : List ExecutionEvent) (afterEventId : Option Nat) (limit : Option Int) : EventPage :=
  let limit := clampedLimit limit
  let byId : List ExecutionEvent := events.insertionSort fun first second => first.id ≤ second.id
  let rows :=
    match afterEventId with
    | some cursor => (byId.filter fun (event : ExecutionEvent) => decide (cursor < event.id)).take (limit + 1)
    | none => (byId.reverse.take (limit + 1)).reverse
  let hasMoreEvents := decide (limit < rows.length)
  let shown := if afterEventId.isNone && hasMoreEvents then rows.drop 1 else rows.take limit
  { events := shown
    hasMoreEvents
    eventsTruncated := afterEventId.isNone && hasMoreEvents
    nextCursor := shown.getLast?.map ExecutionEvent.id }

/-- A client with the last cursor it was given.  `polled` and `seen` are the events recorded when it
got its first page and its first page with events, `shown` are the events of the latter and
`received` those of the later pages; no poll reads the four. -/
structure PollingClient where
  cursor : Option Nat
  polled : Option (List ExecutionEvent)
  seen : List ExecutionEvent
  shown : List ExecutionEvent
  received : List ExecutionEvent

def PollingClient.start : PollingClient := ⟨none, none, [], [], []⟩

def PollingClient.poll (client : PollingClient) (events : List ExecutionEvent) (limit : Option Int) : PollingClient :=
  let page := eventPage events client.cursor limit
  let polled := some (client.polled.getD events)
  match client.cursor, page.nextCursor with
  | _, none => { client with polled }
  | none, some cursor =>
    { cursor := some cursor, polled, seen := events, shown := page.events, received := [] }
  | some _, some cursor =>
    { client with cursor := some cursor, polled, received := client.received ++ page.events }

/-- A transaction of `recordExecutionEvent` that holds the row. -/
inductive EventWriter where
  | locked (input : RecordExecutionEventInput)
  | inserted (input : RecordExecutionEventInput) (event : ExecutionEvent)

/-- What is committed, the transaction that holds the row, and the client.  The creation's input is
read by no event. -/
structure TaskLog where
  creation : CreateExecutionTaskInput
  row : ExecutionTaskRow
  events : List ExecutionEvent
  nextEventId : Nat
  writer : Option EventWriter
  client : PollingClient

inductive LogEvent where
  | replay (input : CreateExecutionTaskInput) (now : Int)
  | updateStatus (status : ExecutionTaskStatus) (updates : StatusUpdates) (clientNow now : Int)
  | lock (input : RecordExecutionEventInput)
  | insert (now : Int)
  | commit (clientNow now : Int)
  | rollback
  | insertElsewhere
  | poll (limit : Option Int)

/-- A statement on the row waits for its lock.  The update of a locked row is one step with the
commit, since nobody sees the row in between. -/
def TaskLog.step (numberText : Rat → String) (log : TaskLog) : LogEvent → Option TaskLog
  | .replay input now =>
    some { log with row := (createExecutionTaskIdempotent (some log.row) input now).1 }
  | .updateStatus status updates clientNow now =>
    match log.writer with
    | none =>
      some { log with
        row := updateExecutionTaskStatus numberText log.row status updates clientNow now }
    | some _ => none
  | .lock input =>
    match log.writer with
    | none => some { log with writer := some (.locked input) }
    | some _ => none
  | .insert now =>
    match log.writer with
    | some (.locked input) =>
      some { log with
        nextEventId := log.nextEventId + 1
        writer := some (.inserted input (insertedEvent numberText input log.nextEventId now)) }
    | _ => none
  | .commit clientNow now =>
    match log.writer with
    | some (.inserted input event) =>
      some { log with
        row := recordedRow numberText log.row input clientNow now
        events := log.events ++ [event]
        writer := none }
    | _ => none
  | .rollback => some { log with writer := none }
  | .insertElsewhere => some { log with nextEventId := log.nextEventId + 1 }
  | .poll limit => some { log with client := log.client.poll log.events limit }

def TaskLog.created (creation : CreateExecutionTaskInput) (now : Int) (nextEventId : Nat) : TaskLog where
  creation := creation
  row := creation.row now
  events := []
  nextEventId := nextEventId
  writer := none
  client := PollingClient.start

def logMachine (numberText : Rat → String) : Machine TaskLog LogEvent where
  starts log := ∃ creation now nextEventId, log = TaskLog.created creation now nextEventId
  step := TaskLog.step numberText

end Lobu.Executions
