import Lobu.Foundation.Machine
import Lobu.Queue.Statement

namespace Lobu.Turn

open Lobu.Foundation Lobu.Queue

/-! # Turn liveness

The marker rows of `internal:turn_timeout`, the terminal `thread_response` rows and
the code that trades one for the other, in any number of gateway processes.  Every
transaction with a single statement that others can see is one step, and one that
rolls back is none; `commitTerminalReply` deletes its markers one statement at a
time, so others may come in between, but not to a marker it has deleted.

`responses` lists the terminal rows that were ever committed and `armed` the turns
for which `armTurnTimeout` has committed.  No function reads the two.
-/

/-- A name made by `generateDeploymentName`: letters, digits and hyphens. -/
structure DeploymentName where
  name : String
  plain : ':' ∉ name.toList
deriving DecidableEq

def turnTimeoutQueue : String := "internal:turn_timeout"

def turnMarkerKey (deploymentName : DeploymentName) (messageId : String) : String :=
  deploymentName.name ++ ":" ++ messageId

theorem takeWhile_name {name rest : List Char} (plain : ':' ∉ name) :
    (name ++ ':' :: rest).takeWhile (· != ':') = name := by
  rw [List.takeWhile_append_of_pos]
  · simp
  · intro char member
    have other : char ≠ ':' := fun same => plain (same ▸ member)
    simpa using other

theorem turnMarkerKey_inj {first second : DeploymentName} {firstId secondId : String}
    (same : turnMarkerKey first firstId = turnMarkerKey second secondId) : first = second ∧ firstId = secondId := by
  have chars := congrArg String.toList same
  have colon : (":" : String).toList = [':'] := rfl
  simp only [turnMarkerKey, String.toList_append, List.append_assoc, colon, List.singleton_append] at chars
  have names : first.name.toList = second.name.toList := by
    have cut := congrArg (List.takeWhile (· != ':')) chars
    rwa [takeWhile_name first.plain, takeWhile_name second.plain] at cut
  rw [names] at chars
  have ids := (List.cons.inj (List.append_cancel_left chars)).2
  refine ⟨?_, String.toList_inj.mp ids⟩
  cases first
  cases second
  cases String.toList_inj.mp names
  rfl

structure TurnRouting where
  messageId : String
  channelId : Option String := none
  conversationId : Option String := none
  userId : Option String := none
  platform : Option String := none
  platformMetadata : Option String := none
  deploymentName : DeploymentName
  organizationId : Option String := none
deriving DecidableEq

/-- The checks on the other fields always pass for a routing that was armed. -/
def asTurnRouting (routing : TurnRouting) : Option TurnRouting :=
  if routing.messageId = "" then none else some routing

namespace TurnRouting

def key (routing : TurnRouting) : String :=
  turnMarkerKey routing.deploymentName routing.messageId

def isFor (deploymentName : DeploymentName) (messageId : String) (routing : TurnRouting) : Bool :=
  routing.deploymentName == deploymentName && routing.messageId == messageId

end TurnRouting

/-- The payload of a terminal row.  An entry of `processedMessageIds` that is no
string is `none`. -/
structure ThreadResponse where
  messageId : Option String := none
  processedMessageIds : List (Option String) := []
  error : Option String := none
  finalText : Option String := none
  channelId : Option String := none
  conversationId : Option String := none
  userId : Option String := none
  teamId : Option String := none
  platform : Option String := none
  platformMetadata : Option String := none
deriving DecidableEq

/-- `isTerminalResponse` of `handleWorkerResponse`. -/
def ThreadResponse.isTerminal (response : ThreadResponse) : Bool :=
  (response.error.any fun error => error != "") || !response.processedMessageIds.isEmpty

def addId (ids : List String) (id : String) : List String :=
  if ids.contains id then ids else ids ++ [id]

/-- The ids that a terminal payload answers, each once. -/
def dischargeIds (response : ThreadResponse) : List String :=
  (response.messageId.toList ++ response.processedMessageIds.filterMap id).foldl addId []

/-- A terminal row of `thread_response`, with the deployment whose turns it answers. -/
structure TerminalRow where
  deploymentName : DeploymentName
  response : ThreadResponse
  organizationId : Option String
deriving DecidableEq

def TerminalRow.answers (deploymentName : DeploymentName) (messageId : String) (row : TerminalRow) : Bool :=
  row.deploymentName == deploymentName && (dischargeIds row.response).contains messageId

def buildTerminalErrorPayload (routing : TurnRouting) (reason : String) : ThreadResponse where
  messageId := some routing.messageId
  channelId := routing.channelId
  conversationId := routing.conversationId
  userId := routing.userId
  teamId := some (routing.platform.getD "api")
  platform := some (routing.platform.getD "api")
  platformMetadata := routing.platformMetadata
  error := some reason
  processedMessageIds := [some routing.messageId]

/-- `enqueueTerminalError`, for a marker whose routing is sound. -/
def terminalError (reason : String) (marker : Run TurnRouting) : Option TerminalRow :=
  (asTurnRouting marker.actionInput).map fun routing =>
    { deploymentName := routing.deploymentName
      response := buildTerminalErrorPayload routing reason
      organizationId := routing.organizationId }

/-- The message of a `messages` row, with the deployment computed from it; `teamId`
is its own or that of its metadata. -/
structure MessageData where
  messageId : String
  conversationId : String
  deploymentName : DeploymentName
  channelId : Option String := none
  userId : Option String := none
  agentId : Option String := none
  teamId : Option String := none
  platform : Option String := none
  platformMetadata : Option String := none
  organizationId : Option String := none

namespace MessageData

def routing (data : MessageData) : TurnRouting where
  messageId := data.messageId
  channelId := data.channelId
  conversationId := some data.conversationId
  userId := data.userId
  platform := data.platform
  platformMetadata := data.platformMetadata
  deploymentName := data.deploymentName
  organizationId := data.organizationId

def nonempty (text : Option String) : Option String :=
  text.filter fun text => decide (text ≠ "")

def buildCanonicalConversationKey (data : MessageData) : String :=
  match nonempty data.platform, nonempty data.channelId with
  | some platform, some channelId => platform ++ ":" ++ channelId ++ ":" ++ data.conversationId
  | none, some channelId => channelId ++ ":" ++ data.conversationId
  | _, none => data.conversationId

def identity (data : MessageData) : String :=
  data.organizationId.getD "" ++ "\x00" ++ data.agentId.getD "" ++ "\x00" ++
    data.buildCanonicalConversationKey ++ "\x00" ++ data.messageId

def workerMessageSingletonKey (digest : String → String) (data : MessageData) : String :=
  "worker-message:" ++ digest data.identity

def terminalCourseContextSingletonKey (digest : String → String) (data : MessageData) (outcome : String) : String :=
  "course-terminal:" ++ digest (data.identity ++ "\x00" ++ outcome)

/-- The row that `deliverCourseContextTerminal` sends. -/
def courseTerminal (data : MessageData) (finalText : String) : TerminalRow where
  deploymentName := data.deploymentName
  response := {
    messageId := some data.messageId
    processedMessageIds := [some data.messageId]
    finalText := some finalText
    channelId := data.channelId
    conversationId := some data.conversationId
    userId := data.userId
    teamId := some (data.teamId.getD "")
    platform := data.platform
    platformMetadata := data.platformMetadata }
  organizationId := data.organizationId

end MessageData

/-- What the course context gate comes to: go on to the worker, nothing to do, or a
terminal answer, by its outcome and its text. -/
inductive GateResult where
  | ready
  | alreadyDispatched
  | terminal (outcome finalText : String)

inductive DispatchPhase where
  | gating
  | arming
  | sending
  | terminating (outcome finalText : String)
  | returned (workerDispatched : Bool)
  | threw
deriving DecidableEq

/-- One call of `dispatchCourseContextBoundary`; a redelivered row makes another. -/
structure Dispatch where
  data : MessageData
  phase : DispatchPhase

/-- One call of `commitTerminalReply`.  `deleted` holds the ids whose marker it has
deleted, each with the id of the marker's row. -/
structure Reply where
  deploymentName : DeploymentName
  response : ThreadResponse
  organizationId : Option String
  remaining : List String
  deleted : List (String × Nat)
  isOpen : Bool

def Reply.row (reply : Reply) : TerminalRow where
  deploymentName := reply.deploymentName
  response := reply.response
  organizationId := reply.organizationId

def Reply.locks (reply : Reply) (rowId : Nat) : Bool :=
  reply.isOpen && (reply.deleted.map Prod.snd).contains rowId

structure TurnState where
  markers : List (Run TurnRouting)
  nextId : Nat
  responses : List TerminalRow
  receipts : List String
  dispatches : List Dispatch
  replies : List Reply
  armed : List TurnRouting

/-- `answered` is false when a send throws although it was committed. -/
inductive TurnEvent where
  | deliver (data : MessageData)
  | gate (dispatch : Nat) (result : GateResult)
  | armTurnTimeout (dispatch : Nat) (now : Instant) (answered : Bool)
  | sendToWorkerQueue (dispatch : Nat) (answered : Bool)
  | deliverCourseContextTerminal (dispatch : Nat) (answered : Bool)
  | dispatchThrows (dispatch : Nat)
  | extendTurnDeadlines (deploymentName : DeploymentName) (now : Instant)
  | failTurnsForDeployment (deploymentName : DeploymentName) (reason : String)
  | sweepExpiredTurns (chosen : List Nat) (now : Instant) (reason : String)
  | failTurnIfPending (deploymentName : DeploymentName) (messageId reason : String)
  | workerResponse (deploymentName : DeploymentName) (response : ThreadResponse)
      (organizationId : Option String)
  | replyDeletes (reply : Nat)
  | replyCommits (reply : Nat)
  | replyAborts (reply : Nat)
  | statement (statement : RunsStatement)
  | cleanup (cleanup : RunsCleanup)
  | receiptsSwept (swept : List String)

def defaultDeadlineMs : Int := 60000

def armRequest (routing : TurnRouting) : SendRequest TurnRouting where
  queueName := turnTimeoutQueue
  data := routing
  dataOrganizationId := routing.organizationId
  options := {
    delayMs := some defaultDeadlineMs
    singletonKey := some routing.key }

def pendingMarker (row : Run TurnRouting) : Bool :=
  row.status == .pending && row.runType == .internal && row.queueName == turnTimeoutQueue

/-- `Math.ceil` of the deadline in seconds leaves whole seconds as they are. -/
def extendStatement (deploymentName : DeploymentName) (now : Instant) : RowUpdate (Run TurnRouting) where
  selects row := pendingMarker row && row.actionInput.deploymentName == deploymentName
  sets row := { row with runAt := now + defaultDeadlineMs }

def markerOf (deploymentName : DeploymentName) (messageId : String) (row : Run TurnRouting) : Bool :=
  row.idempotencyKey == some (turnMarkerKey deploymentName messageId) && row.status == .pending &&
    row.queueName == turnTimeoutQueue

namespace TurnState

def initial : TurnState where
  markers := []
  nextId := 1
  responses := []
  receipts := []
  dispatches := []
  replies := []
  armed := []

def setDispatch (state : TurnState) (index : Nat) (dispatch : Dispatch) (phase : DispatchPhase) : TurnState :=
  { state with dispatches := state.dispatches.set index { dispatch with phase } }

def setReply (state : TurnState) (index : Nat) (reply : Reply) : TurnState :=
  { state with replies := state.replies.set index reply }

/-- Some open transaction has deleted the marker: others wait for it or skip it. -/
def locked (state : TurnState) (row : Run TurnRouting) : Bool :=
  state.replies.any fun reply => reply.locks row.id

/-- `DELETE … RETURNING action_input` and the terminal error for each row, in one
transaction. -/
def electAndFail (state : TurnState) (selects : Run TurnRouting → Bool) (reason : String) : Option TurnState :=
  let rows := state.markers.filter selects
  if rows.any state.locked then none
  else some { state with
    markers := deleteWhere selects state.markers
    responses := state.responses ++ rows.filterMap (terminalError reason) }

end TurnState

/-- The insert waits while the row it is in conflict with is being deleted. -/
def armStep (state : TurnState) (routing : TurnRouting) (now : Instant) : Option TurnState :=
  if state.markers.any fun row => row.idempotencyKey == some routing.key && state.locked row then
    none
  else
    match insertRun (armRequest routing) state.nextId now state.markers with
    | some row => some { state with
        markers := state.markers ++ [row]
        nextId := state.nextId + 1
        armed := state.armed ++ [routing] }
    | none => some { state with armed := state.armed ++ [routing] }

def failTurnIfPending (state : TurnState) (deploymentName : DeploymentName)
    (messageId reason : String) : Option TurnState :=
  let selects := markerOf deploymentName messageId
  let rows := state.markers.filter selects
  if rows.any state.locked then none
  else some { state with
    markers := deleteWhere selects state.markers
    responses := state.responses ++ (rows.head?.bind (terminalError reason)).toList }

def replyDeletesStep (state : TurnState) (index : Nat) (reply : Reply) : Option TurnState :=
  match reply.remaining with
  | [] => none
  | messageId :: rest =>
    match state.markers.find? (markerOf reply.deploymentName messageId) with
    | none => some (state.setReply index { reply with remaining := rest })
    | some row =>
      if state.locked row then none
      else some (state.setReply index { reply with
        remaining := rest
        deleted := reply.deleted ++ [(messageId, row.id)] })

def replyCommitsStep (state : TurnState) (index : Nat) (reply : Reply) : TurnState :=
  let closed := state.setReply index { reply with isOpen := false }
  if reply.deleted.isEmpty then closed
  else { closed with
    markers := deleteWhere (fun row => (reply.deleted.map Prod.snd).contains row.id) state.markers
    responses := state.responses ++ [reply.row] }

def withDispatch (state : TurnState) (index : Nat) (next : Dispatch → Option TurnState) : Option TurnState :=
  (state.dispatches[index]?).bind next

def withReply (state : TurnState) (index : Nat) (next : Reply → Option TurnState) : Option TurnState :=
  (state.replies[index]?).bind fun reply => if reply.isOpen then next reply else none

/-- The turn-timeout queue has no consumer, so nothing claims from it. -/
def claimsTurns : RunsStatement → Bool
  | .claimOne _ queueName _ _ => queueName == turnTimeoutQueue
  | .heartbeatClaim _ _ _ | .markCompleted _ _ _ | .markFailed _ _ _ _ | .scheduleRetry _ _ _ _ _
  | .staleSweep _ | .recoverStaleClaimedRowsOnStartup _ | .releaseClaims _ => false

def turnStep (digest : String → String) (state : TurnState) : TurnEvent → Option TurnState
  | .deliver data =>
    some { state with dispatches := state.dispatches ++ [{ data, phase := .gating }] }
  | .gate index result =>
    withDispatch state index fun dispatch =>
      if dispatch.phase = .gating then
        some (state.setDispatch index dispatch (match result with
          | .ready => .arming
          | .alreadyDispatched => .returned false
          | .terminal outcome finalText => .terminating outcome finalText))
      else none
  | .armTurnTimeout index now answered =>
    withDispatch state index fun dispatch =>
      if dispatch.phase = .arming then
        (armStep state dispatch.data.routing now).map fun armed =>
          armed.setDispatch index dispatch (if answered then .sending else .threw)
      else none
  -- A durable send of a key that has its receipt inserts nothing.
  | .sendToWorkerQueue index answered =>
    withDispatch state index fun dispatch =>
      if dispatch.phase = .sending then
        let key := dispatch.data.workerMessageSingletonKey digest
        some ({ state with
          receipts := if state.receipts.contains key then state.receipts
            else state.receipts ++ [key] }.setDispatch index dispatch
              (if answered then .returned true else .threw))
      else none
  | .deliverCourseContextTerminal index answered =>
    withDispatch state index fun dispatch =>
      match dispatch.phase with
      | .terminating outcome finalText =>
        let key := dispatch.data.terminalCourseContextSingletonKey digest outcome
        let sent := if state.receipts.contains key then state else { state with
          receipts := state.receipts ++ [key]
          responses := state.responses ++ [dispatch.data.courseTerminal finalText] }
        some (sent.setDispatch index dispatch (if answered then .returned false else .threw))
      | _ => none
  | .dispatchThrows index =>
    withDispatch state index fun dispatch =>
      match dispatch.phase with
      | .returned _ | .threw => none
      | .gating | .arming | .sending | .terminating _ _ =>
        some (state.setDispatch index dispatch .threw)
  | .extendTurnDeadlines deploymentName now =>
    let statement := extendStatement deploymentName now
    if (state.markers.filter statement.selects).any state.locked then none
    else some { state with markers := statement.run state.markers }
  | .failTurnsForDeployment deploymentName reason =>
    state.electAndFail (fun row =>
      pendingMarker row && row.actionInput.deploymentName == deploymentName) reason
  | .sweepExpiredTurns chosen now reason =>
    if chosen.length ≤ 200 then
      state.electAndFail (fun row =>
        pendingMarker row && decide (row.runAt < now) && chosen.contains row.id) reason
    else none
  | .failTurnIfPending deploymentName messageId reason =>
    failTurnIfPending state deploymentName messageId reason
  | .workerResponse deploymentName response organizationId =>
    if response.isTerminal then
      some { state with replies := state.replies ++ [{
        deploymentName, response, organizationId
        remaining := dischargeIds response
        deleted := []
        isOpen := true }] }
    else none
  | .replyDeletes index => withReply state index (replyDeletesStep state index)
  | .replyCommits index =>
    withReply state index fun reply =>
      if reply.remaining.isEmpty then some (replyCommitsStep state index reply) else none
  | .replyAborts index =>
    withReply state index fun reply => some (state.setReply index { reply with isOpen := false })
  | .statement statement =>
    if claimsTurns statement then none
    else some { state with markers := statement.run state.markers }
  | .cleanup cleanup => some { state with markers := cleanup.run state.markers }
  | .receiptsSwept swept =>
    some { state with receipts := state.receipts.filter fun key => !swept.contains key }

/-- `digest` is SHA-256 in hexadecimal. -/
def liveness (digest : String → String) : Machine TurnState TurnEvent where
  starts state := state = TurnState.initial
  step := turnStep digest

def workerName : DeploymentName where
  name := "lobu-worker-api-0123456789ab"
  plain := by decide

def messageFor (messageId : String) : MessageData where
  messageId
  conversationId := "conversation"
  deploymentName := workerName

end Lobu.Turn
