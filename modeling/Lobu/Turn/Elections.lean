import Lobu.Turn.Liveness

namespace Lobu.Turn

open Lobu.Foundation Lobu.Queue

/-! # Elections

What the deletions of markers rest on: a marker stays pending, its key is that of
its turn, no turn has two, and one that an open reply has deleted is touched by no
one else.
-/

structure MarkerShape (row : Run TurnRouting) : Prop where
  status : row.status = .pending
  runType : row.runType = .internal
  queueName : row.queueName = turnTimeoutQueue
  expiresAt : row.expiresAt = none
  key : row.idempotencyKey = some row.actionInput.key

variable {deploymentName : DeploymentName}

theorem TurnRouting.isFor_iff {messageId : String}
    {routing : TurnRouting} : routing.isFor deploymentName messageId = true ↔
      routing.key = turnMarkerKey deploymentName messageId := by
  simp only [TurnRouting.isFor, Bool.and_eq_true, beq_iff_eq]
  constructor
  · rintro ⟨rfl, rfl⟩
    rfl
  · exact turnMarkerKey_inj

theorem MarkerShape.markerOf_iff {row : Run TurnRouting} (shape : MarkerShape row) {messageId : String} :
    markerOf deploymentName messageId row = true ↔ row.actionInput.isFor deploymentName messageId = true := by
  rw [TurnRouting.isFor_iff]
  simp [markerOf, shape.key, shape.status, shape.queueName]

/-- What an open reply has deleted, in the order of its ids, is still to be committed. -/
structure ReplyInvariant (markers : List (Run TurnRouting)) (reply : Reply) : Prop where
  ordered : ∃ done, dischargeIds reply.response = done ++ reply.remaining ∧
    (reply.deleted.map Prod.fst).Sublist done
  held : ∀ entry ∈ reply.deleted, ∃ row ∈ markers, row.id = entry.2 ∧
    row.actionInput.isFor reply.deploymentName entry.1 = true

structure TurnInvariant (state : TurnState) : Prop where
  shape : ∀ row ∈ state.markers, MarkerShape row
  below : ∀ row ∈ state.markers, row.id < state.nextId
  ids : (state.markers.map Run.id).Nodup
  keys : (state.markers.map fun row => row.actionInput.key).Nodup
  replies : ∀ reply ∈ state.replies, reply.isOpen = true → ReplyInvariant state.markers reply
  exclusive : ∀ (place other : Nat) (first second : Reply) (rowId : Nat),
    state.replies[place]? = some first →
    state.replies[other]? = some second → first.locks rowId = true → second.locks rowId = true →
      place = other

section Markers

variable {before after state : TurnState} {row : Run TurnRouting} {reply next : Reply}
variable {index : Nat} {reason : String}

theorem Reply.locks_iff {rowId : Nat} :
    reply.locks rowId = true ↔ reply.isOpen = true ∧ ∃ id, (id, rowId) ∈ reply.deleted := by
  simp [Reply.locks]

theorem ReplyInvariant.carry {markers later : List (Run TurnRouting)}
    (held : ReplyInvariant markers reply) (isOpen : reply.isOpen = true)
    (kept : ∀ row ∈ markers, reply.locks row.id = true →
      ∃ same ∈ later, same.id = row.id ∧ same.actionInput = row.actionInput) : ReplyInvariant later reply := by
  refine ⟨held.ordered, fun entry member => ?_⟩
  obtain ⟨row, rowMember, rowId, turn⟩ := held.held entry member
  have locked : reply.locks row.id = true :=
    Reply.locks_iff.mpr ⟨isOpen, entry.1, by rw [rowId]; exact member⟩
  obtain ⟨same, sameMember, sameId, sameInput⟩ := kept row rowMember locked
  exact ⟨same, sameMember, sameId.trans rowId, by rw [sameInput]; exact turn⟩

theorem TurnInvariant.markersStep (invariant : TurnInvariant before)
    (replies : after.replies = before.replies) (shape : ∀ row ∈ after.markers, MarkerShape row)
    (below : ∀ row ∈ after.markers, row.id < after.nextId) (ids : (after.markers.map Run.id).Nodup)
    (keys : (after.markers.map fun row => row.actionInput.key).Nodup)
    (kept : ∀ row ∈ before.markers, before.locked row = true →
      ∃ same ∈ after.markers, same.id = row.id ∧ same.actionInput = row.actionInput) : TurnInvariant after := by
  refine ⟨shape, below, ids, keys, fun reply member isOpen => ?_, ?_⟩
  · rw [replies] at member
    refine (invariant.replies reply member isOpen).carry isOpen fun row rowMember locks => ?_
    exact kept row rowMember (List.any_eq_true.mpr ⟨reply, member, locks⟩)
  · rw [replies]
    exact invariant.exclusive

theorem TurnInvariant.sameMarkers (invariant : TurnInvariant before)
    (markers : after.markers = before.markers) (nextId : after.nextId = before.nextId)
    (replies : after.replies = before.replies) : TurnInvariant after := by
  apply invariant.markersStep replies
  · rw [markers]
    exact invariant.shape
  · rw [markers, nextId]
    exact invariant.below
  · rw [markers]
    exact invariant.ids
  · rw [markers]
    exact invariant.keys
  · rw [markers]
    exact fun row member _ => ⟨row, member, rfl, rfl⟩

theorem TurnInvariant.delete (invariant : TurnInvariant before) {selects : Run TurnRouting → Bool}
    (markers : after.markers = deleteWhere selects before.markers)
    (nextId : after.nextId = before.nextId) (replies : after.replies = before.replies)
    (free : ∀ row ∈ before.markers, selects row = true → before.locked row = false) : TurnInvariant after := by
  have fewer : after.markers.Sublist before.markers := by
    rw [markers]
    exact List.filter_sublist
  refine invariant.markersStep replies (fun row member => invariant.shape row (fewer.subset member))
    (fun row member => ?_) (invariant.ids.sublist (fewer.map _))
    (invariant.keys.sublist (fewer.map _)) (fun row member locked => ?_)
  · rw [nextId]
    exact invariant.below row (fewer.subset member)
  · refine ⟨row, ?_, rfl, rfl⟩
    rw [markers, mem_deleteWhere]
    refine ⟨member, Bool.eq_false_iff.mpr fun selected => ?_⟩
    rw [free row member selected] at locked
    contradiction

theorem TurnInvariant.update (invariant : TurnInvariant before)
    {statement : RowUpdate (Run TurnRouting)} (markers : after.markers = statement.run before.markers)
    (nextId : after.nextId = before.nextId) (replies : after.replies = before.replies)
    (id : ∀ row, (statement.sets row).id = row.id) (input : ∀ row, (statement.sets row).actionInput = row.actionInput)
    (shape : ∀ row, MarkerShape row → MarkerShape (statement.sets row)) : TurnInvariant after := by
  have sameId := statement.onRow_column Run.id id
  have sameInput := statement.onRow_column Run.actionInput input
  have updated {property : Run TurnRouting → Prop} (held : ∀ row ∈ before.markers, property (statement.onRow row)) :
      ∀ row ∈ after.markers, property row := by
    intro row member
    rw [markers, RowUpdate.mem_run] at member
    obtain ⟨old, oldMember, rfl⟩ := member
    exact held old oldMember
  refine invariant.markersStep replies (updated fun row member => ?_) (updated fun row member => ?_)
    ?_ ?_ fun row member _ => ?_
  · unfold RowUpdate.onRow
    split
    · exact shape row (invariant.shape row member)
    · exact invariant.shape row member
  · rw [sameId, nextId]
    exact invariant.below row member
  · rw [markers, statement.run_column Run.id id]
    exact invariant.ids
  · rw [markers, statement.run_column (fun row => row.actionInput.key) fun row => by rw [input]]
    exact invariant.keys
  · refine ⟨statement.onRow row, ?_, sameId row, sameInput row⟩
    rw [markers, RowUpdate.mem_run]
    exact ⟨row, member, rfl⟩

theorem armRequest_shape (routing : TurnRouting) (id : Nat) (now : Instant) :
    MarkerShape ((armRequest routing).row id now) where
  status := rfl
  runType := by
    simp only [SendRequest.row, armRequest]
    decide
  queueName := rfl
  expiresAt := rfl
  key := rfl

theorem TurnInvariant.arm (invariant : TurnInvariant before) {routing : TurnRouting} {now : Instant}
    (markers : after.markers = before.markers ++ [(armRequest routing).row before.nextId now])
    (nextId : after.nextId = before.nextId + 1) (replies : after.replies = before.replies)
    (free : ∀ row ∈ before.markers, row.actionInput.key ≠ routing.key) : TurnInvariant after := by
  have appended {property : Run TurnRouting → Prop} (old : ∀ row ∈ before.markers, property row)
      (new : property ((armRequest routing).row before.nextId now)) :
      ∀ row ∈ after.markers, property row := by
    intro row member
    rw [markers] at member
    rcases List.mem_append.mp member with held | added
    · exact old row held
    · rw [List.mem_singleton.mp added]
      exact new
  refine invariant.markersStep replies (appended invariant.shape (armRequest_shape _ _ _))
    (appended (fun row member => ?_) ?_) ?_ ?_ fun row member _ => ⟨row, ?_, rfl, rfl⟩
  · have lower := invariant.below row member
    omega
  · show before.nextId < after.nextId
    omega
  · rw [markers, List.map_append, List.map_singleton]
    refine List.nodup_append.mpr ⟨invariant.ids, List.nodup_singleton _, ?_⟩
    intro first member second last
    obtain ⟨row, rowMember, rfl⟩ := List.mem_map.mp member
    have lower := invariant.below row rowMember
    rw [List.mem_singleton.mp last]
    show row.id ≠ before.nextId
    omega
  · rw [markers, List.map_append, List.map_singleton]
    refine List.nodup_append.mpr ⟨invariant.keys, List.nodup_singleton _, ?_⟩
    intro first member second last
    obtain ⟨row, rowMember, rfl⟩ := List.mem_map.mp member
    rw [List.mem_singleton.mp last]
    exact free row rowMember
  · rw [markers]
    exact List.mem_append_left _ member

section

variable (invariant : TurnInvariant state)
include invariant

theorem TurnInvariant.setReply (found : state.replies[index]? = some reply)
    (held : next.isOpen = true → ReplyInvariant state.markers next)
    (locks : ∀ rowId, next.locks rowId = true → reply.locks rowId = true ∨
      ∀ other ∈ state.replies, other.locks rowId = false) : TurnInvariant (state.setReply index next) := by
  refine ⟨invariant.shape, invariant.below, invariant.ids, invariant.keys, fun other member isOpen => ?_, ?_⟩
  · rcases List.mem_or_eq_of_mem_set member with old | rfl
    · exact invariant.replies other old isOpen
    · exact held isOpen
  · have alone {place rowId : Nat} {other : Reply} (stands : state.replies[place]? = some other)
        (moved : next.locks rowId = true) (locked : other.locks rowId = true) : place = index := by
      rcases locks rowId moved with before | free
      · exact invariant.exclusive place index other reply rowId stands found locked before
      · rw [free other (List.mem_of_getElem? stands)] at locked
        contradiction
    intro place other first second rowId firstAt secondAt firstLocks secondLocks
    rcases getElem?_set_cases firstAt with ⟨rfl, rfl⟩ | ⟨_, firstBefore⟩ <;>
      rcases getElem?_set_cases secondAt with ⟨rfl, rfl⟩ | ⟨_, secondBefore⟩
    · rfl
    · exact (alone secondBefore firstLocks secondLocks).symm
    · exact alone firstBefore secondLocks firstLocks
    · exact invariant.exclusive place other first second rowId firstBefore secondBefore firstLocks secondLocks

theorem TurnInvariant.closeReply (found : state.replies[index]? = some reply) :
    TurnInvariant (state.setReply index { reply with isOpen := false }) :=
  invariant.setReply found (fun isOpen => (by cases isOpen)) fun rowId locks => by
    simp [Reply.locks] at locks

theorem TurnInvariant.beginReply (deploymentName : DeploymentName)
    (response : ThreadResponse) (organizationId : Option String) :
    TurnInvariant { state with replies := state.replies ++
      [⟨deploymentName, response, organizationId, dischargeIds response, [], true⟩] } := by
  refine ⟨invariant.shape, invariant.below, invariant.ids, invariant.keys, fun reply member isOpen => ?_, ?_⟩
  · rcases List.mem_append.mp member with old | new
    · exact invariant.replies reply old isOpen
    · rw [List.mem_singleton.mp new]
      exact ⟨⟨[], rfl, List.Sublist.refl []⟩, fun entry member => absurd member List.not_mem_nil⟩
  · intro place other first second rowId firstAt secondAt firstLocks secondLocks
    rcases getElem?_append_singleton_cases firstAt with ⟨_, rfl⟩ | firstAt
    · simp [Reply.locks] at firstLocks
    rcases getElem?_append_singleton_cases secondAt with ⟨_, rfl⟩ | secondAt
    · simp [Reply.locks] at secondLocks
    · exact invariant.exclusive place other first second rowId firstAt secondAt firstLocks secondLocks

theorem TurnInvariant.replyDeletes (found : state.replies[index]? = some reply) (isOpen : reply.isOpen = true)
    (stepped : replyDeletesStep state index reply = some after) : TurnInvariant after := by
  have held := invariant.replies reply (List.mem_of_getElem? found) isOpen
  simp only [replyDeletesStep] at stepped
  split at stepped
  · contradiction
  rename_i messageId rest remaining
  obtain ⟨done, whole, ordered⟩ := held.ordered
  rw [remaining] at whole
  have advanced : dischargeIds reply.response = (done ++ [messageId]) ++ rest := by
    rw [whole, List.append_assoc, List.singleton_append]
  split at stepped
  · cases stepped
    refine invariant.setReply found (fun _ => ⟨⟨_, advanced, ?_⟩, held.held⟩) fun _ locks => .inl locks
    exact ordered.trans (List.sublist_append_left done [messageId])
  · rename_i row marker
    split at stepped
    · contradiction
    rename_i free
    cases stepped
    have member := List.mem_of_find?_eq_some marker
    have turn := (invariant.shape row member).markerOf_iff.mp (List.find?_some marker)
    refine invariant.setReply found (fun _ => ⟨⟨_, advanced, ?_⟩, fun entry entryMember => ?_⟩) fun rowId locks => ?_
    · rw [List.map_append, List.map_singleton]
      exact ordered.append (List.Sublist.refl [messageId])
    · rcases List.mem_append.mp entryMember with old | new
      · exact held.held entry old
      · rw [List.mem_singleton.mp new]
        exact ⟨row, member, rfl, turn⟩
    · obtain ⟨_, id, entryMember⟩ := Reply.locks_iff.mp locks
      rcases List.mem_append.mp entryMember with old | new
      · exact .inl (Reply.locks_iff.mpr ⟨isOpen, id, old⟩)
      · refine .inr fun other otherMember => ?_
        cases List.mem_singleton.mp new
        rw [TurnState.locked, Bool.not_eq_true, List.any_eq_false] at free
        simpa using free other otherMember

theorem TurnInvariant.replyCommits (found : state.replies[index]? = some reply) (isOpen : reply.isOpen = true) :
    TurnInvariant (replyCommitsStep state index reply) := by
  have closed := invariant.closeReply found
  unfold replyCommitsStep
  dsimp only
  split
  · exact closed
  · refine closed.delete rfl rfl rfl fun row member selected => ?_
    refine Bool.eq_false_iff.mpr fun locked => ?_
    have own : reply.locks row.id = true := by
      simpa [Reply.locks, isOpen] using selected
    obtain ⟨other, otherMember, locks⟩ := List.any_eq_true.mp locked
    obtain ⟨place, stands⟩ := List.mem_iff_getElem?.mp otherMember
    rcases getElem?_set_cases stands with ⟨_, rfl⟩ | ⟨different, before⟩
    · simp [Reply.locks] at locks
    · exact different (invariant.exclusive place index other reply row.id before found locks own)

end

end Markers

theorem MarkerShape.not_held {row : Run TurnRouting} (shape : MarkerShape row) (claimedBy : String)
    (runId : Nat) : heldBy claimedBy runId row = false := by
  simp [heldBy, shape.status]

/-- No statement of the queue selects a marker: none is claimed, and nothing claims
from their queue. -/
theorem run_markers {markers : List (Run TurnRouting)} (shape : ∀ row ∈ markers, MarkerShape row)
    {statement : RunsStatement} (outside : claimsTurns statement = false) : statement.run markers = markers := by
  have skipped {update : RowUpdate (Run TurnRouting)}
      (skips : ∀ row ∈ markers, update.selects row = false) : update.run markers = markers := by
    have same : ∀ row ∈ markers, update.onRow row = row := fun row member =>
      RowUpdate.onRow_skipped (skips row member)
    exact (List.map_congr_left same).trans (List.map_id' markers)
  rw [RunsStatement.run]
  split
  · rename_i update updates
    refine skipped fun row member => ?_
    have held := shape row member
    cases statement with
    | claimOne claimedBy queueName now locked =>
      obtain ⟨target, found, rfl⟩ := Option.map_eq_some_iff.mp updates
      have claimable_ := (nextRun_mem found).2
      have queue := (shape target (nextRun_mem found).1).queueName
      simp only [claimable, Bool.and_eq_true, beq_iff_eq] at claimable_
      rw [claimsTurns, ← claimable_.1.1.2, queue] at outside
      simp at outside
    | heartbeatClaim | markCompleted | markFailed | scheduleRetry =>
      cases updates
      exact held.not_held _ _
    | staleSweep | recoverStaleClaimedRowsOnStartup | releaseClaims =>
      cases updates
      simp [Queue.staleSweep, Queue.recoverStaleClaimedRowsOnStartup, Queue.releaseClaims, held.status]
  · rfl

theorem cleanup_markers {markers : List (Run TurnRouting)} (shape : ∀ row ∈ markers, MarkerShape row)
    (cleanup : RunsCleanup) : cleanup.run markers = markers := by
  refine List.filter_eq_self.mpr fun row member => ?_
  have held := shape row member
  cases cleanup <;> simp [RunsCleanup.removes, held.status, held.expiresAt, RunStatus.active]

theorem dischargeIds_terminalError (routing : TurnRouting) (reason : String) :
    dischargeIds (buildTerminalErrorPayload routing reason) = [routing.messageId] := by
  simp [dischargeIds, buildTerminalErrorPayload, addId]

theorem terminalError_answers {messageId reason : String}
    {marker : Run TurnRouting} {row : TerminalRow} (failed : terminalError reason marker = some row) :
    row.answers deploymentName messageId = marker.actionInput.isFor deploymentName messageId := by
  obtain ⟨routing, sound, rfl⟩ := Option.map_eq_some_iff.mp failed
  simp only [asTurnRouting] at sound
  split at sound
  · contradiction
  · cases sound
    simp only [TerminalRow.answers, dischargeIds_terminalError, TurnRouting.isFor,
      List.contains_cons, List.contains_nil, Bool.or_false]
    rw [BEq.comm (a := messageId)]

/-- The turn that an event arms. -/
def armTarget (state : TurnState) : TurnEvent → Option TurnRouting
  | .armTurnTimeout index _ _ =>
    ((state.dispatches[index]?).filter fun dispatch => dispatch.phase == .arming).map
      fun dispatch => dispatch.data.routing
  | _ => none

def Dispatch.terminates (digest : String → String) (receipts : List String) (dispatch : Dispatch) : Bool :=
  match dispatch.phase with
  | .terminating outcome _ =>
    !receipts.contains (dispatch.data.terminalCourseContextSingletonKey digest outcome)
  | .gating | .arming | .sending | .returned _ | .threw => false

/-- The message that an event answers without a worker. -/
def courseTarget (digest : String → String) (state : TurnState) : TurnEvent → Option MessageData
  | .deliverCourseContextTerminal index _ =>
    ((state.dispatches[index]?).filter (Dispatch.terminates digest state.receipts)).map
      Dispatch.data
  | _ => none

def Reply.wins (reply : Reply) : Bool :=
  reply.isOpen && reply.remaining.isEmpty && !reply.deleted.isEmpty

/-- The reply that an event commits. -/
def replyTarget (state : TurnState) : TurnEvent → Option Reply
  | .replyCommits index => (state.replies[index]?).filter Reply.wins
  | _ => none

inductive TurnEffect (digest : String → String) (before : TurnState) (event : TurnEvent)
    (after : TurnState) : Prop where
  | quiet (markers : after.markers = before.markers) (responses : after.responses = before.responses)
      (armed : after.armed = before.armed)
  | armedAgain (routing : TurnRouting)
      (pending : ∃ row ∈ before.markers, row.actionInput.key = routing.key)
      (markers : after.markers = before.markers) (responses : after.responses = before.responses)
      (armed : after.armed = before.armed ++ [routing])
  | armedAnew (routing : TurnRouting) (now : Instant)
      (target : armTarget before event = some routing)
      (free : ∀ row ∈ before.markers, row.actionInput.key ≠ routing.key)
      (markers : after.markers = before.markers ++ [(armRequest routing).row before.nextId now])
      (responses : after.responses = before.responses)
      (armed : after.armed = before.armed ++ [routing])
  | extended (deploymentName : DeploymentName) (now : Instant)
      (markers : after.markers = (extendStatement deploymentName now).run before.markers)
      (responses : after.responses = before.responses) (armed : after.armed = before.armed)
  | elected (selects : Run TurnRouting → Bool) (reason : String)
      (markers : after.markers = deleteWhere selects before.markers)
      (responses : after.responses = before.responses ++
        (before.markers.filter selects).filterMap (terminalError reason))
      (armed : after.armed = before.armed)
  | replied (reply : Reply) (target : replyTarget before event = some reply)
      (held : ReplyInvariant before.markers reply)
      (markers : after.markers =
        deleteWhere (fun row => (reply.deleted.map Prod.snd).contains row.id) before.markers)
      (responses : after.responses = before.responses ++ [reply.row])
      (armed : after.armed = before.armed)
  | gated (data : MessageData) (finalText : String)
      (target : courseTarget digest before event = some data)
      (markers : after.markers = before.markers)
      (responses : after.responses = before.responses ++ [data.courseTerminal finalText])
      (armed : after.armed = before.armed)

section Steps

variable {digest : String → String} {before after : TurnState} {event : TurnEvent}

theorem electAndFail_some {selects : Run TurnRouting → Bool} {reason : String}
    (stepped : before.electAndFail selects reason = some after) :
    (∀ row ∈ before.markers, selects row = true → before.locked row = false) ∧
      after = { before with
        markers := deleteWhere selects before.markers
        responses := before.responses ++
          (before.markers.filter selects).filterMap (terminalError reason) } := by
  unfold TurnState.electAndFail at stepped
  dsimp only at stepped
  split at stepped
  · contradiction
  · rename_i free
    cases stepped
    refine ⟨fun row member selected => ?_, rfl⟩
    simp only [List.any_eq_true, List.mem_filter, not_exists, not_and, Bool.not_eq_true] at free
    exact free row ⟨member, selected⟩

theorem TurnInvariant.elect (invariant : TurnInvariant before) {selects : Run TurnRouting → Bool}
    {reason : String} (stepped : before.electAndFail selects reason = some after) :
    TurnInvariant after ∧ TurnEffect digest before event after := by
  obtain ⟨free, rfl⟩ := electAndFail_some stepped
  exact ⟨invariant.delete rfl rfl rfl free, .elected selects reason rfl rfl rfl⟩

theorem filter_markerOf (invariant : TurnInvariant before) (deploymentName : DeploymentName) (messageId : String) :
    (before.markers.filter (markerOf deploymentName messageId)).length ≤ 1 := by
  have same : ∀ row ∈ before.markers.filter (markerOf deploymentName messageId),
      row.actionInput.key = turnMarkerKey deploymentName messageId := by
    intro row member
    obtain ⟨rowMember, marker⟩ := List.mem_filter.mp member
    exact TurnRouting.isFor_iff.mp ((invariant.shape row rowMember).markerOf_iff.mp marker)
  have once := invariant.keys.sublist
    ((List.filter_sublist (p := markerOf deploymentName messageId) (l := before.markers)).map
      fun row => row.actionInput.key)
  match rows : before.markers.filter (markerOf deploymentName messageId) with
  | [] => simp
  | [_] => simp
  | first :: second :: rest =>
    rw [rows] at same once
    have firstKey := same first List.mem_cons_self
    have secondKey := same second (List.mem_cons_of_mem _ List.mem_cons_self)
    simp [firstKey, secondKey] at once

/-- The key is unique, so the first row that `failTurnIfPending` deletes is the only one. -/
theorem failTurnIfPending_eq (invariant : TurnInvariant before) (deploymentName : DeploymentName)
    (messageId reason : String) : failTurnIfPending before deploymentName messageId reason =
      before.electAndFail (markerOf deploymentName messageId) reason := by
  have few := filter_markerOf invariant deploymentName messageId
  unfold failTurnIfPending TurnState.electAndFail
  dsimp only
  have same : ((before.markers.filter (markerOf deploymentName messageId)).head?.bind (terminalError reason)).toList =
        (before.markers.filter (markerOf deploymentName messageId)).filterMap
          (terminalError reason) := by
    match rows : before.markers.filter (markerOf deploymentName messageId) with
    | [] => rfl
    | [row] => cases failed : terminalError reason row <;> simp [failed]
    | first :: second :: rest =>
      rw [rows] at few
      simp at few
  rw [same]

theorem withDispatch_some {index : Nat} {next : Dispatch → Option TurnState}
    (stepped : withDispatch before index next = some after) :
    ∃ dispatch, before.dispatches[index]? = some dispatch ∧ next dispatch = some after :=
  Option.bind_eq_some_iff.mp stepped

theorem withReply_some {index : Nat} {next : Reply → Option TurnState}
    (stepped : withReply before index next = some after) :
    ∃ reply, before.replies[index]? = some reply ∧ reply.isOpen = true ∧ next reply = some after := by
  obtain ⟨reply, found, moved⟩ := Option.bind_eq_some_iff.mp stepped
  split at moved
  · rename_i isOpen
    exact ⟨reply, found, isOpen, moved⟩
  · contradiction

theorem TurnInvariant.setDispatch (invariant : TurnInvariant before) {index : Nat}
    {dispatch : Dispatch} {phase : DispatchPhase} : TurnInvariant (before.setDispatch index dispatch phase) :=
  invariant.sameMarkers rfl rfl rfl

theorem TurnInvariant.armStep (invariant : TurnInvariant before) {routing : TurnRouting}
    {now : Instant} (target : armTarget before event = some routing)
    (stepped : armStep before routing now = some after) (index : Nat) (dispatch : Dispatch) (phase : DispatchPhase) :
    TurnInvariant (after.setDispatch index dispatch phase) ∧
      TurnEffect digest before event (after.setDispatch index dispatch phase) := by
  simp only [Turn.armStep] at stepped
  split at stepped
  · contradiction
  split at stepped
  · rename_i row inserted
    cases stepped
    obtain ⟨rfl, unique⟩ := insertRun_some inserted
    have free : ∀ row ∈ before.markers, row.actionInput.key ≠ routing.key := by
      intro row member same
      have shape := invariant.shape row member
      have taken : runsIdempotencyKeyUniq.conflicts (some routing.key) before.markers = true := by
        refine PartialIndex.conflicts_iff.mpr ⟨routing.key, rfl, row, member, ?_⟩
        refine PartialIndex.holds_iff.mpr ⟨?_, ?_⟩
        · simp [runsIdempotencyKeyUniq, shape.status, RunStatus.active]
        · exact shape.key.trans (congrArg some same)
      rw [show (armRequest routing).idempotencyKey = some routing.key from rfl, taken] at unique
      contradiction
    exact ⟨invariant.arm rfl rfl rfl free, .armedAnew routing now target free rfl rfl rfl⟩
  · rename_i taken
    cases stepped
    refine ⟨invariant.sameMarkers rfl rfl rfl, .armedAgain routing ?_ rfl rfl rfl⟩
    simp only [insertRun] at taken
    split at taken
    · rename_i conflict
      obtain ⟨key, keyed, row, member, holds⟩ := PartialIndex.conflicts_iff.mp conflict
      have shape := invariant.shape row member
      have same := shape.key.symm.trans (PartialIndex.holds_iff.mp holds).2
      refine ⟨row, member, ?_⟩
      rw [Option.some.inj same]
      exact (Option.some.inj keyed).symm
    · contradiction

theorem TurnInvariant.step (invariant : TurnInvariant before) (stepped : turnStep digest before event = some after) :
    TurnInvariant after ∧ TurnEffect digest before event after := by
  cases event with
  | deliver data =>
    cases stepped
    exact ⟨invariant.sameMarkers rfl rfl rfl, .quiet rfl rfl rfl⟩
  | gate index result =>
    obtain ⟨dispatch, found, moved⟩ := withDispatch_some stepped
    split at moved
    · cases moved
      exact ⟨invariant.setDispatch, .quiet rfl rfl rfl⟩
    · contradiction
  | armTurnTimeout index now answered =>
    obtain ⟨dispatch, found, moved⟩ := withDispatch_some stepped
    split at moved
    · rename_i arming
      obtain ⟨armed, arms, rfl⟩ := Option.map_eq_some_iff.mp moved
      have target : armTarget before (.armTurnTimeout index now answered) = some dispatch.data.routing := by
        simp [armTarget, found, arming]
      exact invariant.armStep target arms index dispatch _
    · contradiction
  | sendToWorkerQueue index answered =>
    obtain ⟨dispatch, found, moved⟩ := withDispatch_some stepped
    split at moved
    · cases moved
      exact ⟨invariant.sameMarkers rfl rfl rfl, .quiet rfl rfl rfl⟩
    · contradiction
  | deliverCourseContextTerminal index answered =>
    obtain ⟨dispatch, found, moved⟩ := withDispatch_some stepped
    split at moved
    · rename_i outcome finalText terminating
      dsimp only at moved
      split at moved
      · cases moved
        exact ⟨invariant.setDispatch, .quiet rfl rfl rfl⟩
      · rename_i new
        have fresh : dispatch.data.terminalCourseContextSingletonKey digest outcome ∉
          before.receipts := by simpa using new
        cases moved
        refine ⟨invariant.sameMarkers rfl rfl rfl, .gated dispatch.data finalText ?_ rfl rfl rfl⟩
        simp [courseTarget, found, Dispatch.terminates, terminating, fresh]
    · contradiction
  | dispatchThrows index =>
    obtain ⟨dispatch, found, moved⟩ := withDispatch_some stepped
    split at moved
    · contradiction
    · contradiction
    all_goals
      cases moved
      exact ⟨invariant.setDispatch, .quiet rfl rfl rfl⟩
  | extendTurnDeadlines deploymentName now =>
    simp only [turnStep] at stepped
    split at stepped
    · contradiction
    · cases stepped
      refine ⟨invariant.update rfl rfl rfl (fun _ => rfl) (fun _ => rfl) fun row shape => ?_,
        .extended deploymentName now rfl rfl rfl⟩
      exact ⟨shape.status, shape.runType, shape.queueName, shape.expiresAt, shape.key⟩
  | failTurnsForDeployment deploymentName reason => exact invariant.elect stepped
  | sweepExpiredTurns chosen now reason =>
    simp only [turnStep] at stepped
    split at stepped
    · exact invariant.elect stepped
    · contradiction
  | failTurnIfPending deploymentName messageId reason =>
    simp only [turnStep, failTurnIfPending_eq invariant] at stepped
    exact invariant.elect stepped
  | workerResponse deploymentName response organizationId =>
    simp only [turnStep] at stepped
    split at stepped
    · cases stepped
      exact ⟨invariant.beginReply deploymentName response organizationId, .quiet rfl rfl rfl⟩
    · contradiction
  | replyDeletes index =>
    obtain ⟨reply, found, isOpen, moved⟩ := withReply_some stepped
    refine ⟨invariant.replyDeletes found isOpen moved, ?_⟩
    simp only [replyDeletesStep] at moved
    split at moved
    · contradiction
    split at moved
    · cases moved
      exact .quiet rfl rfl rfl
    split at moved
    · contradiction
    · cases moved
      exact .quiet rfl rfl rfl
  | replyCommits index =>
    obtain ⟨reply, found, isOpen, moved⟩ := withReply_some stepped
    split at moved
    · rename_i finished
      cases moved
      refine ⟨invariant.replyCommits found isOpen, ?_⟩
      unfold replyCommitsStep
      dsimp only
      split
      · exact .quiet rfl rfl rfl
      · rename_i won
        refine .replied reply ?_ (invariant.replies reply (List.mem_of_getElem? found) isOpen)
          rfl rfl rfl
        simp [replyTarget, found, Reply.wins, isOpen, finished, won]
    · contradiction
  | replyAborts index =>
    obtain ⟨reply, found, _, moved⟩ := withReply_some stepped
    cases moved
    exact ⟨invariant.closeReply found, .quiet rfl rfl rfl⟩
  | statement statement =>
    simp only [turnStep] at stepped
    split at stepped
    · contradiction
    · rename_i outside
      cases stepped
      have same := run_markers invariant.shape (by simpa using outside)
      exact ⟨invariant.sameMarkers same rfl rfl, .quiet same rfl rfl⟩
  | cleanup cleanup =>
    cases stepped
    have same := cleanup_markers invariant.shape cleanup
    exact ⟨invariant.sameMarkers same rfl rfl, .quiet same rfl rfl⟩
  | receiptsSwept swept =>
    cases stepped
    exact ⟨invariant.sameMarkers rfl rfl rfl, .quiet rfl rfl rfl⟩

end Steps

theorem liveness_invariant {digest : String → String} {allowed : Discipline TurnState TurnEvent}
    {state : TurnState} (reached : (liveness digest).Reachable allowed state) : TurnInvariant state := by
  apply reached.invariant
  · intro state begins
    subst begins
    exact ⟨fun _ member => absurd member List.not_mem_nil,
      fun _ member => absurd member List.not_mem_nil, List.nodup_nil, List.nodup_nil,
      fun _ member => absurd member List.not_mem_nil, fun _ _ _ _ _ found => (by cases found)⟩
  · intro before event after _ invariant _ stepped
    exact (invariant.step stepped).1

end Lobu.Turn
