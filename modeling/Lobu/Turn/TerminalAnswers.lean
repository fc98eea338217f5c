import Lobu.Turn.Elections

namespace Lobu.Turn

open Lobu.Foundation Lobu.Queue

/-! # At most one terminal answer

A marker is the right to one terminal answer.  The code hands a second one out when
a redelivered message is armed again after its answer, or when the course gate
answers a turn that has one; and a batched reply uses the right of one turn for all
of its own.
-/

/-- The turn has its marker. -/
def TurnState.awaits (state : TurnState) (deploymentName : DeploymentName) (messageId : String) : Bool :=
  state.markers.any fun row => row.actionInput.isFor deploymentName messageId

def TurnState.answered (state : TurnState) (deploymentName : DeploymentName) (messageId : String) : Bool :=
  state.responses.any fun row => row.answers deploymentName messageId

/-- The turn has neither marker nor answer. -/
def TurnState.untouched (state : TurnState) (deploymentName : DeploymentName) (messageId : String) : Bool :=
  !state.awaits deploymentName messageId && !state.answered deploymentName messageId

def Reply.discharged (reply : Reply) (messageId : String) : Bool :=
  (reply.deleted.map Prod.fst).contains messageId

/-- No turn gets a marker after its answer, and what answers a turn has deleted its
marker or finds it without one and unanswered. -/
def SingleElection (digest : String → String) : Discipline TurnState TurnEvent :=
  fun state event =>
    (∀ routing ∈ armTarget state event,
      state.answered routing.deploymentName routing.messageId = false) ∧
    (∀ data ∈ courseTarget digest state event,
      state.untouched data.deploymentName data.messageId = true) ∧
    ∀ reply ∈ replyTarget state event, ∀ messageId ∈ dischargeIds reply.response,
      reply.discharged messageId = true ∨ state.untouched reply.deploymentName messageId = true

instance (digest : String → String) (state : TurnState) (event : TurnEvent) :
    Decidable (SingleElection digest state event) := by
  unfold SingleElection
  infer_instance

/-- Of each turn there is a marker, or an answer, or neither. -/
def OneAnswer (state : TurnState) : Prop :=
  ∀ deploymentName messageId, state.responses.countP (TerminalRow.answers deploymentName messageId) +
    state.markers.countP (fun row => row.actionInput.isFor deploymentName messageId) ≤ 1

section Steps

variable {digest : String → String} {before after : TurnState} {event : TurnEvent}
variable {deploymentName : DeploymentName} {messageId : String}

theorem dischargeIds_courseTerminal (data : MessageData) (finalText : String) :
    dischargeIds (data.courseTerminal finalText).response = [data.messageId] := by
  simp [dischargeIds, MessageData.courseTerminal, addId]

theorem countP_terminalErrors (deploymentName : DeploymentName) (messageId reason : String)
    (markers : List (Run TurnRouting)) :
    (markers.filterMap (terminalError reason)).countP (TerminalRow.answers deploymentName messageId) ≤
      markers.countP fun row => row.actionInput.isFor deploymentName messageId := by
  induction markers with
  | nil => exact Nat.le_refl 0
  | cons marker rest ih =>
    rw [List.countP_cons]
    cases failed : terminalError reason marker with
    | none =>
      rw [List.filterMap_cons_none failed]
      omega
    | some row =>
      rw [List.filterMap_cons_some failed, List.countP_cons, terminalError_answers failed]
      omega

theorem unanswered_count (unanswered : before.answered deploymentName messageId = false) :
    before.responses.countP (TerminalRow.answers deploymentName messageId) = 0 := by
  simpa [TurnState.answered, List.countP_eq_zero] using unanswered

theorem unmarked_count (unmarked : before.awaits deploymentName messageId = false) :
    before.markers.countP (fun row => row.actionInput.isFor deploymentName messageId) = 0 := by
  simpa [TurnState.awaits, List.countP_eq_zero] using unmarked

theorem untouched_counts (untouched : before.untouched deploymentName messageId = true) :
    before.responses.countP (TerminalRow.answers deploymentName messageId) = 0 ∧
      before.markers.countP (fun row => row.actionInput.isFor deploymentName messageId) = 0 := by
  simp only [TurnState.untouched, Bool.and_eq_true, Bool.not_eq_true'] at untouched
  exact ⟨unanswered_count untouched.2, unmarked_count untouched.1⟩

theorem ReplyInvariant.discharged_count {reply : Reply}
    (held : ReplyInvariant before.markers reply) (discharged : reply.discharged messageId = true) :
    0 < (before.markers.filter fun row => (reply.deleted.map Prod.snd).contains row.id).countP
      fun row => row.actionInput.isFor reply.deploymentName messageId := by
  simp only [Reply.discharged, List.contains_iff_mem, List.mem_map] at discharged
  obtain ⟨entry, entryMember, rfl⟩ := discharged
  obtain ⟨row, member, rowId, turn⟩ := held.held entry entryMember
  refine List.countP_pos_iff.mpr ⟨row, List.mem_filter.mpr ⟨member, ?_⟩, turn⟩
  rw [rowId]
  simpa using ⟨entry.1, entryMember⟩

theorem OneAnswer.replied (one : OneAnswer before) {reply : Reply} (held : ReplyInvariant before.markers reply)
    (each : ∀ messageId ∈ dischargeIds reply.response,
      reply.discharged messageId = true ∨ before.untouched reply.deploymentName messageId = true)
    (markers : after.markers = deleteWhere (fun row => (reply.deleted.map Prod.snd).contains row.id) before.markers)
    (responses : after.responses = before.responses ++ [reply.row]) : OneAnswer after := by
  intro deploymentName messageId
  have account := one deploymentName messageId
  have cut := countP_deleteWhere (fun row => (reply.deleted.map Prod.snd).contains row.id)
    (fun row : Run TurnRouting => row.actionInput.isFor deploymentName messageId) before.markers
  rw [responses, markers, List.countP_append, List.countP_singleton]
  split
  · rename_i answers
    simp only [TerminalRow.answers, Reply.row, Bool.and_eq_true, beq_iff_eq, List.contains_iff_mem] at answers
    obtain ⟨rfl, answered⟩ := answers
    rcases each messageId answered with discharged | untouched
    · have taken := held.discharged_count discharged
      omega
    · obtain ⟨unanswered, unmarked⟩ := untouched_counts untouched
      omega
  · omega

theorem TurnEffect.oneAnswer (effect : TurnEffect digest before event after)
    (permitted : SingleElection digest before event) (one : OneAnswer before) : OneAnswer after := by
  obtain ⟨arms, courses, replies⟩ := permitted
  cases effect with
  | quiet markers responses =>
    intro deploymentName messageId
    rw [markers, responses]
    exact one deploymentName messageId
  | armedAgain routing _ markers responses =>
    intro deploymentName messageId
    rw [markers, responses]
    exact one deploymentName messageId
  | armedAnew routing now target free markers responses =>
    intro deploymentName messageId
    have account := one deploymentName messageId
    have input : ((armRequest routing).row before.nextId now).actionInput = routing := rfl
    rw [markers, responses, List.countP_append, List.countP_singleton, input]
    split
    · rename_i turn
      have key := TurnRouting.isFor_iff.mp turn
      have unmarked : before.markers.countP (fun row => row.actionInput.isFor deploymentName messageId) = 0 :=
        List.countP_eq_zero.mpr fun row member other =>
          free row member ((TurnRouting.isFor_iff.mp other).trans key.symm)
      simp only [TurnRouting.isFor, Bool.and_eq_true, beq_iff_eq] at turn
      obtain ⟨rfl, rfl⟩ := turn
      have unanswered := unanswered_count (arms routing target)
      omega
    · omega
  | extended deployment now markers responses =>
    intro deploymentName messageId
    have inputs := (extendStatement deployment now).run_column Run.actionInput (fun _ => rfl) before.markers
    have same := congrArg (List.countP (TurnRouting.isFor deploymentName messageId)) inputs
    simp only [List.countP_map] at same
    rw [responses, markers]
    exact same ▸ one deploymentName messageId
  | elected selects reason markers responses =>
    intro deploymentName messageId
    have account := one deploymentName messageId
    have cut := countP_deleteWhere selects
      (fun row : Run TurnRouting => row.actionInput.isFor deploymentName messageId) before.markers
    have errors := countP_terminalErrors deploymentName messageId reason (before.markers.filter selects)
    rw [responses, markers, List.countP_append]
    omega
  | replied reply target held markers responses =>
    exact one.replied held (replies reply target) markers responses
  | gated data finalText target markers responses =>
    intro deploymentName messageId
    have account := one deploymentName messageId
    rw [responses, markers, List.countP_append, List.countP_singleton]
    split
    · rename_i answers
      simp only [TerminalRow.answers, dischargeIds_courseTerminal, Bool.and_eq_true, beq_iff_eq,
        List.contains_cons, List.contains_nil, Bool.or_false] at answers
      obtain ⟨rfl, rfl⟩ := answers
      obtain ⟨unanswered, unmarked⟩ := untouched_counts (courses data target)
      dsimp only [MessageData.courseTerminal]
      omega
    · omega

end Steps

theorem liveness_oneAnswer {digest : String → String} {state : TurnState}
    (reached : (liveness digest).Reachable (SingleElection digest) state) : OneAnswer state := by
  apply reached.invariant
  · intro state begins _ _
    subst begins
    exact Nat.zero_le 1
  · intro before event after reached one permitted stepped
    have invariant := liveness_invariant reached
    exact (invariant.step stepped).2.oneAnswer permitted one

/-- While no turn gets a second marker and no reply takes part of its markers, each
turn has at most one terminal answer. -/
theorem one_terminal_answer :
    ∀ (digest : String → String) (state : TurnState), (liveness digest).Reachable (SingleElection digest) state →
        ∀ (deploymentName : DeploymentName) (messageId : String),
          state.responses.countP (TerminalRow.answers deploymentName messageId) ≤ 1 := by
  intro digest state reached deploymentName messageId
  have one := liveness_oneAnswer reached deploymentName messageId
  omega

def replyTo (messageIds : List String) : ThreadResponse where
  messageId := messageIds.head?
  processedMessageIds := messageIds.map some
  finalText := some "done"

/-- A message is delivered, armed and sent; the send's answer is lost. -/
def dispatched : List TurnEvent :=
  [.deliver (messageFor "first"), .gate 0 .ready, .armTurnTimeout 0 0 true,
    .sendToWorkerQueue 0 false]

theorem one_terminal_answer_after_redelivery :
    ∃ state : TurnState, (liveness id).Reachable (SingleElection id) state ∧
      state.responses.countP (TerminalRow.answers workerName "first") = 1 ∧ state.markers = [] ∧
      ∀ (deploymentName : DeploymentName) (messageId : String),
        state.responses.countP (TerminalRow.answers deploymentName messageId) ≤ 1 := by
  obtain ⟨state, reached, tested⟩ := Machine.exists_of_replay (liveness id) (SingleElection id) TurnState.initial
    (dispatched ++ [.deliver (messageFor "first"), .gate 1 .ready, .armTurnTimeout 1 30000 true,
      .sendToWorkerQueue 1 true, .workerResponse workerName (replyTo ["first"]) none,
      .replyDeletes 0, .replyCommits 0, .sweepExpiredTurns [1] 70000 "stopped"])
    (fun state => state.responses.countP (TerminalRow.answers workerName "first") == 1 &&
      state.markers == [])
    rfl (by decide +kernel)
  simp only [Bool.and_eq_true, beq_iff_eq] at tested
  exact ⟨state, reached, tested.1, tested.2, one_terminal_answer id state reached⟩

/-- The worker answers before the message is redelivered: the redelivery arms the turn
again, sends nothing, and the sweep answers a second time. -/
def answeredThenRedelivered : List TurnEvent :=
  dispatched ++ [.workerResponse workerName (replyTo ["first"]) none, .replyDeletes 0,
    .replyCommits 0, .deliver (messageFor "first"), .gate 1 .ready, .armTurnTimeout 1 30000 true,
    .sendToWorkerQueue 1 true, .sweepExpiredTurns [2] 100000 "stopped"]

/-- One of two turns is swept before the worker answers both at once. -/
def sweptThenBatched : List TurnEvent :=
  dispatched ++ [.deliver (messageFor "second"), .gate 1 .ready, .armTurnTimeout 1 30000 true,
    .sendToWorkerQueue 1 true, .sweepExpiredTurns [1] 70000 "stopped",
    .workerResponse workerName (replyTo ["first", "second"]) none, .replyDeletes 0,
    .replyDeletes 0, .replyCommits 0]

theorem terminal_answer_twice :
    (¬ ∀ (digest : String → String) (state : TurnState), (liveness digest).Reachable unrestricted state →
        ∀ (deploymentName : DeploymentName) (messageId : String),
          state.responses.countP (TerminalRow.answers deploymentName messageId) ≤ 1) ∧
    (∃ state : TurnState, (liveness id).Reachable unrestricted state ∧
      state.dispatches.length = 2 ∧ state.replies.length = 1 ∧
        state.responses.countP (TerminalRow.answers workerName "first") = 2) ∧
    ∃ state : TurnState, (liveness id).Reachable unrestricted state ∧
      state.armed = [(messageFor "first").routing, (messageFor "second").routing] ∧
        state.responses.countP (TerminalRow.answers workerName "first") = 2 := by
  obtain ⟨state, reached, tested⟩ := Machine.exists_of_replay (liveness id) unrestricted
    TurnState.initial answeredThenRedelivered
    (fun state => state.dispatches.length == 2 && state.replies.length == 1 &&
      state.responses.countP (TerminalRow.answers workerName "first") == 2)
    rfl (by decide +kernel)
  obtain ⟨other, met, checked⟩ := Machine.exists_of_replay (liveness id) unrestricted
    TurnState.initial sweptThenBatched
    (fun state => state.armed == [(messageFor "first").routing, (messageFor "second").routing] &&
      state.responses.countP (TerminalRow.answers workerName "first") == 2)
    rfl (by decide +kernel)
  simp only [Bool.and_eq_true, beq_iff_eq] at tested checked
  obtain ⟨⟨deliveries, replies⟩, twice⟩ := tested
  refine ⟨fun always => ?_, ⟨state, reached, deliveries, replies, twice⟩, other, met, checked.1, checked.2⟩
  have once := always id state reached workerName "first"
  omega

end Lobu.Turn
