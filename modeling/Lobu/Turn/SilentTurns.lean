import Lobu.Turn.Elections

namespace Lobu.Turn

open Lobu.Foundation Lobu.Queue

/-! # No silent turn

A marker leaves the table only in a commit that writes an answer of its turn.  The
one exception is a marker without a message id: its answer could be routed nowhere,
and `asTurnRouting` has it dropped.
-/

/-- Of the markers with a message id, `after` keeps each or has a new answer for it. -/
def AnswersRemoved (before after : TurnState) : Prop :=
  ∃ added, after.responses = before.responses ++ added ∧
    ∀ marker ∈ before.markers, marker.actionInput.messageId ≠ "" →
      (∃ same ∈ after.markers, same.id = marker.id ∧ same.actionInput = marker.actionInput) ∨
      ∃ row ∈ added,
        row.answers marker.actionInput.deploymentName marker.actionInput.messageId = true

/-- Every armed turn with a message id has its pending marker or an answer. -/
def NoSilentTurn (state : TurnState) : Prop :=
  ∀ routing ∈ state.armed, routing.messageId ≠ "" →
    (∃ row ∈ state.markers, markerOf routing.deploymentName routing.messageId row = true) ∨
    ∃ row ∈ state.responses, row.answers routing.deploymentName routing.messageId = true

section Steps

variable {digest : String → String} {before after : TurnState} {event : TurnEvent}
variable {reply : Reply} {marker : Run TurnRouting}

theorem isFor_self (routing : TurnRouting) : routing.isFor routing.deploymentName routing.messageId = true := by
  simp [TurnRouting.isFor]

theorem terminalError_some (reason : String) (routable : marker.actionInput.messageId ≠ "") :
    ∃ row, terminalError reason marker = some row ∧
      row.answers marker.actionInput.deploymentName marker.actionInput.messageId = true := by
  have sound : asTurnRouting marker.actionInput = some marker.actionInput := by
    simp [asTurnRouting, routable]
  have failed : ∃ row, terminalError reason marker = some row := by
    simp [terminalError, sound]
  obtain ⟨row, failed⟩ := failed
  refine ⟨row, failed, ?_⟩
  rw [terminalError_answers failed]
  exact isFor_self marker.actionInput

theorem electedMarker_answered (selects : Run TurnRouting → Bool) (reason : String)
    (member : marker ∈ before.markers) (selected : selects marker = true)
    (routable : marker.actionInput.messageId ≠ "") :
    ∃ row ∈ (before.markers.filter selects).filterMap (terminalError reason),
      row.answers marker.actionInput.deploymentName marker.actionInput.messageId = true := by
  obtain ⟨row, failed, answers⟩ := terminalError_some reason routable
  have elected : marker ∈ before.markers.filter selects := List.mem_filter.mpr ⟨member, selected⟩
  exact ⟨row, List.mem_filterMap.mpr ⟨marker, elected, failed⟩, answers⟩

theorem ReplyInvariant.answers (held : ReplyInvariant before.markers reply)
    (ids : (before.markers.map Run.id).Nodup) (member : marker ∈ before.markers)
    (deleted : (reply.deleted.map Prod.snd).contains marker.id = true) :
    reply.row.answers marker.actionInput.deploymentName marker.actionInput.messageId = true := by
  simp only [List.contains_iff_mem, List.mem_map] at deleted
  obtain ⟨entry, entryMember, entryId⟩ := deleted
  obtain ⟨row, rowMember, rowId, turn⟩ := held.held entry entryMember
  have same : row = marker :=
    RowUpdate.eq_of_column ids rowMember member (rowId.trans entryId)
  subst same
  simp only [TurnRouting.isFor, Bool.and_eq_true, beq_iff_eq] at turn
  obtain ⟨done, whole, ordered⟩ := held.ordered
  have discharged : entry.1 ∈ dischargeIds reply.response := by
    rw [whole]
    exact List.mem_append_left _ (ordered.subset (List.mem_map_of_mem entryMember))
  simp only [TerminalRow.answers, Reply.row, Bool.and_eq_true, beq_iff_eq, List.contains_iff_mem]
  rw [turn.1, turn.2]
  exact ⟨rfl, discharged⟩

variable {added : List TerminalRow}

theorem AnswersRemoved.kept (responses : after.responses = before.responses ++ added)
    (kept : ∀ marker ∈ before.markers,
      ∃ same ∈ after.markers, same.id = marker.id ∧ same.actionInput = marker.actionInput) :
    AnswersRemoved before after :=
  ⟨added, responses, fun marker member _ => .inl (kept marker member)⟩

theorem AnswersRemoved.sameMarkers (responses : after.responses = before.responses ++ added)
    (markers : after.markers = before.markers) : AnswersRemoved before after := by
  refine .kept responses fun marker member => ⟨marker, ?_, rfl, rfl⟩
  rw [markers]
  exact member

theorem AnswersRemoved.deleted {selects : Run TurnRouting → Bool}
    (responses : after.responses = before.responses ++ added)
    (markers : after.markers = deleteWhere selects before.markers)
    (answered : ∀ marker ∈ before.markers, selects marker = true → marker.actionInput.messageId ≠ "" → ∃ row ∈ added,
        row.answers marker.actionInput.deploymentName marker.actionInput.messageId = true) :
    AnswersRemoved before after := by
  refine ⟨added, responses, fun marker member routable => ?_⟩
  cases selected : selects marker with
  | true => exact .inr (answered marker member selected routable)
  | false =>
    refine .inl ⟨marker, ?_, rfl, rfl⟩
    rw [markers, mem_deleteWhere]
    exact ⟨member, selected⟩

theorem TurnEffect.answersRemoved (effect : TurnEffect digest before event after)
    (invariant : TurnInvariant before) : AnswersRemoved before after := by
  have unanswered (responses : after.responses = before.responses) : after.responses = before.responses ++ [] := by
    rw [responses, List.append_nil]
  cases effect with
  | quiet markers responses => exact .sameMarkers (unanswered responses) markers
  | armedAgain routing _ markers responses => exact .sameMarkers (unanswered responses) markers
  | armedAnew routing now target free markers responses =>
    refine .kept (unanswered responses) fun marker member => ⟨marker, ?_, rfl, rfl⟩
    rw [markers]
    exact List.mem_append_left _ member
  | extended deploymentName now markers responses =>
    refine .kept (unanswered responses) fun marker member => ?_
    refine ⟨(extendStatement deploymentName now).onRow marker, ?_, ?_, ?_⟩
    · rw [markers, RowUpdate.mem_run]
      exact ⟨marker, member, rfl⟩
    · exact RowUpdate.onRow_column Run.id (fun _ => rfl) marker
    · exact RowUpdate.onRow_column Run.actionInput (fun _ => rfl) marker
  | elected selects reason markers responses =>
    exact .deleted responses markers fun marker member selected routable =>
      electedMarker_answered selects reason member selected routable
  | replied reply target held markers responses =>
    exact .deleted responses markers fun marker member deleted _ =>
      ⟨reply.row, List.mem_singleton_self _, held.answers invariant.ids member deleted⟩
  | gated data finalText target markers responses => exact .sameMarkers responses markers

theorem TurnEffect.armed (effect : TurnEffect digest before event after) {routing : TurnRouting}
    (member : routing ∈ after.armed) : routing ∈ before.armed ∨
      ∃ row ∈ after.markers, row.actionInput.key = routing.key := by
  have appended {turn : TurnRouting} (armed : after.armed = before.armed ++ [turn])
      (marked : ∃ row ∈ after.markers, row.actionInput.key = turn.key) :
      routing ∈ before.armed ∨ ∃ row ∈ after.markers, row.actionInput.key = routing.key := by
    rw [armed] at member
    rcases List.mem_append.mp member with earlier | new
    · exact .inl earlier
    · rw [List.mem_singleton.mp new]
      exact .inr marked
  cases effect with
  | armedAgain turn pending markers _ armed =>
    apply appended armed
    rw [markers]
    exact pending
  | armedAnew turn now _ _ markers _ armed =>
    refine appended armed ⟨(armRequest turn).row before.nextId now, ?_, rfl⟩
    rw [markers]
    exact List.mem_append_right _ (List.mem_singleton_self _)
  | quiet _ _ armed | extended _ _ _ _ armed | elected _ _ _ _ armed
  | replied _ _ _ _ _ armed | gated _ _ _ _ _ armed =>
    rw [armed] at member
    exact .inl member

theorem NoSilentTurn.step (noSilent : NoSilentTurn before) (invariant : TurnInvariant before)
    (later : TurnInvariant after) (effect : TurnEffect digest before event after) : NoSilentTurn after := by
  intro routing member routable
  have pending {row : Run TurnRouting} (rowMember : row ∈ after.markers) (same : row.actionInput.key = routing.key) :
      markerOf routing.deploymentName routing.messageId row = true :=
    (later.shape row rowMember).markerOf_iff.mpr (TurnRouting.isFor_iff.mpr same)
  rcases effect.armed member with earlier | ⟨row, rowMember, same⟩
  · obtain ⟨added, responses, removed⟩ := effect.answersRemoved invariant
    rcases noSilent routing earlier routable with ⟨marker, marked, turn⟩ | ⟨row, answer, answers⟩
    · have isFor := (invariant.shape marker marked).markerOf_iff.mp turn
      have key := TurnRouting.isFor_iff.mp isFor
      simp only [TurnRouting.isFor, Bool.and_eq_true, beq_iff_eq] at isFor
      rw [← isFor.2] at routable
      rcases removed marker marked routable with ⟨kept, keptMember, _, input⟩ | ⟨row, new, answers⟩
      · refine .inl ⟨kept, keptMember, pending keptMember ?_⟩
        rw [input]
        exact key
      · rw [isFor.1, isFor.2] at answers
        refine .inr ⟨row, ?_, answers⟩
        rw [responses]
        exact List.mem_append_right _ new
    · refine .inr ⟨row, ?_, answers⟩
      rw [responses]
      exact List.mem_append_left _ answer
  · exact .inl ⟨row, rowMember, pending rowMember same⟩

end Steps

theorem liveness_noSilentTurn {digest : String → String} {state : TurnState}
    (reached : (liveness digest).Reachable unrestricted state) : NoSilentTurn state := by
  apply reached.invariant
  · intro state begins _ member
    subst begins
    exact absurd member List.not_mem_nil
  · intro before event after reached noSilent _ stepped
    have invariant := liveness_invariant reached
    obtain ⟨later, effect⟩ := invariant.step stepped
    exact noSilent.step invariant later effect

/-- In every run each armed turn with a message id has its pending marker or an
answer, and no step removes such a marker without writing the answer. -/
theorem no_silent_turn :
    ∀ (digest : String → String) (state : TurnState), (liveness digest).Reachable unrestricted state →
        NoSilentTurn state ∧ ∀ (event : TurnEvent) (after : TurnState),
          (liveness digest).step state event = some after → AnswersRemoved state after := by
  intro digest state reached
  refine ⟨liveness_noSilentTurn reached, fun event after stepped => ?_⟩
  have invariant := liveness_invariant reached
  exact (invariant.step stepped).2.answersRemoved invariant

theorem no_silent_turn_after_sweep :
    ∃ state : TurnState, (liveness id).Reachable unrestricted state ∧
      (messageFor "first").routing ∈ state.armed ∧ state.markers = [] ∧
        ∃ row ∈ state.responses, row.answers workerName "first" = true := by
  obtain ⟨state, reached, tested⟩ := Machine.exists_of_replay (liveness id) unrestricted TurnState.initial
    [.deliver (messageFor "first"), .gate 0 .ready, .armTurnTimeout 0 0 true,
      .sendToWorkerQueue 0 true, .sweepExpiredTurns [1] 70000 "stopped"]
    (fun state => state.armed.contains (messageFor "first").routing && state.markers == [])
    rfl (by decide +kernel)
  simp only [Bool.and_eq_true, beq_iff_eq, List.contains_iff_mem] at tested
  obtain ⟨armed, swept⟩ := tested
  refine ⟨state, reached, armed, swept, ?_⟩
  rcases (no_silent_turn id state reached).1 _ armed (by decide) with ⟨row, member, _⟩ | answered
  · rw [swept] at member
    exact absurd member List.not_mem_nil
  · exact answered

/-- A turn armed without a message id is dropped by the sweep. -/
theorem silent_turn :
    (¬ ∀ (digest : String → String) (state : TurnState),
      (liveness digest).Reachable unrestricted state → ∀ routing ∈ state.armed,
        (∃ row ∈ state.markers, markerOf routing.deploymentName routing.messageId row = true) ∨
        ∃ row ∈ state.responses, row.answers routing.deploymentName routing.messageId = true) ∧
    ∃ state : TurnState, (liveness id).Reachable unrestricted state ∧
      state.armed = [(messageFor "").routing] ∧ state.markers = [] ∧ state.responses = [] := by
  obtain ⟨state, reached, tested⟩ := Machine.exists_of_replay (liveness id) unrestricted TurnState.initial
    [.deliver (messageFor ""), .gate 0 .ready, .armTurnTimeout 0 0 true,
      .sendToWorkerQueue 0 true, .sweepExpiredTurns [1] 70000 "stopped"]
    (fun state => state.armed == [(messageFor "").routing] && state.markers == [] &&
      state.responses == [])
    rfl (by decide +kernel)
  simp only [Bool.and_eq_true, beq_iff_eq] at tested
  obtain ⟨⟨armed, dropped⟩, silent⟩ := tested
  refine ⟨fun always => ?_, state, reached, armed, dropped, silent⟩
  have member : (messageFor "").routing ∈ state.armed := by
    rw [armed]
    exact List.mem_singleton_self _
  have owed := always id state reached _ member
  simp [dropped, silent] at owed

end Lobu.Turn
