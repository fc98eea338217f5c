import Lobu.Queue.Claims

namespace Lobu.Queue

open Lobu.Foundation

/-! # Fencing of a handler's writes

`runHandler` may outlive its claim: a sweep or a stop releases the row and
someone claims it again.  The guard of the handler's statements keeps another
process's claim safe.  It does not tell two claims of one process apart, so
fencing needs that no process claims a row while an earlier call of its own for
that row may still write.
-/

variable {P : Type} {state : QueueState P} {event : QueueEvent P}

/-- A handler's statement touches only rows still under the claim it was issued for. -/
def Fenced (state : QueueState P) (event : QueueEvent P) : Prop :=
  match handlerWrite state event with
  | some (execution, statement) => ∀ row ∈ state.runs, statement.selects row = true →
      state.claims row.id = execution.claimNumber
  | none => True

instance (state : QueueState P) (event : QueueEvent P) : Decidable (Fenced state event) := by
  rw [Fenced]
  split <;> infer_instance

theorem handlerWrite_issued {after : QueueState P} {execution : Execution P}
    {statement : RowUpdate (Run P)} (stepped : consumerStep state event = some after)
    (written : handlerWrite state event = some (execution, statement)) :
    execution ∈ state.executions ∧ execution.mayWrite ∧ ∃ records, execution.Writes records statement := by
  cases event with
  | heartbeatClaim index now =>
    simp only [consumerStep] at stepped
    split at stepped
    · rename_i call found
      split at stepped
      · rename_i issued
        simp only [handlerWrite, found] at written
        cases written
        exact ⟨List.mem_of_getElem? found, .inr issued, _, .heartbeat now issued⟩
      · contradiction
    · contradiction
  | markCompleted index now =>
    obtain ⟨call, found, stands, _⟩ := fromPhase_some stepped
    simp only [handlerWrite, found] at written
    cases written
    exact ⟨List.mem_of_getElem? found,
      .inl (Execution.unsettled_of_phase stands (by decide)), _, .completed now stands⟩
  | markCompletedThrows index committed =>
    obtain ⟨call, found, stands, _⟩ := fromPhase_some stepped
    cases committed with
    | none => cases written
    | some now =>
      simp only [handlerWrite, found] at written
      cases written
      exact ⟨List.mem_of_getElem? found,
        .inl (Execution.unsettled_of_phase stands (by decide)), _, .completed now stands⟩
  | recordFailure index message now =>
    obtain ⟨call, found, stands, _⟩ := fromPhase_some stepped
    simp only [handlerWrite, found] at written
    cases written
    exact ⟨List.mem_of_getElem? found,
      .inl (Execution.unsettled_of_phase stands (by decide)), _, .failed message now stands⟩
  | enqueue | start | recoverStaleClaimedRowsOnStartup | work | workReplaces | pauseWorker
  | resumeWorker | poll | claimOne | heartbeatFires | handlerReturns | handlerThrows
  | recordFailureThrows | staleSweep | stop | releaseClaims | releaseClaimsThrows | clearWorkers =>
    cases written

def messagesRequest : SendRequest Unit where
  queueName := "messages"
  data := ()

def claimedOnce : List (QueueEvent Unit) :=
  [.start 0, .enqueue messagesRequest 0, .work 0 "messages" false, .poll 0 0,
    .claimOne 0 0 0 [] true]

def reclaimedInOneProcess : List (QueueEvent Unit) :=
  claimedOnce ++ [.staleSweep 300001, .work 0 "messages" false, .workReplaces 0 0,
    .poll 0 1, .claimOne 0 1 300001 [] true]

end Lobu.Queue
