import Lobu.Foundation.Machine
import Lobu.Worker.Grouping
import Mathlib.Data.List.Sort

namespace Lobu.Worker

open Lobu.Foundation

/-! # The message batcher

The batcher together with its one `onBatchReady`, `processBatchedMessages`.  The
code between two awaits is one step, so `processBatch` appears as its part up to
the first execution and as the parts after an execution returns or throws.

`added`, `handed` and `executed` list what was added, the batches handed to
`onBatchReady` and the groups whose execution was started.  No function reads them.
-/

/-- `running` holds the groups of the batch under way, the one being executed first. -/
structure BatcherState where
  messageQueue : List QueuedMessage
  isProcessing : Bool
  batchTimer : Bool
  hasProcessedInitialBatch : Bool
  stopped : Bool
  running : List Group
  added : List QueuedMessage
  handed : List (List QueuedMessage)
  executed : List Group

inductive BatcherEvent where
  | addMessage (message : QueuedMessage)
  | timerFires
  | groupReturns
  | groupThrows
  | stop
deriving DecidableEq

def BatcherState.initial : BatcherState where
  messageQueue := []
  isProcessing := false
  batchTimer := false
  hasProcessedInitialBatch := false
  stopped := false
  running := []
  added := []
  handed := []
  executed := []

/-- `messagesToProcess.sort((a, b) => a.timestamp - b.timestamp)`, which is stable. -/
def sortByTimestamp (messages : List QueuedMessage) : List QueuedMessage :=
  messages.insertionSort fun first second => first.timestamp ≤ second.timestamp

/-- `processBatch` up to the await of its first execution. -/
def processBatch (state : BatcherState) : BatcherState :=
  let cleared := { state with batchTimer := false }
  if cleared.messageQueue.isEmpty then cleared
  else
    let messagesToProcess := sortByTimestamp cleared.messageQueue
    let groups := groupBatch messagesToProcess
    { cleared with
      isProcessing := true
      messageQueue := []
      running := groups
      handed := cleared.handed ++ [messagesToProcess]
      executed := cleared.executed ++ groups.take 1 }

def addMessage (state : BatcherState) (message : QueuedMessage) : BatcherState :=
  let pushed := { state with
    messageQueue := state.messageQueue ++ [message]
    added := state.added ++ [message] }
  if pushed.isProcessing then pushed
  else if pushed.batchTimer then pushed
  else if !pushed.hasProcessedInitialBatch then
    processBatch { pushed with hasProcessedInitialBatch := true }
  else { pushed with batchTimer := true }

/-- `processBatch` after `onBatchReady` has resolved. -/
def batchResolved (state : BatcherState) : BatcherState :=
  { state with
    batchTimer := if state.messageQueue.isEmpty then state.batchTimer else true
    isProcessing := false
    running := [] }

/-- `processBatch` after `onBatchReady` has rejected: only the `finally` is left. -/
def batchRejected (state : BatcherState) : BatcherState :=
  { state with
    isProcessing := false
    running := [] }

def batcherStep (state : BatcherState) : BatcherEvent → Option BatcherState
  | .addMessage message => some (addMessage state message)
  | .timerFires => if state.batchTimer then some (processBatch state) else none
  | .groupReturns =>
    match state.running with
    | [] => none
    | [_] => some (batchResolved state)
    | _ :: next :: rest => some { state with
        running := next :: rest
        executed := state.executed ++ [next] }
  | .groupThrows =>
    match state.running with
    | [] => none
    | _ :: _ => some (batchRejected state)
  | .stop => some { state with batchTimer := false, stopped := true }

def batching : Machine BatcherState BatcherEvent where
  starts state := state = BatcherState.initial
  step := batcherStep

/-- The messages of the running batch whose execution has not been started. -/
def BatcherState.waiting (state : BatcherState) : List QueuedMessage :=
  (state.running.drop 1).flatten

/-- What the batcher promises before `stop()`. -/
structure NothingLost (state : BatcherState) : Prop where
  /-- A queued message is waited for by a batch under way or by a timer. -/
  notStranded : state.messageQueue ≠ [] → state.isProcessing = true ∨ state.batchTimer = true
  /-- Each message added was handed over once or is still queued. -/
  handedOnce : (state.handed.flatten ++ state.messageQueue).Perm state.added
  sorted : ∀ batch ∈ state.handed,
    batch.Pairwise fun first second => first.timestamp ≤ second.timestamp
  /-- Each message handed over was executed once or still waits in the running batch. -/
  executedOnce : state.executed.flatten ++ state.waiting = state.handed.flatten

instance (state : BatcherState) : Decidable (NothingLost state) :=
  decidable_of_iff
    ((state.messageQueue ≠ [] → state.isProcessing = true ∨ state.batchTimer = true) ∧
      (state.handed.flatten ++ state.messageQueue).Perm state.added ∧
      (∀ batch ∈ state.handed,
        batch.Pairwise fun first second => first.timestamp ≤ second.timestamp) ∧
      state.executed.flatten ++ state.waiting = state.handed.flatten)
    ⟨fun ⟨stranded, handed, sorted, executed⟩ => ⟨stranded, handed, sorted, executed⟩,
      fun ⟨stranded, handed, sorted, executed⟩ => ⟨stranded, handed, sorted, executed⟩⟩

/-- An execution throws only as the last of its batch, with no message queued. -/
def ThrowsAtEnd : Discipline BatcherState BatcherEvent := fun state event =>
  event = .groupThrows → state.running.drop 1 = [] ∧ state.messageQueue = []

instance (state : BatcherState) (event : BatcherEvent) : Decidable (ThrowsAtEnd state event) := by
  rw [ThrowsAtEnd]
  infer_instance

structure BatcherInvariant (state : BatcherState) : Prop where
  account : state.stopped = false → NothingLost state
  processing : state.isProcessing = true ↔ state.running ≠ []
  exclusive : state.isProcessing = true → state.batchTimer = false

theorem sortByTimestamp_perm (messages : List QueuedMessage) : (sortByTimestamp messages).Perm messages :=
  List.perm_insertionSort _ messages

theorem sortByTimestamp_sorted (messages : List QueuedMessage) :
    (sortByTimestamp messages).Pairwise fun first second => first.timestamp ≤ second.timestamp := by
  have total : Std.Total fun first second : QueuedMessage => first.timestamp ≤ second.timestamp :=
    ⟨fun first second => Int.le_total first.timestamp second.timestamp⟩
  have transitive : IsTrans QueuedMessage fun first second => first.timestamp ≤ second.timestamp :=
    ⟨fun _ _ _ => Int.le_trans⟩
  exact List.pairwise_insertionSort _ messages

theorem sortByTimestamp_ne_nil {messages : List QueuedMessage} (some_ : messages ≠ []) :
    sortByTimestamp messages ≠ [] := by
  intro none_
  have perm := sortByTimestamp_perm messages
  rw [none_] at perm
  exact some_ perm.nil_eq.symm

section Steps

variable {state after : BatcherState} {event : BatcherEvent} {message : QueuedMessage}

theorem processBatch_empty (empty : state.messageQueue = []) :
    processBatch state = { state with batchTimer := false } := by
  simp [processBatch, empty]

theorem processBatch_some (some_ : state.messageQueue ≠ []) :
    processBatch state = { state with
      batchTimer := false
      isProcessing := true
      messageQueue := []
      running := groupBatch (sortByTimestamp state.messageQueue)
      handed := state.handed ++ [sortByTimestamp state.messageQueue]
      executed := state.executed ++ (groupBatch (sortByTimestamp state.messageQueue)).take 1 } := by
  have full : state.messageQueue.isEmpty = false := List.isEmpty_eq_false_iff.mpr some_
  simp [processBatch, full]

theorem processBatch_stopped : (processBatch state).stopped = state.stopped := by
  by_cases empty : state.messageQueue = []
  · rw [processBatch_empty empty]
  · rw [processBatch_some empty]

theorem processBatch_account (idle : state.running = [])
    (handedOnce : (state.handed.flatten ++ state.messageQueue).Perm state.added) (sorted : ∀ batch ∈ state.handed,
      batch.Pairwise fun first second => first.timestamp ≤ second.timestamp)
    (executedOnce : state.executed.flatten ++ state.waiting = state.handed.flatten) :
    NothingLost (processBatch state) := by
  have waiting : state.waiting = [] := by simp [BatcherState.waiting, idle]
  rw [waiting, List.append_nil] at executedOnce
  by_cases empty : state.messageQueue = []
  · rw [processBatch_empty empty]
    refine ⟨fun queued => absurd empty queued, handedOnce, sorted, ?_⟩
    simpa [BatcherState.waiting, idle] using executedOnce
  · rw [processBatch_some empty]
    refine ⟨fun queued => absurd rfl queued, ?_, ?_, ?_⟩
    · have moved := (sortByTimestamp_perm state.messageQueue).append_left state.handed.flatten
      simpa using moved.trans handedOnce
    · intro batch member
      rcases List.mem_append.mp member with old | new
      · exact sorted batch old
      · rw [List.mem_singleton.mp new]
        exact sortByTimestamp_sorted state.messageQueue
    · have groups := groupBatch_flatten (sortByTimestamp state.messageQueue)
      have cut : (groupBatch (sortByTimestamp state.messageQueue)).take 1 ++
          (groupBatch (sortByTimestamp state.messageQueue)).drop 1 = _ := List.take_append_drop 1 _
      have flat := congrArg List.flatten cut
      rw [List.flatten_append, groups] at flat
      simp only [BatcherState.waiting, List.flatten_append, List.flatten_singleton,
        List.append_assoc, flat, executedOnce]

theorem processBatch_exclusive (state : BatcherState) (idle : state.running = [])
    (resting : state.isProcessing = false) :
    ((processBatch state).isProcessing = true ↔ (processBatch state).running ≠ []) ∧
      (processBatch state).batchTimer = false := by
  by_cases empty : state.messageQueue = []
  · rw [processBatch_empty empty]
    simp [idle, resting]
  · rw [processBatch_some empty]
    simp [groupBatch_ne_nil (sortByTimestamp_ne_nil empty)]

section

variable (invariant : BatcherInvariant state)
include invariant

theorem BatcherInvariant.idle (resting : state.isProcessing = false) : state.running = [] := by
  by_contra running
  rw [invariant.processing.mpr running] at resting
  contradiction

theorem BatcherInvariant.processBatch
    (resting : state.isProcessing = false) : BatcherInvariant (processBatch state) := by
  have idle := invariant.idle resting
  obtain ⟨processing, cleared⟩ := processBatch_exclusive state idle resting
  refine ⟨fun running => ?_, processing, fun _ => cleared⟩
  rw [processBatch_stopped] at running
  have account := invariant.account running
  exact processBatch_account idle account.handedOnce account.sorted account.executedOnce

theorem BatcherInvariant.addMessage : BatcherInvariant (addMessage state message) := by
  have pushed (running : state.stopped = false) :
      (state.handed.flatten ++ (state.messageQueue ++ [message])).Perm (state.added ++ [message]) := by
    rw [← List.append_assoc]
    exact (invariant.account running).handedOnce.append_right [message]
  rw [Worker.addMessage]
  dsimp only
  split
  · rename_i processing
    refine ⟨fun running => ?_, invariant.processing, invariant.exclusive⟩
    have account := invariant.account running
    exact ⟨fun _ => .inl processing, pushed running, account.sorted, account.executedOnce⟩
  split
  · rename_i armed
    refine ⟨fun running => ?_, invariant.processing, invariant.exclusive⟩
    have account := invariant.account running
    exact ⟨fun _ => .inr armed, pushed running, account.sorted, account.executedOnce⟩
  rename_i resting armed
  have resting : state.isProcessing = false := by simpa using resting
  have idle := invariant.idle resting
  split
  · obtain ⟨processing, cleared⟩ := processBatch_exclusive { state with
      messageQueue := state.messageQueue ++ [message]
      added := state.added ++ [message]
      hasProcessedInitialBatch := true } idle resting
    refine ⟨fun running => ?_, processing, fun _ => cleared⟩
    rw [processBatch_stopped] at running
    have account := invariant.account running
    exact processBatch_account idle (pushed running) account.sorted account.executedOnce
  · refine ⟨fun running => ?_, invariant.processing, fun processing => ?_⟩
    · have account := invariant.account running
      exact ⟨fun _ => .inr rfl, pushed running, account.sorted, account.executedOnce⟩
    · exact absurd processing (by simp [resting])

theorem BatcherInvariant.resolved (last : state.running.drop 1 = []) : BatcherInvariant (batchResolved state) := by
  refine ⟨fun running => ?_, by simp [batchResolved], fun processing => by cases processing⟩
  have account := invariant.account running
  refine ⟨fun queued => ?_, account.handedOnce, account.sorted, ?_⟩
  · have full : state.messageQueue.isEmpty = false := List.isEmpty_eq_false_iff.mpr queued
    exact .inr (by simp [batchResolved, full])
  · have executed := account.executedOnce
    simp only [BatcherState.waiting, last] at executed
    simpa [BatcherState.waiting, batchResolved] using executed

/-- The case that the condition is about: a rejection drops the waiting groups and
arms no timer, so there must be neither. -/
theorem BatcherInvariant.rejected (last : state.running.drop 1 = []) (empty : state.messageQueue = []) :
    BatcherInvariant (batchRejected state) := by
  refine ⟨fun running => ?_, by simp [batchRejected], fun processing => by cases processing⟩
  have account := invariant.account running
  refine ⟨fun queued => absurd empty queued, account.handedOnce, account.sorted, ?_⟩
  have executed := account.executedOnce
  simp only [BatcherState.waiting, last] at executed
  simpa [BatcherState.waiting, batchRejected] using executed

theorem BatcherInvariant.step (permitted : ThrowsAtEnd state event) (stepped : batcherStep state event = some after) :
    BatcherInvariant after := by
  cases event with
  | addMessage message =>
    cases stepped
    exact invariant.addMessage
  | timerFires =>
    simp only [batcherStep] at stepped
    split at stepped
    · rename_i armed
      cases stepped
      apply invariant.processBatch
      by_contra processing
      have cleared := invariant.exclusive (by simpa using processing)
      rw [armed] at cleared
      contradiction
    · contradiction
  | groupReturns =>
    simp only [batcherStep] at stepped
    split at stepped
    · contradiction
    · rename_i last
      cases stepped
      exact invariant.resolved (by rw [last]; rfl)
    · rename_i done next rest running
      cases stepped
      have processing := invariant.processing.mpr (by rw [running]; simp)
      refine ⟨fun started => ?_, by simp [processing], invariant.exclusive⟩
      have account := invariant.account started
      refine ⟨account.notStranded, account.handedOnce, account.sorted, ?_⟩
      have executed := account.executedOnce
      simp only [BatcherState.waiting, running] at executed
      simpa [BatcherState.waiting] using executed
  | groupThrows =>
    obtain ⟨last, empty⟩ := permitted rfl
    simp only [batcherStep] at stepped
    split at stepped
    · contradiction
    · cases stepped
      exact invariant.rejected last empty
  | stop =>
    cases stepped
    exact ⟨fun running => (by cases running), invariant.processing, fun _ => rfl⟩

end

end Steps

/-- Of any kind of message, no more are executed, waiting or queued than were added. -/
def ExecutedOnce (state : BatcherState) : Prop :=
  ∀ kind : QueuedMessage → Bool,
    state.executed.flatten.countP kind + state.waiting.countP kind + state.messageQueue.countP kind ≤
      state.added.countP kind

section Counts

variable {state after : BatcherState} {event : BatcherEvent}

theorem ExecutedOnce.processBatch (once : ExecutedOnce state) : ExecutedOnce (processBatch state) := by
  intro kind
  have held := once kind
  by_cases empty : state.messageQueue = []
  · rw [processBatch_empty empty]
    exact held
  · rw [processBatch_some empty]
    have sorted := (sortByTimestamp_perm state.messageQueue).countP_eq kind
    have groups := groupBatch_flatten (sortByTimestamp state.messageQueue)
    have cut := congrArg (fun groups => List.countP kind (List.flatten groups))
      (List.take_append_drop 1 (groupBatch (sortByTimestamp state.messageQueue)))
    simp only [List.flatten_append, List.countP_append, groups] at cut
    simp only [BatcherState.waiting, List.flatten_append, List.countP_append, List.countP_nil]
    omega

theorem ExecutedOnce.addMessage (once : ExecutedOnce state) (message : QueuedMessage) :
    ExecutedOnce (addMessage state message) := by
  have pushed : ExecutedOnce { state with
      messageQueue := state.messageQueue ++ [message]
      added := state.added ++ [message] } := by
    intro kind
    have held := once kind
    simp only [BatcherState.waiting, List.countP_append] at held ⊢
    omega
  rw [Worker.addMessage]
  dsimp only
  split
  · exact pushed
  split
  · exact pushed
  split
  · exact ExecutedOnce.processBatch pushed
  · exact pushed

theorem ExecutedOnce.ended (once : ExecutedOnce state) (batchTimer : Bool) :
    ExecutedOnce { state with batchTimer, isProcessing := false, running := [] } := by
  intro kind
  have held := once kind
  simp only [BatcherState.waiting, List.drop_nil, List.flatten_nil, List.countP_nil]
  omega

theorem ExecutedOnce.step (once : ExecutedOnce state)
    (stepped : batcherStep state event = some after) : ExecutedOnce after := by
  cases event with
  | addMessage message =>
    cases stepped
    exact once.addMessage message
  | timerFires =>
    simp only [batcherStep] at stepped
    split at stepped
    · cases stepped
      exact once.processBatch
    · contradiction
  | groupReturns =>
    simp only [batcherStep] at stepped
    split at stepped
    · contradiction
    · cases stepped
      exact once.ended _
    · rename_i done next rest running
      cases stepped
      intro kind
      have held := once kind
      simp only [BatcherState.waiting, running, List.drop_one, List.tail_cons, List.flatten_cons,
        List.flatten_append, List.countP_append, List.flatten_nil, List.countP_nil] at held ⊢
      omega
  | groupThrows =>
    simp only [batcherStep] at stepped
    split at stepped
    · contradiction
    · cases stepped
      exact once.ended _
  | stop =>
    cases stepped
    exact once

end Counts

theorem batching_invariant {state : BatcherState}
    (reached : batching.Reachable ThrowsAtEnd state) : BatcherInvariant state := by
  apply reached.invariant
  · intro state begins
    subst begins
    exact ⟨fun _ => by decide, by decide, by decide⟩
  · intro before event after _ invariant permitted stepped
    exact invariant.step permitted stepped

/-- While an execution throws only at the end of its batch and with an empty
queue, no message is stranded, lost or repeated before `stop()`. -/
theorem batcher_loses_nothing :
    ∀ state : BatcherState, batching.Reachable ThrowsAtEnd state → state.stopped = false → NothingLost state := by
  intro state reached running
  exact (batching_invariant reached).account running

def queuedAt (messageId : String) (timestamp : Int) : QueuedMessage where
  payload := { messageId, channelId := "channel" }
  timestamp

/-- Two incompatible messages arrive, out of order, while the first is executed. -/
def batchOfTwo : List BatcherEvent :=
  [.addMessage (queuedAt "first" 0), .addMessage (queuedAt "third" 2),
    .addMessage (queuedAt "second" 1), .groupReturns, .timerFires]

theorem batcher_loses_nothing_of_two :
    ∃ state : BatcherState, batching.Reachable ThrowsAtEnd state ∧ state.stopped = false ∧
      state.handed = [[queuedAt "first" 0], [queuedAt "second" 1, queuedAt "third" 2]] ∧ NothingLost state := by
  obtain ⟨state, reached, tested⟩ := Machine.exists_of_replay batching ThrowsAtEnd BatcherState.initial batchOfTwo
    (fun state => !state.stopped &&
      state.handed == [[queuedAt "first" 0], [queuedAt "second" 1, queuedAt "third" 2]])
    rfl (by decide)
  simp only [Bool.and_eq_true, Bool.not_eq_true', beq_iff_eq] at tested
  exact ⟨state, reached, tested.1, tested.2, batcher_loses_nothing state reached tested.1⟩

/-- The first of the two executions throws while a fourth message is queued. -/
theorem batcher_loses_messages :
    (¬ ∀ state : BatcherState, batching.Reachable unrestricted state → state.stopped = false → NothingLost state) ∧
    ∃ state : BatcherState, batching.Reachable unrestricted state ∧ state.stopped = false ∧
      state.messageQueue = [queuedAt "fourth" 3] ∧ state.isProcessing = false ∧
      state.batchTimer = false ∧ state.executed = [[queuedAt "first" 0], [queuedAt "second" 1]] := by
  obtain ⟨state, reached, tested⟩ := Machine.exists_of_replay batching unrestricted
    BatcherState.initial (batchOfTwo ++ [.addMessage (queuedAt "fourth" 3), .groupThrows])
    (fun state => !state.stopped && state.messageQueue == [queuedAt "fourth" 3] &&
      !state.isProcessing && !state.batchTimer &&
      state.executed == [[queuedAt "first" 0], [queuedAt "second" 1]])
    rfl (by decide)
  simp only [Bool.and_eq_true, Bool.not_eq_true', beq_iff_eq] at tested
  obtain ⟨⟨⟨⟨running, queued⟩, resting⟩, cleared⟩, executed⟩ := tested
  refine ⟨fun always => ?_, state, reached, running, queued, resting, cleared, executed⟩
  rcases (always state reached running).notStranded (by rw [queued]; simp) with busy | armed
  · rw [resting] at busy
    contradiction
  · rw [cleared] at armed
    contradiction

end Lobu.Worker
