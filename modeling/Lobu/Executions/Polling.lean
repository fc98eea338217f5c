import Lobu.Executions.ExecutionTasks

namespace Lobu.Executions

open Lobu.Foundation

/-! # What lasts of an execution task

The writes to the row are settled by one statement, the polls by the order of the ids.
-/

variable {numberText : Rat → String} {log before after : TaskLog} {event : LogEvent}
variable {row : ExecutionTaskRow} {status : ExecutionTaskStatus} {updates : StatusUpdates}

/-- What a replay of the creation compares, but for the status. -/
def ExecutionTaskRow.SameTask (row other : ExecutionTaskRow) : Prop :=
  row.agentId = other.agentId ∧ row.sessionId = other.sessionId ∧
    row.conversationId = other.conversationId ∧ row.userId = other.userId ∧
    row.source = other.source ∧ row.metadata = other.metadata

structure ExecutionTaskRow.SameOutcome (row other : ExecutionTaskRow) : Prop where
  status : other.status = row.status
  completedAt : other.completedAt = row.completedAt
  finalSummary : other.finalSummary = row.finalSummary
  error : other.error = row.error

/-- What every write of a row keeps, `written` being the status that it is given. -/
structure RowKept (row other : ExecutionTaskRow) (written : Option ExecutionTaskStatus) : Prop where
  task : other.SameTask row
  terminal : isTerminalStatus row.status = true → isTerminalStatus other.status = true
  completedAt : ∀ moment, row.completedAt = some moment → other.completedAt = some moment
  outcome : isTerminalStatus row.status = true →
    (∀ status, written = some status → isTerminalStatus status = false) → row.SameOutcome other

theorem RowKept.of_untouched {other : ExecutionTaskRow} {written : Option ExecutionTaskStatus}
    (task : other.SameTask row) (same : row.SameOutcome other) : RowKept row other written where
  task := task
  terminal ended := by rw [same.status, ended]
  completedAt moment found := by rw [same.completedAt, found]
  outcome _ _ := same

/-- A row that has not ended yet has nothing to lose but its time of completion. -/
theorem RowKept.of_going {other : ExecutionTaskRow} {written : Option ExecutionTaskStatus}
    (going : isTerminalStatus row.status = false) (task : other.SameTask row)
    (completedAt : ∀ moment, row.completedAt = some moment → other.completedAt = some moment) :
    RowKept row other written where
  task := task
  terminal ended := absurd ended (by rw [going]; decide)
  completedAt := completedAt
  outcome ended := absurd ended (by rw [going]; decide)

theorem updateExecutionTaskStatus_kept (row : ExecutionTaskRow) (status : ExecutionTaskStatus)
    (updates : StatusUpdates) (clientNow now : Int) :
    RowKept row (updateExecutionTaskStatus numberText row status updates clientNow now) (some status) := by
  cases ended : isTerminalStatus row.status with
  | false =>
    refine RowKept.of_going ended ⟨rfl, rfl, rfl, rfl, rfl, rfl⟩ ?_
    intro moment found
    simp [updateExecutionTaskStatus, ended, found]
  | true =>
    cases terminal : isTerminalStatus status with
    | false =>
      refine RowKept.of_untouched ⟨rfl, rfl, rfl, rfl, rfl, rfl⟩ ⟨?_, ?_, ?_, ?_⟩ <;>
        simp [updateExecutionTaskStatus, ended, terminal]
    | true =>
      refine ⟨⟨rfl, rfl, rfl, rfl, rfl, rfl⟩, ?_, ?_, ?_⟩
      · intro _
        simp [updateExecutionTaskStatus, terminal]
      · intro moment found
        simp [updateExecutionTaskStatus, terminal, found]
      · intro _ silent
        rw [silent status rfl] at terminal
        contradiction

theorem recordedRow_kept (row : ExecutionTaskRow) (input : RecordExecutionEventInput) (clientNow now : Int) :
    RowKept row (recordedRow numberText row input clientNow now) input.status := by
  cases given : input.status with
  | none =>
    rw [recordedRow, given]
    exact RowKept.of_untouched ⟨rfl, rfl, rfl, rfl, rfl, rfl⟩ ⟨rfl, rfl, rfl, rfl⟩
  | some status =>
    rw [recordedRow, given]
    exact updateExecutionTaskStatus_kept row status input.toStatusUpdates clientNow now

/-- The status that an event gives the row, if any. -/
def TaskLog.written (log : TaskLog) : LogEvent → Option ExecutionTaskStatus
  | .updateStatus status _ _ _ => some status
  | .commit _ _ =>
    match log.writer with
    | some (.inserted input _) => input.status
    | _ => none
  | _ => none

/-- No write gives the task a terminal status. -/
def noTerminalWrites : Discipline TaskLog LogEvent := fun log event =>
  ∀ status, log.written event = some status → isTerminalStatus status = false

/-- The writer's event comes after all that are recorded. -/
def EventWriter.Ahead (events : List ExecutionEvent) (nextEventId : Nat) : EventWriter → Prop
  | .locked _ => True
  | .inserted _ event => (∀ old ∈ events, old.id < event.id) ∧ event.id < nextEventId

/-- What the client has received is a part of the log without gaps that ends at its cursor. -/
def PollingClient.Follows (client : PollingClient) (events : List ExecutionEvent) : Prop :=
  ∀ cursor, client.cursor = some cursor → ∃ rest last,
    events = client.seen ++ (client.received ++ rest) ∧
      (client.seen ++ client.received).getLast? = some last ∧ last.id = cursor

structure LogKept (log : TaskLog) : Prop where
  created : log.row.SameTask (log.creation.row 0)
  ordered : log.events.Pairwise fun first second => first.id < second.id
  below : ∀ event ∈ log.events, event.id < log.nextEventId
  ahead : ∀ writer, log.writer = some writer → writer.Ahead log.events log.nextEventId
  follows : log.client.Follows log.events

section Pages

variable {events front rest : List ExecutionEvent} {last : ExecutionEvent}

theorem byId_of_ordered (ordered : events.Pairwise fun first second => first.id < second.id) :
    (events.insertionSort fun first second => first.id ≤ second.id) = events :=
  (ordered.imp Nat.le_of_lt).insertionSort_eq

theorem filter_after (ordered : (front ++ rest).Pairwise fun first second => first.id < second.id)
    (ends : front.getLast? = some last) : ((front ++ rest).filter fun event => last.id < event.id) = rest := by
  obtain ⟨before, rfl⟩ := List.getLast?_eq_some_iff.mp ends
  obtain ⟨inFront, -, apart⟩ := List.pairwise_append.mp ordered
  have nothing : (before ++ [last]).filter (fun event => last.id < event.id) = [] := by
    rw [List.filter_eq_nil_iff]
    intro event member
    rw [decide_eq_true_eq, Nat.not_lt]
    rcases List.mem_append.mp member with earlier | isLast
    · exact Nat.le_of_lt ((List.pairwise_append.mp inFront).2.2 event earlier last (by simp))
    · rw [List.mem_singleton.mp isLast]
  have all : rest.filter (fun event => last.id < event.id) = rest := by
    rw [List.filter_eq_self]
    intro event member
    exact decide_eq_true (apart last (by simp) event member)
  rw [List.filter_append, nothing, all, List.nil_append]

theorem clampedLimit_pos (limit : Option Int) : 1 ≤ clampedLimit limit := by
  unfold clampedLimit
  omega

theorem eventPage_after (ordered : (front ++ rest).Pairwise fun first second => first.id < second.id)
    (ends : front.getLast? = some last) (limit : Option Int) :
    (eventPage (front ++ rest) (some last.id) limit).events = rest.take (clampedLimit limit) := by
  simp only [eventPage, byId_of_ordered ordered, filter_after ordered ends, Option.isNone_some,
    Bool.false_and, Bool.false_eq_true, if_false]
  rw [List.take_take, Nat.min_eq_left (Nat.le_succ _)]

theorem eventPage_nextCursor (cursor : Option Nat) (limit : Option Int) :
    (eventPage events cursor limit).nextCursor =
      (eventPage events cursor limit).events.getLast?.map ExecutionEvent.id := rfl

theorem eventPage_first (ordered : events.Pairwise fun first second => first.id < second.id) (limit : Option Int) :
    (eventPage events none limit).events = events.drop (events.length - clampedLimit limit) := by
  simp only [eventPage, byId_of_ordered ordered, Option.isNone_none, Bool.true_and]
  rw [List.take_reverse, List.reverse_reverse]
  by_cases more : clampedLimit limit < events.length
  · rw [if_pos (by simp; omega), List.drop_drop]
    congr 1
    omega
  · rw [if_neg (by simp; omega), List.take_of_length_le (by simp; omega)]
    congr 1
    omega

end Pages

theorem PollingClient.Follows.poll {client : PollingClient} {events : List ExecutionEvent}
    (follows : client.Follows events)
    (ordered : events.Pairwise fun first second => first.id < second.id) (limit : Option Int) :
    (client.poll events limit).Follows events := by
  have positive := clampedLimit_pos limit
  intro cursor
  cases had : client.cursor with
  | none =>
    cases next : (eventPage events none limit).nextCursor with
    | none => simp [PollingClient.poll, had, next]
    | some given =>
      rw [eventPage_nextCursor, eventPage_first ordered, List.getLast?_drop] at next
      obtain ⟨last, ends, isGiven⟩ := Option.map_eq_some_iff.mp next
      obtain ⟨-, ends⟩ := Option.ite_none_left_eq_some.mp ends
      rw [← List.getLast?_drop, ← eventPage_first ordered, ← eventPage_nextCursor] at next
      simp only [PollingClient.poll, had, next, Option.some.injEq]
      rintro rfl
      exact ⟨[], last, by simp, by simpa using ends, isGiven⟩
  | some held =>
    obtain ⟨rest, last, whole, ends, rfl⟩ := follows held had
    rw [← List.append_assoc] at whole
    have page : (eventPage events (some last.id) limit).events = rest.take (clampedLimit limit) := by
      rw [whole] at ordered ⊢
      exact eventPage_after ordered ends limit
    cases next : (eventPage events (some last.id) limit).nextCursor with
    | none =>
      simp only [PollingClient.poll, had, next, Option.some.injEq]
      rintro rfl
      exact ⟨rest, last, by rw [whole, List.append_assoc], ends, rfl⟩
    | some given =>
      have found := next
      rw [eventPage_nextCursor, page] at found
      obtain ⟨newest, isLast, isGiven⟩ := Option.map_eq_some_iff.mp found
      simp only [PollingClient.poll, had, next, Option.some.injEq, page]
      rintro rfl
      refine ⟨rest.drop (clampedLimit limit), newest, ?_, ?_, isGiven⟩
      · rw [whole, List.append_assoc, List.append_assoc, List.take_append_drop]
      · rw [← List.append_assoc, List.getLast?_append, isLast, Option.some_or]

theorem EventWriter.Ahead.mono {writer : EventWriter} {events : List ExecutionEvent}
    {next later : Nat} (ahead : writer.Ahead events next) (bound : next ≤ later) : writer.Ahead events later := by
  cases writer with
  | locked input => trivial
  | inserted input event => exact ⟨ahead.1, ahead.2.trans_le bound⟩

namespace LogKept

theorem of_row (kept : LogKept before) {row : ExecutionTaskRow} (task : row.SameTask before.row) :
    LogKept { before with row } where
  created := by
    obtain ⟨agent, session, conversation, user, source, metadata⟩ := kept.created
    obtain ⟨sameAgent, sameSession, sameConversation, sameUser, sameSource, sameMetadata⟩ := task
    exact ⟨sameAgent.trans agent, sameSession.trans session, sameConversation.trans conversation,
      sameUser.trans user, sameSource.trans source, sameMetadata.trans metadata⟩
  ordered := kept.ordered
  below := kept.below
  ahead := kept.ahead
  follows := kept.follows

theorem of_writer (kept : LogKept before) {writer : Option EventWriter} {next : Nat}
    (bound : before.nextEventId ≤ next) (ahead : ∀ held, writer = some held → held.Ahead before.events next) :
    LogKept { before with nextEventId := next, writer } where
  created := kept.created
  ordered := kept.ordered
  below event member := (kept.below event member).trans_le bound
  ahead := ahead
  follows := kept.follows

theorem record (kept : LogKept before) {event : ExecutionEvent}
    (ahead : ∀ old ∈ before.events, old.id < event.id) (bound : event.id < before.nextEventId) :
    LogKept { before with events := before.events ++ [event], writer := none } where
  created := kept.created
  ordered := by
    refine List.pairwise_append.mpr ⟨kept.ordered, List.pairwise_singleton _ _, ?_⟩
    intro old member new isNew
    rw [List.mem_singleton.mp isNew]
    exact ahead old member
  below other member := by
    rcases List.mem_append.mp member with old | new
    · exact kept.below other old
    · rwa [List.mem_singleton.mp new]
  ahead _ held := nomatch held
  follows cursor had := by
    obtain ⟨rest, last, whole, ends, isLast⟩ := kept.follows cursor had
    refine ⟨rest ++ [event], last, ?_, ends, isLast⟩
    show before.events ++ [event] = _
    rw [whole, List.append_assoc, List.append_assoc]

theorem step (kept : LogKept before) (stepped : before.step numberText event = some after) : LogKept after := by
  cases event with
  | replay input now =>
    cases stepped
    refine kept.of_row ?_
    simp only [createExecutionTaskIdempotent]
    split <;> exact ⟨rfl, rfl, rfl, rfl, rfl, rfl⟩
  | updateStatus status updates clientNow now =>
    simp only [TaskLog.step] at stepped
    split at stepped
    · cases stepped
      exact kept.of_row (updateExecutionTaskStatus_kept _ _ _ _ _).task
    · contradiction
  | lock input =>
    simp only [TaskLog.step] at stepped
    split at stepped
    · cases stepped
      refine kept.of_writer (Nat.le_refl _) ?_
      rintro held ⟨⟩
      trivial
    · contradiction
  | insert now =>
    simp only [TaskLog.step] at stepped
    split at stepped
    · cases stepped
      refine kept.of_writer (Nat.le_succ _) ?_
      rintro held ⟨⟩
      exact ⟨kept.below, Nat.lt_succ_self _⟩
    · contradiction
  | commit clientNow now =>
    simp only [TaskLog.step] at stepped
    split at stepped
    · rename_i input event held
      cases stepped
      have ahead := kept.ahead _ held
      exact (kept.of_row (recordedRow_kept before.row input clientNow now).task).record ahead.1 ahead.2
    · contradiction
  | rollback =>
    cases stepped
    exact kept.of_writer (Nat.le_refl _) fun _ held => nomatch held
  | insertElsewhere =>
    cases stepped
    exact kept.of_writer (Nat.le_succ _) fun writer held =>
      (kept.ahead writer held).mono (Nat.le_succ _)
  | poll limit =>
    cases stepped
    exact ⟨kept.created, kept.ordered, kept.below, kept.ahead, kept.follows.poll kept.ordered limit⟩

end LogKept

theorem logKept (reached : (logMachine numberText).Reachable unrestricted log) : LogKept log := by
  refine reached.invariant ?_ fun _ _ _ _ kept _ stepped => kept.step stepped
  rintro log ⟨creation, now, nextEventId, rfl⟩
  refine ⟨⟨rfl, rfl, rfl, rfl, rfl, rfl⟩, List.Pairwise.nil, ?_, ?_, ?_⟩
  · intro event member
    cases member
  · intro writer held
    cases held
  · intro cursor had
    cases had

/-- A step writes the row once at most. -/
theorem step_row (stepped : before.step numberText event = some after) :
    RowKept before.row after.row (before.written event) := by
  have untouched : ∀ written, RowKept before.row before.row written := fun written =>
    RowKept.of_untouched ⟨rfl, rfl, rfl, rfl, rfl, rfl⟩ ⟨rfl, rfl, rfl, rfl⟩
  cases event with
  | replay input now =>
    cases stepped
    simp only [createExecutionTaskIdempotent]
    split <;> exact untouched _
  | updateStatus status updates clientNow now =>
    simp only [TaskLog.step] at stepped
    split at stepped
    · cases stepped
      exact updateExecutionTaskStatus_kept _ _ _ _ _
    · contradiction
  | commit clientNow now =>
    simp only [TaskLog.step] at stepped
    split at stepped
    · rename_i input event held
      cases stepped
      simp only [TaskLog.written, held]
      exact recordedRow_kept _ _ _ _
    · contradiction
  | lock input | insert now =>
    simp only [TaskLog.step] at stepped
    split at stepped
    · cases stepped
      exact untouched _
    · contradiction
  | rollback | insertElsewhere | poll limit =>
    cases stepped
    exact untouched _

theorem terminal_later {allowed : Discipline TaskLog LogEvent}
    (later : (logMachine numberText).Later allowed before after) :
    (isTerminalStatus before.row.status = true → isTerminalStatus after.row.status = true) ∧
      ∀ moment, before.row.completedAt = some moment → after.row.completedAt = some moment := by
  induction later with
  | refl => exact ⟨id, fun _ found => found⟩
  | tail _ moved ih =>
    obtain ⟨event, -, stepped⟩ := moved
    have kept := step_row stepped
    exact ⟨fun ended => kept.terminal (ih.1 ended), fun moment found =>
      kept.completedAt moment (ih.2 moment found)⟩

theorem outcome_later (later : (logMachine numberText).Later noTerminalWrites before after)
    (ended : isTerminalStatus before.row.status = true) : before.row.SameOutcome after.row := by
  induction later with
  | refl => exact ⟨rfl, rfl, rfl, rfl⟩
  | tail earlier moved ih =>
    obtain ⟨event, silent, stepped⟩ := moved
    have same := (step_row stepped).outcome ((terminal_later earlier).1 ended) silent
    exact ⟨same.status.trans ih.status, same.completedAt.trans ih.completedAt,
      same.finalSummary.trans ih.finalSummary, same.error.trans ih.error⟩

theorem replay_of_created (kept : LogKept log)
    (unmoved : log.row.status = log.creation.status.getD .running) (now : Int) :
    createExecutionTaskIdempotent (some log.row) log.creation now = (log.row, .ok log.row) := by
  obtain ⟨agent, session, conversation, user, source, metadata⟩ := kept.created
  have agrees : replayConflicts log.row log.creation = false := by
    simp [replayConflicts, agent, session, conversation, user, source, metadata, unmoved,
      CreateExecutionTaskInput.row]
  simp only [createExecutionTaskIdempotent, agrees, Bool.false_eq_true, if_false]

def plainCreation : CreateExecutionTaskInput where
  id := "t"
  agentId := "a"
  sessionId := none
  conversationId := none
  userId := none
  source := none
  status := none
  metadata := none

def deltaEvent : RecordExecutionEventInput where
  type := "assistant.delta"
  message := none
  payload := .undefined
  status := none
  finalSummary := .undefined
  error := .undefined

end Lobu.Executions
