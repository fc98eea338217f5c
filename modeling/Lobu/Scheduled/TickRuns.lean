import Lobu.Scheduled.TaskScheduler

namespace Lobu.Scheduled

open Lobu.Foundation Lobu.Queue

/-! # One run for each tick

A seed is deduplicated by an index over active rows, so a tick may get a second
row once its first one has ended.  `SeedsWhileActive` rules that out; everything
else about ticks holds in every run.
-/

def forTick (name : String) (tick : Instant) (entry : Nat × TaskJobData) : Bool :=
  entry.2.name == name && entry.2.scheduledTick == some tick

/-- At most one row was ever inserted for a tick, and a handler's body only ever
ran for the task and the tick its row was inserted for. -/
structure OneRunPerTick (state : SchedulerState) : Prop where
  inserted : ∀ name tick, (state.inserted.filter (forTick name tick)).length ≤ 1
  dispatched : ∀ call ∈ state.dispatched, call ∈ state.inserted ∧
    ∀ entry ∈ state.inserted, entry.1 = call.1 → entry = call

/-- A tick that has had a row is seeded again only while a row under its key is active. -/
def SeedsWhileActive (schedule : Schedule) : Discipline SchedulerState SchedulerEvent :=
  fun state event =>
    match seedTarget schedule state event with
    | some (name, tick) => (∃ entry ∈ state.inserted, forTick name tick entry = true) →
        ∃ row ∈ state.queue.runs, activeUnder (cronSeedKey name tick) row = true
    | none => True

instance (schedule : Schedule) (state : SchedulerState) (event : SchedulerEvent) :
    Decidable (SeedsWhileActive schedule state event) := by
  rw [SeedsWhileActive]
  split <;> infer_instance

/-- Rows, calls and bodies carry what their row was inserted with. -/
structure Ledger (inserted : List (Nat × TaskJobData)) (queue : QueueState TaskJobData) : Prop where
  ids : UniqueIds queue
  once : (inserted.map Prod.fst).Nodup
  below : ∀ entry ∈ inserted, entry.1 < queue.nextId
  rows : ∀ row ∈ queue.runs, (row.id, row.actionInput) ∈ inserted
  calls : ∀ execution ∈ queue.executions,
    (execution.claimed.runId, execution.claimed.payload) ∈ inserted

section Steps

variable {schedule : Schedule} {inserted : List (Nat × TaskJobData)}
variable {queue next : QueueState TaskJobData} {state after : SchedulerState}
variable {event : QueueEvent TaskJobData} {statement : RowUpdate (Run TaskJobData)}
variable {execution : Execution TaskJobData} {index : Nat}

theorem Ledger.update (ledger : Ledger inserted queue) (ids : UniqueIds next)
    (kept : ∀ row, (statement.sets row).id = row.id ∧ (statement.sets row).actionInput = row.actionInput)
    (runs : next.runs = statement.run queue.runs) (nextId : next.nextId = queue.nextId)
    (calls : ∀ execution ∈ next.executions, (execution.claimed.runId, execution.claimed.payload) ∈ inserted) :
    Ledger inserted next where
  ids := ids
  once := ledger.once
  below := by
    rw [nextId]
    exact ledger.below
  rows row member := by
    rw [runs, RowUpdate.mem_run] at member
    obtain ⟨old, oldMember, rfl⟩ := member
    rw [statement.onRow_column Run.id (fun row => (kept row).1),
      statement.onRow_column Run.actionInput (fun row => (kept row).2)]
    exact ledger.rows old oldMember
  calls := calls

theorem Ledger.calls_set (ledger : Ledger inserted queue) {later : Execution TaskJobData}
    (found : queue.executions[index]? = some execution) (advances : execution.Advances later)
    (executions : next.executions = queue.executions.set index later) :
    ∀ execution ∈ next.executions, (execution.claimed.runId, execution.claimed.payload) ∈ inserted := by
  intro call member
  rw [executions] at member
  rcases List.mem_or_eq_of_mem_set member with old | rfl
  · exact ledger.calls call old
  · rw [advances.claimed]
    exact ledger.calls execution (List.mem_of_getElem? found)

theorem Ledger.step (ledger : Ledger inserted queue) (sends : ∀ request now, event ≠ .enqueue request now)
    (stepped : consumerStep queue event = some next) : Ledger inserted next := by
  have effect := consumerStep_effect stepped
  have ids := effect.uniqueIds ledger.ids
  cases effect with
  | quiet runs nextId executions =>
    exact ⟨ids, ledger.once, by rw [nextId]; exact ledger.below, by rw [runs]; exact ledger.rows,
      by rw [executions]; exact ledger.calls⟩
  | inserted request now asked => exact absurd asked (sends request now)
  | released statement releases runs nextId executions =>
    refine ledger.update ids (fun row => ⟨releases.keeps_id row, releases.keeps_input row⟩) runs
      nextId ?_
    rw [executions]
    exact ledger.calls
  | claimed identity row now execution _ _ member started runs nextId executions =>
    refine ledger.update ids (fun row => ⟨rfl, rfl⟩) runs nextId ?_
    intro call callMember
    rw [executions, List.mem_append, List.mem_singleton] at callMember
    rcases callMember with old | rfl
    · exact ledger.calls call old
    · obtain ⟨_, sameRun, samePayload, _⟩ := started
      rw [sameRun, samePayload]
      exact ledger.rows row member
  | progressed index execution later found advances runs nextId executions =>
    exact ⟨ids, ledger.once, by rw [nextId]; exact ledger.below, by rw [runs]; exact ledger.rows,
      ledger.calls_set found advances executions⟩
  | wrote index execution later records statement found advances writes _ runs nextId executions =>
    exact ledger.update ids (fun row => ⟨writes.keeps_id row, writes.keeps_input row⟩) runs
      nextId (ledger.calls_set found advances executions)

theorem Ledger.cleanup (ledger : Ledger inserted queue) (cleanup : RunsCleanup) :
    Ledger inserted { queue with runs := cleanup.run queue.runs } where
  ids := {
    nodup := ledger.ids.nodup.sublist (List.filter_sublist.map _)
    below := fun row member => ledger.ids.below row (mem_deleteWhere.mp member).1 }
  once := ledger.once
  below := ledger.below
  rows row member := ledger.rows row (mem_deleteWhere.mp member).1
  calls := ledger.calls

variable {request : SendRequest TaskJobData} {now localNow : Instant}
variable {name : String} {tick : Instant}

theorem SchedulerState.send_conflict (conflict : insertRun request state.queue.nextId now state.queue.runs = none) :
    state.send request now = state := by
  simp [SchedulerState.send, conflict]

theorem SchedulerState.send_inserted {row : Run TaskJobData}
    (free : insertRun request state.queue.nextId now state.queue.runs = some row) :
    row = request.row state.queue.nextId now ∧
      (state.send request now).inserted =
        state.inserted ++ [(state.queue.nextId, request.data)] ∧
      (state.send request now).queue = { state.queue with
        runs := state.queue.runs ++ [request.row state.queue.nextId now]
        nextId := state.queue.nextId + 1 } := by
  obtain ⟨rfl, _⟩ := insertRun_some free
  simp [SchedulerState.send, free, SendRequest.row]

theorem Ledger.send (ledger : Ledger state.inserted state.queue) (request : SendRequest TaskJobData) (now : Instant) :
    Ledger (state.send request now).inserted (state.send request now).queue ∧
      ∀ entry ∈ state.inserted, entry ∈ (state.send request now).inserted := by
  cases result : insertRun request state.queue.nextId now state.queue.runs with
  | none =>
    rw [SchedulerState.send_conflict result]
    exact ⟨ledger, fun _ member => member⟩
  | some row =>
    obtain ⟨rfl, inserted, queue⟩ := SchedulerState.send_inserted result
    rw [inserted, queue]
    refine ⟨⟨ledger.ids.insert rfl rfl, ?_, ?_, ?_, ?_⟩, fun entry member => List.mem_append_left _ member⟩
    · exact nodup_append_drawn ledger.once ledger.below rfl
    · exact below_append_drawn ledger.below rfl
    · intro row member
      rcases List.mem_append.mp member with old | new
      · exact List.mem_append_left _ (ledger.rows row old)
      · rw [List.mem_singleton.mp new]
        exact List.mem_append_right _ (List.mem_singleton.mpr rfl)
    · intro execution member
      exact List.mem_append_left _ (ledger.calls execution member)

def TickOnce (inserted : List (Nat × TaskJobData)) : Prop :=
  ∀ name tick, (inserted.filter (forTick name tick)).length ≤ 1

theorem TickOnce.spawn {payload : String} {options : SpawnOptions} (once : TickOnce state.inserted) :
    TickOnce (state.send (spawnRequest name payload options localNow) now).inserted := by
  cases result : insertRun (spawnRequest name payload options localNow) state.queue.nextId now state.queue.runs with
  | none =>
    rw [SchedulerState.send_conflict result]
    exact once
  | some row =>
    obtain ⟨_, inserted, _⟩ := SchedulerState.send_inserted result
    intro task at_
    have tickless : forTick task at_ (state.queue.nextId,
        (spawnRequest name payload options localNow).data) = false := by
      simp [forTick, spawnRequest]
    rw [inserted, List.filter_append, List.filter_singleton, tickless]
    simpa using once task at_

theorem TickOnce.seed (once : TickOnce state.inserted)
    (active : (∃ entry ∈ state.inserted, forTick name tick entry = true) →
      ∃ row ∈ state.queue.runs, activeUnder (cronSeedKey name tick) row = true) :
    TickOnce (state.send (seedRequest name tick localNow) now).inserted := by
  cases result : insertRun (seedRequest name tick localNow) state.queue.nextId now state.queue.runs with
  | none =>
    rw [SchedulerState.send_conflict result]
    exact once
  | some row =>
    obtain ⟨_, inserted, _⟩ := SchedulerState.send_inserted result
    have fresh : ∀ entry ∈ state.inserted, forTick name tick entry = false := by
      intro entry member
      rw [← Bool.not_eq_true]
      intro same
      have free := (insertRun_some result).2
      rw [← Bool.not_eq_true] at free
      exact free (PartialIndex.conflicts_iff.mpr ⟨cronSeedKey name tick, rfl, active ⟨entry, member, same⟩⟩)
    intro task at_
    rw [inserted, List.filter_append, List.length_append]
    by_cases same : forTick task at_ (state.queue.nextId, (seedRequest name tick localNow).data) = true
    · have own : name = task ∧ tick = at_ := by
        simpa [forTick, seedRequest] using same
      obtain ⟨rfl, rfl⟩ := own
      have none_ : state.inserted.filter (forTick name tick) = [] := by
        rw [List.filter_eq_nil_iff]
        intro entry member
        simp [fresh entry member]
      rw [none_, List.filter_singleton, same]
      simp
    · have other := once task at_
      rw [Bool.not_eq_true] at same
      rw [List.filter_singleton, same]
      simpa using other

structure SchedulerInvariant (state : SchedulerState) : Prop where
  ledger : Ledger state.inserted state.queue
  once : TickOnce state.inserted
  dispatched : ∀ call ∈ state.dispatched, call ∈ state.inserted

theorem SchedulerInvariant.queueStep (invariant : SchedulerInvariant state)
    (sends : ∀ request now, event ≠ .enqueue request now) (stepped : consumerStep state.queue event = some next) :
    SchedulerInvariant { state with queue := next } :=
  ⟨invariant.ledger.step sends stepped, invariant.once, invariant.dispatched⟩

theorem SchedulerState.send_dispatched : (state.send request now).dispatched = state.dispatched := by
  rw [SchedulerState.send]
  split <;> rfl

theorem SchedulerInvariant.send (invariant : SchedulerInvariant state)
    (once : TickOnce (state.send request now).inserted) : SchedulerInvariant (state.send request now) := by
  obtain ⟨ledger, grows⟩ := invariant.ledger.send request now
  refine ⟨ledger, once, ?_⟩
  rw [SchedulerState.send_dispatched]
  exact fun call member => grows call (invariant.dispatched call member)

theorem SchedulerInvariant.seed {event : SchedulerEvent} (invariant : SchedulerInvariant state)
    (localNow now : Instant) (permitted : SeedsWhileActive schedule state event) :
    SchedulerInvariant (Scheduled.seed state localNow now (seedTarget schedule state event)) ∧
      ∀ entry ∈ state.inserted,
        entry ∈ (Scheduled.seed state localNow now (seedTarget schedule state event)).inserted := by
  simp only [SeedsWhileActive] at permitted
  split at permitted
  · rename_i name tick target
    rw [target]
    exact ⟨invariant.send (invariant.once.seed permitted), (invariant.ledger.send _ _).2⟩
  · rename_i target
    rw [target]
    exact ⟨invariant, fun _ member => member⟩

theorem dispatching_mem (found : state.dispatching index = some execution) : execution ∈ state.queue.executions :=
  List.mem_of_getElem? (Option.filter_eq_some_iff.mp found).1

theorem SchedulerInvariant.step {event : SchedulerEvent} (invariant : SchedulerInvariant state)
    (permitted : SeedsWhileActive schedule state event)
    (stepped : schedulerStep schedule state event = some after) : SchedulerInvariant after := by
  cases schedulerStep_effect stepped with
  | queued inner next sends moved => exact invariant.queueStep sends moved
  | spawned => exact invariant.send invariant.once.spawn
  | seeded localNow now => exact (invariant.seed localNow now permitted).1
  | dispatched index localNow now execution asked found reaches between seeded =>
    obtain ⟨kept, grows⟩ := invariant.seed localNow now permitted
    rw [← seeded] at kept grows
    refine ⟨kept.ledger, kept.once, ?_⟩
    intro call member
    rcases List.mem_append.mp member with old | new
    · exact kept.dispatched call old
    · rw [List.mem_singleton.mp new]
      exact grows _ (invariant.ledger.calls execution (dispatching_mem found))
  | failed index localNow now between next seeded moved =>
    have kept := (invariant.seed localNow now permitted).1
    rw [← seeded] at kept
    exact kept.queueStep (by simp) moved
  | cleaned cleanup =>
    exact ⟨invariant.ledger.cleanup cleanup, invariant.once, invariant.dispatched⟩

end Steps

theorem scheduling_invariant {schedule : Schedule} {state : SchedulerState}
    (reached : (scheduling schedule).Reachable (SeedsWhileActive schedule) state) : SchedulerInvariant state := by
  apply reached.invariant
  · intro state begins
    obtain ⟨identities, rfl⟩ := begins
    refine ⟨⟨⟨List.nodup_nil, ?_⟩, List.nodup_nil, ?_, ?_, ?_⟩, ?_, ?_⟩
    · exact fun row member => absurd member List.not_mem_nil
    · exact fun entry member => absurd member List.not_mem_nil
    · exact fun row member => absurd member List.not_mem_nil
    · exact fun execution member => absurd member List.not_mem_nil
    · exact fun _ _ => Nat.zero_le _
    · exact fun call member => absurd member List.not_mem_nil
  · intro before event after _ invariant permitted stepped
    exact invariant.step permitted stepped

/-- Each tick of a task has at most one run, while no tick is seeded again after
its row has ended. -/
theorem one_run_per_tick :
    ∀ (schedule : Schedule) (state : SchedulerState),
      (scheduling schedule).Reachable (SeedsWhileActive schedule) state → OneRunPerTick state := by
  intro schedule state reached
  have invariant := scheduling_invariant reached
  refine ⟨invariant.once, fun call member => ?_⟩
  have present := invariant.dispatched call member
  refine ⟨present, fun entry entryMember same => ?_⟩
  exact RowUpdate.eq_of_column invariant.ledger.once entryMember present same

/-- One task that is due at every full minute. -/
def minutely : Schedule where
  handlers := [{ name := "sweep", cron := some "* * * * *" }]
  nextRunAt _ start := some ((start / 60000 + 1) * 60000)

/-- Two pods boot and seed the first minute; one of them dispatches it. -/
def firstMinute : List SchedulerEvent :=
  [.queue (.start 0), .queue (.start 1), .seedAtBoot "sweep" 10 10, .seedAtBoot "sweep" 20 20,
    .queue (.work 0 "task" false), .queue (.work 1 "task" false), .queue (.poll 0 0),
    .queue (.claimOne 0 0 60000 [] true)]

theorem one_run_per_tick_after_first_minute :
    ∃ state : SchedulerState, (scheduling minutely).Reachable (SeedsWhileActive minutely) state ∧
        state.inserted.length = 2 ∧ state.dispatched.length = 1 ∧ OneRunPerTick state := by
  obtain ⟨state, reached, tested⟩ := Machine.exists_of_replay (scheduling minutely)
    (SeedsWhileActive minutely) (SchedulerState.initial ["gateway-a", "gateway-b"])
    (firstMinute ++ [.dispatch 0 60000 60000, .bodyReturns 0])
    (fun state => state.inserted.length == 2 && state.dispatched.length == 1)
    ⟨["gateway-a", "gateway-b"], rfl⟩ (by decide +kernel)
  simp only [Bool.and_eq_true, beq_iff_eq] at tested
  exact ⟨state, reached, tested.1, tested.2, one_run_per_tick minutely state reached⟩

/-! The handler throws and its retry waits for two seconds, but the next minute is
dispatched and completed by the other pod before the retry is claimed. -/

def retriedAfterSuccessor : List SchedulerEvent :=
  firstMinute ++ [.dispatch 0 60000 60000, .bodyThrows 0,
    .queue (.recordFailure 0 "unavailable" 60001), .queue (.poll 1 0),
    .queue (.claimOne 1 0 120000 [1] true), .dispatch 1 120000 120000, .bodyReturns 1,
    .queue (.markCompleted 1 120001), .queue (.poll 0 0),
    .queue (.claimOne 0 0 120002 [] true), .dispatch 2 120002 120002]

theorem tick_run_twice :
    ¬ ∀ (schedule : Schedule) (state : SchedulerState),
      (scheduling schedule).Reachable unrestricted state → OneRunPerTick state := by
  intro always
  obtain ⟨state, reached, tested⟩ := Machine.exists_of_replay (scheduling minutely) unrestricted
    (SchedulerState.initial ["gateway-a", "gateway-b"]) retriedAfterSuccessor
    (fun state => (state.inserted.filter (forTick "sweep" 120000)).length == 2)
    ⟨["gateway-a", "gateway-b"], rfl⟩ (by decide +kernel)
  have once := (always minutely state reached).inserted "sweep" 120000
  rw [beq_iff_eq.mp tested] at once
  omega

end Lobu.Scheduled
