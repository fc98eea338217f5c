import Lobu.Foundation.Text
import Lobu.Scheduled.TickRuns

namespace Lobu.Scheduled

open Lobu.Foundation Lobu.Queue

/-! # The chain of ticks

A dispatch inserts the successor of its tick before it runs the handler, so the
last tick that has a row can only be one that was never dispatched with success.
What could break the chain is an insert deduplicated against a row that is for no
tick of the task; `SpawnsOutsideCron` says that no caller of `spawn` asks for one.
-/

theorem cronSeedKey_injective {name other : String} {tick at_ : Instant}
    (same : cronSeedKey name tick = cronSeedKey other at_) : name = other ∧ tick = at_ := by
  have lists := congrArg String.toList same
  simp only [cronSeedKey, String.toList_append, toISOString_toList, ← List.append_assoc] at lists
  obtain ⟨fronts, tails⟩ :=
    List.append_inj' lists ((isoTail_length tick).trans (isoTail_length at_).symm)
  simp only [List.append_assoc] at fronts
  have names := List.append_cancel_left fronts
  obtain ⟨names, years⟩ :=
    last_separator_injective (colon_not_in_isoYear _) (colon_not_in_isoYear _) names
  exact ⟨String.toList_injective names, instant_of_parts years tails⟩

/-- The keys that callers of `spawn` use are not those of cron seeds. -/
def SpawnsOutsideCron : Discipline SchedulerState SchedulerEvent
  | _, .spawn _ _ options _ _ =>
    (options.idempotencyKey.all fun key => !startsWith key "cron:") = true
  | _, _ => True

instance (state : SchedulerState) (event : SchedulerEvent) :
    Decidable (SpawnsOutsideCron state event) := by
  cases event <;> simp only [SpawnsOutsideCron] <;> infer_instance

/-- `row` is a later version of `old`, still for the same work. -/
structure SameWork (old row : Run TaskJobData) : Prop where
  id : row.id = old.id
  idempotencyKey : row.idempotencyKey = old.idempotencyKey
  actionInput : row.actionInput = old.actionInput
  status : old.status ≠ .running → row.status ≠ .running

variable {statement : RowUpdate (Run TaskJobData)}

theorem SameWork.onRow (sets : ∀ row, SameWork row (statement.sets row)) (row : Run TaskJobData) :
    SameWork row (statement.onRow row) := by
  rw [RowUpdate.onRow]
  split
  · exact sets row
  · exact ⟨rfl, rfl, rfl, fun idle => idle⟩

theorem releases_sameWork (releases : Releases statement)
    (row : Run TaskJobData) : SameWork row (statement.sets row) := by
  cases releases <;> exact ⟨rfl, rfl, rfl, by simp [staleSweep,
    Queue.recoverStaleClaimedRowsOnStartup, Queue.releaseClaims]⟩

theorem writes_sameWork {execution : Execution TaskJobData} {records : Bool} (writes : execution.Writes records statement)
    (row : Run TaskJobData) : SameWork row (statement.sets row) := by
  cases writes with
  | heartbeat now => exact ⟨rfl, rfl, rfl, id⟩
  | completed now => exact ⟨rfl, rfl, rfl, by simp [Queue.markCompleted]⟩
  | failed message now =>
    rw [Execution.failureStatement]
    split
    · exact ⟨rfl, rfl, rfl, by simp [markFailed]⟩
    · exact ⟨rfl, rfl, rfl, by simp [scheduleRetry]⟩

theorem row_origin {before after : QueueState TaskJobData} {event : QueueEvent TaskJobData}
    (sends : ∀ request now, event ≠ .enqueue request now)
    (stepped : consumerStep before event = some after) {row : Run TaskJobData}
    (member : row ∈ after.runs) : ∃ old ∈ before.runs, SameWork old row := by
  have updated (statement : RowUpdate (Run TaskJobData)) (sets : ∀ row, SameWork row (statement.sets row))
      (runs : after.runs = statement.run before.runs) : ∃ old ∈ before.runs, SameWork old row := by
    rw [runs, RowUpdate.mem_run] at member
    obtain ⟨old, present, rfl⟩ := member
    exact ⟨old, present, .onRow sets old⟩
  cases consumerStep_effect stepped with
  | quiet runs | progressed _ _ _ _ _ runs =>
    rw [runs] at member
    exact ⟨row, member, rfl, rfl, rfl, id⟩
  | inserted request now asked => exact absurd asked (sends request now)
  | released statement releases runs => exact updated statement (releases_sameWork releases) runs
  | claimed identity row now execution _ _ _ _ runs =>
    exact updated _ (fun row => ⟨rfl, rfl, rfl, by simp [claimRun]⟩) runs
  | wrote _ _ _ _ statement _ _ writes _ runs =>
    exact updated statement (writes_sameWork writes) runs

/-- Rows under the key of a tick are for that tick, ticks belong to tasks with a cron,
and a tick whose dispatch came to the handler has a successor. -/
structure Chained (schedule : Schedule) (state : SchedulerState) : Prop where
  ledger : Ledger state.inserted state.queue
  keyed : ∀ row ∈ state.queue.runs, ∀ name tick,
    row.idempotencyKey = some (cronSeedKey name tick) → forTick name tick (row.id, row.actionInput)
  periodic : ∀ entry ∈ state.inserted, entry.2.scheduledTick.isSome →
    ∃ registration, schedule.find entry.2.name = some registration ∧ registration.cron.isSome
  succeeded : ∀ call ∈ state.dispatched, call ∈ state.inserted ∧
    ∀ tick, call.2.scheduledTick = some tick → ∃ entry ∈ state.inserted,
      ∃ next, forTick call.2.name next entry ∧ tick < next
  idle : ∀ row ∈ state.queue.runs, row.status ≠ .running

/-- `nextRunAt` gives no instant before the one it starts from. -/
def Schedule.Forward (schedule : Schedule) : Prop :=
  ∀ cron start tick, schedule.nextRunAt cron start = some tick → start ≤ tick

section Steps

variable {schedule : Schedule} {state after : SchedulerState} {event : SchedulerEvent}
variable {next : QueueState TaskJobData} {request : SendRequest TaskJobData}
variable {name : String} {tick now localNow : Instant}

theorem Chained.queueStep {inner : QueueEvent TaskJobData} (chained : Chained schedule state)
    (sends : ∀ request now, inner ≠ .enqueue request now) (moved : consumerStep state.queue inner = some next) :
    Chained schedule { state with queue := next } where
  ledger := chained.ledger.step sends moved
  keyed row member name tick key := by
    obtain ⟨old, present, same⟩ := row_origin sends moved member
    rw [same.idempotencyKey] at key
    have fits := chained.keyed old present name tick key
    rw [same.id, same.actionInput]
    exact fits
  periodic := chained.periodic
  succeeded := chained.succeeded
  idle row member := by
    obtain ⟨old, present, same⟩ := row_origin sends moved member
    exact same.status (chained.idle old present)

theorem Chained.cleanup (chained : Chained schedule state) (cleanup : RunsCleanup) :
    Chained schedule { state with queue := { state.queue with runs := cleanup.run state.queue.runs } } where
  ledger := chained.ledger.cleanup cleanup
  keyed row member := chained.keyed row (mem_deleteWhere.mp member).1
  periodic := chained.periodic
  succeeded := chained.succeeded
  idle row member := chained.idle row (mem_deleteWhere.mp member).1

theorem Chained.send (chained : Chained schedule state)
    (keyed : ∀ name tick, request.idempotencyKey = some (cronSeedKey name tick) →
      request.data.name = name ∧ request.data.scheduledTick = some tick)
    (periodic : request.data.scheduledTick.isSome → ∃ registration,
      schedule.find request.data.name = some registration ∧ registration.cron.isSome) :
    Chained schedule (state.send request now) := by
  cases result : insertRun request state.queue.nextId now state.queue.runs with
  | none =>
    rw [SchedulerState.send_conflict result]
    exact chained
  | some row =>
    obtain ⟨ledger, grows⟩ := chained.ledger.send request now
    obtain ⟨rfl, inserted, queue⟩ := SchedulerState.send_inserted result
    refine ⟨ledger, ?_, ?_, ?_, ?_⟩
    · intro row member name tick key
      rw [queue, List.mem_append, List.mem_singleton] at member
      rcases member with old | rfl
      · exact chained.keyed row old name tick key
      · simpa [forTick, SendRequest.row] using keyed name tick key
    · intro entry member ticks
      rw [inserted, List.mem_append, List.mem_singleton] at member
      rcases member with old | rfl
      · exact chained.periodic entry old ticks
      · exact periodic ticks
    · rw [SchedulerState.send_dispatched]
      intro call member
      obtain ⟨present, successor⟩ := chained.succeeded call member
      refine ⟨grows call present, fun tick at_ => ?_⟩
      obtain ⟨entry, entryMember, later⟩ := successor tick at_
      exact ⟨entry, grows entry entryMember, later⟩
    · intro row member
      rw [queue, List.mem_append, List.mem_singleton] at member
      rcases member with old | rfl
      · exact chained.idle row old
      · simp [SendRequest.row]

theorem Chained.spawn {payload : String} {options : SpawnOptions} (chained : Chained schedule state)
    (permitted : SpawnsOutsideCron state (.spawn name payload options localNow now)) :
    Chained schedule (state.send (spawnRequest name payload options localNow) now) := by
  apply chained.send
  · intro name tick key
    have outside : options.idempotencyKey = some (cronSeedKey name tick) := key
    simp [SpawnsOutsideCron, outside, startsWith, cronSeedKey] at permitted
  · intro ticks
    simp [spawnRequest] at ticks

theorem Schedule.find_name {registration : TaskRegistration}
    (found : schedule.find name = some registration) : registration.name = name := by
  simpa using List.find?_some found

theorem target_periodic {registration : TaskRegistration} {start : Instant}
    (found : schedule.find name = some registration) (due : nextTick schedule registration start = some tick) :
    ∃ registration, schedule.find name = some registration ∧ registration.cron.isSome := by
  obtain ⟨cron, has, _⟩ := Option.bind_eq_some_iff.mp due
  exact ⟨registration, found, by simp [has]⟩

theorem seedTarget_periodic (target : seedTarget schedule state event = some (name, tick)) :
    ∃ registration, schedule.find name = some registration ∧ registration.cron.isSome := by
  cases event with
  | seedAtBoot task localNow now =>
    simp only [seedTarget, Option.bind_eq_bind, Option.bind_eq_some_iff, Option.pure_def,
      Option.some.injEq, Prod.mk.injEq] at target
    obtain ⟨registration, found, at_, due, rfl, rfl⟩ := target
    rw [Schedule.find_name found]
    exact target_periodic found due
  | dispatch index localNow now =>
    simp only [seedTarget, Option.bind_eq_bind, Option.bind_eq_some_iff, Option.pure_def,
      Option.some.injEq, Prod.mk.injEq] at target
    obtain ⟨execution, _, registration, found, at_, due, rfl, rfl⟩ := target
    rw [Schedule.find_name found]
    exact target_periodic found due
  | dispatchFails index localNow now committed =>
    cases committed with
    | false => contradiction
    | true =>
      simp only [seedTarget, Option.bind_eq_bind, Option.bind_eq_some_iff, Option.pure_def,
        Option.some.injEq, Prod.mk.injEq] at target
      obtain ⟨execution, _, registration, found, at_, due, rfl, rfl⟩ := target
      rw [Schedule.find_name found]
      exact target_periodic found due
  | _ => contradiction

theorem Chained.seed (chained : Chained schedule state) :
    Chained schedule (Scheduled.seed state localNow now (seedTarget schedule state event)) := by
  cases target : seedTarget schedule state event with
  | none => exact chained
  | some goal =>
    obtain ⟨name, tick⟩ := goal
    apply chained.send
    · intro other at_ key
      obtain ⟨rfl, rfl⟩ := cronSeedKey_injective (Option.some.inj key)
      exact ⟨rfl, rfl⟩
    · exact fun _ => seedTarget_periodic target

theorem Chained.seed_inserted (chained : Chained schedule state) (name : String) (tick localNow now : Instant) :
    ∃ entry ∈ (state.send (seedRequest name tick localNow) now).inserted, forTick name tick entry = true := by
  cases result : insertRun (seedRequest name tick localNow) state.queue.nextId now state.queue.runs with
  | none =>
    rw [SchedulerState.send_conflict result]
    simp only [insertRun] at result
    split at result
    · rename_i conflict
      obtain ⟨key, asked, row, member, active⟩ := PartialIndex.conflicts_iff.mp conflict
      cases asked
      have keyed := chained.keyed row member name tick (PartialIndex.holds_iff.mp active).2
      exact ⟨(row.id, row.actionInput), chained.ledger.rows row member, keyed⟩
    · contradiction
  | some row =>
    obtain ⟨_, inserted, _⟩ := SchedulerState.send_inserted result
    refine ⟨(state.queue.nextId, (seedRequest name tick localNow).data), ?_, ?_⟩
    · simp [inserted]
    · simp [forTick, seedRequest]

theorem Chained.successor {index : Nat} {execution : Execution TaskJobData}
    (chained : Chained schedule state) (forward : schedule.Forward)
    (found : state.dispatching index = some execution) (reaches : reachesBody schedule execution localNow = true)
    (ticks : execution.claimed.payload.scheduledTick = some tick) :
    ∃ entry ∈ (Scheduled.seed state localNow now (seedTarget schedule state (.dispatch index localNow now))).inserted,
      ∃ next, forTick execution.claimed.payload.name next entry = true ∧ tick < next := by
  have inserted := chained.ledger.calls execution (dispatching_mem found)
  obtain ⟨registration, known, periodic⟩ := chained.periodic _ inserted (by simp [ticks])
  simp only at known
  have start : dispatchFrom execution.claimed.payload localNow = tick + 1 := by
    simp [dispatchFrom, ticks]
  have due : (nextTick schedule registration (tick + 1)).isSome = true := by
    simp only [reachesBody, known, start, Bool.or_eq_true, Option.isNone_iff_eq_none] at reaches
    rcases reaches with aperiodic | due
    · simp [aperiodic] at periodic
    · exact due
  obtain ⟨next, due⟩ := Option.isSome_iff_exists.mp due
  obtain ⟨cron, _, computed⟩ := Option.bind_eq_some_iff.mp due
  have later := forward cron (tick + 1) next computed
  have target : seedTarget schedule state (.dispatch index localNow now) =
      some (execution.claimed.payload.name, next) := by
    simp [seedTarget, found, known, start, due, Schedule.find_name known]
  rw [target]
  obtain ⟨entry, member, fits⟩ :=
    chained.seed_inserted execution.claimed.payload.name next localNow now
  exact ⟨entry, member, next, fits, Int.lt_iff_add_one_le.mpr later⟩

theorem seed_grows (ledger : Ledger state.inserted state.queue) (target : Option (String × Instant)) :
    ∀ entry ∈ state.inserted, entry ∈ (Scheduled.seed state localNow now target).inserted := by
  cases target with
  | none => exact fun _ member => member
  | some goal => exact (ledger.send _ _).2

theorem Chained.step (chained : Chained schedule state) (forward : schedule.Forward)
    (permitted : SpawnsOutsideCron state event)
    (stepped : schedulerStep schedule state event = some after) : Chained schedule after := by
  cases schedulerStep_effect stepped with
  | queued inner next sends moved => exact chained.queueStep sends moved
  | spawned name payload options localNow now asked =>
    subst asked
    exact chained.spawn permitted
  | seeded localNow now => exact chained.seed
  | dispatched index localNow now execution asked found reaches between seeded =>
    subst asked
    have kept : Chained schedule between := by
      rw [seeded]
      exact chained.seed
    refine ⟨kept.ledger, kept.keyed, kept.periodic, ?_, kept.idle⟩
    intro call member
    rcases List.mem_append.mp member with old | new
    · exact kept.succeeded call old
    · rw [List.mem_singleton.mp new]
      have inserted := chained.ledger.calls execution (dispatching_mem found)
      simp only [seeded]
      refine ⟨seed_grows chained.ledger _ _ inserted, ?_⟩
      exact fun tick ticks => chained.successor forward found reaches ticks
  | failed index localNow now between next seeded moved =>
    have kept : Chained schedule between := by
      rw [seeded]
      exact chained.seed
    exact kept.queueStep (by simp) moved
  | cleaned cleanup => exact chained.cleanup cleanup

end Steps

theorem chained_of_reachable {schedule : Schedule} {state : SchedulerState} (forward : schedule.Forward)
    (reached : (scheduling schedule).Reachable SpawnsOutsideCron state) : Chained schedule state := by
  apply reached.invariant
  · intro state begins
    obtain ⟨identities, rfl⟩ := begins
    refine ⟨⟨⟨List.nodup_nil, ?_⟩, List.nodup_nil, ?_, ?_, ?_⟩, ?_, ?_, ?_, ?_⟩ <;>
      simp [SchedulerState.initial, QueueState.initial]
  · intro before event after _ chained permitted stepped
    exact chained.step forward permitted stepped

def tickRow (name : String) (entry : Nat × TaskJobData) : Bool :=
  entry.2.name == name && entry.2.scheduledTick.isSome

/-- The row of an entry is still pending or claimed. -/
def stillOpen (state : SchedulerState) (entry : Nat × TaskJobData) : Bool :=
  state.queue.runs.any fun row => row.id == entry.1 && row.status.active

/-- Every tick row of the task that is over has had a dispatch whose insert of the
successor succeeded, which came to the handler then. -/
def SuccessorsInserted (name : String) (state : SchedulerState) : Prop :=
  ∀ entry ∈ state.inserted, tickRow name entry = true → stillOpen state entry = false →
    entry ∈ state.dispatched

instance (name : String) (state : SchedulerState) : Decidable (SuccessorsInserted name state) :=
  inferInstanceAs (Decidable (∀ entry ∈ state.inserted, tickRow name entry = true →
    stillOpen state entry = false → entry ∈ state.dispatched))

/-- The task has a pending or claimed row. -/
def Continues (name : String) (state : SchedulerState) : Prop :=
  ∃ row ∈ state.queue.runs, row.actionInput.name = name ∧
    (row.status = .pending ∨ row.status = .claimed)

instance (name : String) (state : SchedulerState) : Decidable (Continues name state) :=
  inferInstanceAs (Decidable (∃ row ∈ state.queue.runs, row.actionInput.name = name ∧
    (row.status = .pending ∨ row.status = .claimed)))

theorem Chained.continues {schedule : Schedule} {state : SchedulerState} {name : String}
    (chained : Chained schedule state) (begun : ∃ entry ∈ state.inserted, tickRow name entry = true)
    (attempts : SuccessorsInserted name state) : Continues name state := by
  obtain ⟨entry, member, fits, live⟩ := exists_live_of_successors
    (fun entry => tickRow name entry = true) (fun entry => stillOpen state entry = true)
    (fun entry => entry.2.scheduledTick.getD 0) begun (by
      intro entry member fits ended
      have attempted := attempts entry member fits (by simpa using ended)
      simp only [tickRow, Bool.and_eq_true, beq_iff_eq, Option.isSome_iff_exists] at fits
      obtain ⟨named, tick, ticks⟩ := fits
      obtain ⟨later, laterMember, next, laterFits, above⟩ :=
        (chained.succeeded entry attempted).2 tick ticks
      simp only [forTick, Bool.and_eq_true, beq_iff_eq] at laterFits
      refine ⟨later, laterMember, ?_, ?_⟩
      · simp [tickRow, laterFits, named]
      · simpa [ticks, laterFits] using above)
  simp only [stillOpen, List.any_eq_true, Bool.and_eq_true, beq_iff_eq] at live
  obtain ⟨row, rowMember, own, active⟩ := live
  have same : (row.id, row.actionInput) = entry := RowUpdate.eq_of_column chained.ledger.once
    (chained.ledger.rows row rowMember) member own
  have named : row.actionInput.name = name := by
    rw [← same] at fits
    simp only [tickRow, Bool.and_eq_true, beq_iff_eq] at fits
    exact fits.1
  refine ⟨row, rowMember, named, ?_⟩
  have idle := chained.idle row rowMember
  cases status : row.status with
  | pending => exact .inl rfl
  | claimed => exact .inr rfl
  | running => exact absurd status idle
  | completed | failed | cancelled | timeout => simp [status, RunStatus.active] at active

theorem schedulerStep_grows {schedule : Schedule} {state after : SchedulerState}
    {event : SchedulerEvent} (chained : Chained schedule state)
    (stepped : schedulerStep schedule state event = some after) :
    ∀ entry ∈ state.inserted, entry ∈ after.inserted := by
  cases schedulerStep_effect stepped with
  | queued | cleaned => exact fun _ member => member
  | spawned name payload options localNow now asked => exact (chained.ledger.send _ _).2
  | seeded localNow now => exact seed_grows chained.ledger _
  | dispatched index localNow now execution asked found reaches between seeded =>
    rw [seeded]
    exact seed_grows chained.ledger _
  | failed index localNow now between next seeded moved =>
    rw [seeded]
    exact seed_grows chained.ledger _

theorem seedAtBoot_begins {schedule : Schedule} {before booted : SchedulerState} {name : String}
    {localNow now : Instant} (chained : Chained schedule before)
    (seeded : schedulerStep schedule before (.seedAtBoot name localNow now) = some booted) :
    ∃ entry ∈ booted.inserted, tickRow name entry = true := by
  obtain ⟨goal, target, rfl⟩ := Option.map_eq_some_iff.mp seeded
  simp only [seedTarget, Option.bind_eq_bind, Option.bind_eq_some_iff, Option.pure_def, Option.some.injEq] at target
  obtain ⟨registration, found, tick, _, rfl⟩ := target
  obtain ⟨entry, member, fits⟩ := chained.seed_inserted registration.name tick localNow now
  refine ⟨entry, member, ?_⟩
  simp only [forTick, Bool.and_eq_true, beq_iff_eq] at fits
  simp [tickRow, fits, Schedule.find_name found]

/-- From the first seed on, a task has a pending or claimed row in every state in which
each of its tick rows that is over has had a dispatch with a successful insert. -/
theorem ticks_continue :
    ∀ (schedule : Schedule) (name : String) (before booted state : SchedulerState)
      (localNow now : Instant), schedule.Forward → (scheduling schedule).Reachable SpawnsOutsideCron before →
      schedulerStep schedule before (.seedAtBoot name localNow now) = some booted →
      (scheduling schedule).Later SpawnsOutsideCron booted state →
      SuccessorsInserted name state → Continues name state := by
  intro schedule name before booted state localNow now forward reached seeded later attempts
  have permitted : SpawnsOutsideCron before (.seedAtBoot name localNow now) := trivial
  have bootReached := reached.step permitted seeded
  obtain ⟨entry, member, fits⟩ := seedAtBoot_begins (chained_of_reachable forward reached) seeded
  have grows := Machine.Later.related (fun first second => ∀ entry ∈ first.inserted, entry ∈ second.inserted)
    (fun _ _ member => member)
    (fun _ _ _ first second entry member => second entry (first entry member))
    (fun _ _ _ reached _ stepped =>
      schedulerStep_grows (chained_of_reachable forward reached) stepped) bootReached later
  exact (chained_of_reachable forward (bootReached.later later)).continues ⟨entry, grows entry member, fits⟩ attempts

theorem minutely_forward : minutely.Forward := by
  intro cron (start : Int) tick next
  cases next
  have bound : start ≤ (start / 60000 + 1) * 60000 := by omega
  exact bound

def twoPods : List SchedulerEvent :=
  [.queue (.start 0), .queue (.start 1)]

/-- One pod claims the first minute. -/
def claimedFirst : List SchedulerEvent :=
  [.queue (.work 0 "task" false), .queue (.work 1 "task" false), .queue (.poll 0 0),
    .queue (.claimOne 0 0 60000 [] true)]

theorem exists_after_boot (middle ending : List SchedulerEvent)
    (test : SchedulerState → SchedulerState → Bool)
    (replayed : ((scheduling minutely).replay SpawnsOutsideCron
      (SchedulerState.initial ["gateway-a", "gateway-b"]) twoPods).any (fun before =>
        (schedulerStep minutely before (.seedAtBoot "sweep" 10 10)).any fun booted =>
          ((scheduling minutely).replay SpawnsOutsideCron booted middle).any fun state =>
            ((scheduling minutely).replay SpawnsOutsideCron state ending).any fun final =>
              test state final) = true) :
    ∃ before booted state final, (scheduling minutely).Reachable SpawnsOutsideCron before ∧
      schedulerStep minutely before (.seedAtBoot "sweep" 10 10) = some booted ∧
      (scheduling minutely).Later SpawnsOutsideCron booted state ∧
      (scheduling minutely).Later SpawnsOutsideCron state final ∧ test state final = true := by
  obtain ⟨before, reached, tested⟩ := Machine.exists_of_replay (scheduling minutely)
    SpawnsOutsideCron _ twoPods _ ⟨["gateway-a", "gateway-b"], rfl⟩ replayed
  obtain ⟨booted, seeded, tested⟩ := (Option.any_eq_true ..).mp tested
  obtain ⟨state, middled, tested⟩ := (Option.any_eq_true ..).mp tested
  obtain ⟨final, ended, tested⟩ := (Option.any_eq_true ..).mp tested
  exact ⟨before, booted, state, final, reached, seeded, Machine.later_of_replay middled,
    Machine.later_of_replay ended, tested⟩

theorem ticks_continue_after_first_minute :
    ∃ state : SchedulerState, state.inserted.length = 2 ∧ Continues "sweep" state := by
  obtain ⟨before, booted, state, final, reached, seeded, later, _, tested⟩ := exists_after_boot
    (claimedFirst ++ [.dispatch 0 60000 60000, .bodyReturns 0, .queue (.markCompleted 0 60001)]) []
    (fun state _ => state.inserted.length == 2 && decide (SuccessorsInserted "sweep" state))
    (by decide +kernel)
  simp only [Bool.and_eq_true, beq_iff_eq, decide_eq_true_eq] at tested
  exact ⟨state, tested.1, ticks_continue minutely "sweep" before booted state 10 10
    minutely_forward reached seeded later tested.2⟩

/-! The first pod stalls before its insert.  Its claim is swept, three attempts of the
other pod fail at theirs, and only then does the first insert succeed. -/

def attemptFails (execution : Nat) (now : Instant) : List SchedulerEvent :=
  [.queue (.poll 1 0), .queue (.claimOne 1 0 now [] true), .dispatchFails execution now now false,
    .queue (.recordFailure execution "unavailable" now)]

def exhausted : List SchedulerEvent :=
  claimedFirst ++ [.queue (.staleSweep 360001)] ++ attemptFails 1 361000 ++
    attemptFails 2 364000 ++ attemptFails 3 369000

theorem ticks_stop_before_late_insert :
    ¬ ∀ (schedule : Schedule) (name : String) (before booted state final : SchedulerState)
      (localNow now : Instant), schedule.Forward → (scheduling schedule).Reachable SpawnsOutsideCron before →
      schedulerStep schedule before (.seedAtBoot name localNow now) = some booted →
      (scheduling schedule).Later SpawnsOutsideCron booted state →
      (scheduling schedule).Later SpawnsOutsideCron state final →
      SuccessorsInserted name final → Continues name state := by
  intro always
  obtain ⟨before, booted, state, final, reached, seeded, later, ended, tested⟩ :=
    exists_after_boot exhausted [.dispatch 0 369001 369001] (fun state final =>
      decide (SuccessorsInserted "sweep" final) && !decide (Continues "sweep" state))
      (by decide +kernel)
  simp only [Bool.and_eq_true, decide_eq_true_eq, Bool.not_eq_true', decide_eq_false_iff_not] at tested
  exact tested.2 (always minutely "sweep" before booted state final 10 10 minutely_forward
    reached seeded later ended tested.1)

end Lobu.Scheduled
