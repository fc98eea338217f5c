import Lobu.Scheduled.ScheduledJobs

namespace Lobu.Scheduled

open Lobu.Foundation Lobu.Queue

/-! # One run for each tick of a job

A spawn commits before its row is advanced and is deduplicated over active runs
only.  So a tick fires again when its row was not advanced and its run has ended in
the meantime: after a crash, a lost answer or a commit that failed, with a clock
that gives the same tick as the next one, or when a job that fired is unpaused.
-/

def firedFor (job revision : Nat) (tick : Instant) (entry : Spawned) : Bool :=
  entry.row.id == job && entry.row.scheduleRevision == revision && entry.row.nextRunAt == tick

/-- At most one run was ever spawned for a job, a revision and a tick. -/
def FiredOnce (state : JobsState) : Prop :=
  ∀ job revision tick, (state.spawned.filter (firedFor job revision tick)).length ≤ 1

/-- The dispatch whose spawn an event commits. -/
def fireTarget (state : JobsState) : JobsEvent → Option Dispatch
  | .spawns place _ _ | .spawnFails place _ _ true => state.dispatches[place]?
  | _ => none

/-- A tick that has had a run is spawned again only while a run under its key is active. -/
def FiresWhileActive (platform : Platform) : Discipline JobsState JobsEvent := fun state event =>
  ∀ dispatch ∈ fireTarget state event,
    (∃ entry ∈ state.spawned, firedFor dispatch.row.id dispatch.row.scheduleRevision
      dispatch.row.nextRunAt entry = true) →
    ∃ run ∈ state.scheduler.queue.runs,
      activeUnder (idempotencyKey platform dispatch.row) run = true

instance (platform : Platform) (state : JobsState) (event : JobsEvent) :
    Decidable (FiresWhileActive platform state event) := by
  rw [FiresWhileActive]
  infer_instance

section Steps

variable {schedule : Schedule} {platform : Platform} {state after : JobsState}
variable {event : JobsEvent} {dispatch : Dispatch} {localNow now : Instant}

theorem fire_conflict (active : ∃ run ∈ state.scheduler.queue.runs,
      activeUnder (idempotencyKey platform dispatch.row) run = true) :
    (state.fire platform dispatch localNow now).spawned = state.spawned := by
  have conflict : runsIdempotencyKeyUniq.conflicts (fireRequest platform dispatch.row localNow).idempotencyKey
      state.scheduler.queue.runs = true :=
    PartialIndex.conflicts_iff.mpr ⟨_, rfl, active⟩
  simp [JobsState.fire, insertRun, conflict]

theorem fire_spawned (platform : Platform) (localNow now : Instant) :
    (state.fire platform dispatch localNow now).spawned = state.spawned ∨ ∃ entry, entry.row = dispatch.row ∧
        (state.fire platform dispatch localNow now).spawned = state.spawned ++ [entry] := by
  simp only [JobsState.fire]
  split
  · exact .inr ⟨_, rfl, rfl⟩
  · exact .inl rfl

theorem FiredOnce.fire (once : FiredOnce state)
    (permitted : (∃ entry ∈ state.spawned, firedFor dispatch.row.id dispatch.row.scheduleRevision
      dispatch.row.nextRunAt entry = true) → ∃ run ∈ state.scheduler.queue.runs,
        activeUnder (idempotencyKey platform dispatch.row) run = true)
    (spawned : after.spawned = (state.fire platform dispatch localNow now).spawned) : FiredOnce after := by
  intro job revision tick
  rw [spawned]
  by_cases had : ∃ entry ∈ state.spawned, firedFor dispatch.row.id dispatch.row.scheduleRevision
      dispatch.row.nextRunAt entry = true
  · rw [fire_conflict (permitted had)]
    exact once job revision tick
  · rcases fire_spawned platform localNow now with same | ⟨entry, own, appended⟩
    · rw [same]
      exact once job revision tick
    · rw [appended, List.filter_append, List.length_append]
      by_cases fits : firedFor job revision tick entry = true
      · have none_ : state.spawned.filter (firedFor job revision tick) = [] := by
          apply List.filter_eq_nil_iff.mpr
          intro other member otherFits
          apply had
          simp only [firedFor, Bool.and_eq_true, beq_iff_eq] at fits otherFits
          refine ⟨other, member, ?_⟩
          simp [firedFor, ← own, fits, otherFits]
        rw [none_, List.filter_singleton, fits]
        simp
      · have other := once job revision tick
        rw [Bool.not_eq_true] at fits
        rw [List.filter_singleton, fits]
        simpa using other

theorem FiredOnce.step (once : FiredOnce state) (permitted : FiresWhileActive platform state event)
    (stepped : jobsStep schedule platform state event = some after) : FiredOnce after := by
  cases jobsStep_effect stepped with
  | quiet _ _ spawned =>
    rw [FiredOnce, spawned]
    exact once
  | committed place held found =>
    have kept : (commit state held).spawned = state.spawned := by
      rw [commit]
      split <;> rfl
    rw [FiredOnce]
    simp only [kept]
    exact once
  | fired place localNow now asked dispatch found _ _ _ _ _ _ _ spawned =>
    have target : fireTarget state event = some dispatch := by
      rcases asked with rfl | rfl <;> exact found
    exact once.fire (permitted dispatch target) spawned
  | staged | created | held | edited | deleted | locked | expired | advanced => exact once

end Steps

/-- Each tick of a job fires once, while no tick is spawned again after its run has ended. -/
theorem user_tick_fires_once :
    ∀ (schedule : Schedule) (platform : Platform) (state : JobsState),
      (jobsMachine schedule platform).Reachable (FiresWhileActive platform) state → FiredOnce state := by
  intro schedule platform state reached
  apply reached.invariant
  · intro state begins
    obtain ⟨identities, jobs, nextJobId, rfl, _⟩ := begins
    intro job revision tick
    exact Nat.zero_le _
  · intro before event after _ once permitted stepped
    exact once.step permitted stepped

/-- One kind of action, and one-shot jobs only. -/
def reminders : Schedule where
  handlers := [{ name := "wake_agent", cron := none }]
  nextRunAt _ _ := none

/-- A pod in UTC, for the tick of these runs. -/
def utcPlatform : Platform where
  numberText value := toString value.num
  dateText _ := "Thu Jan 01 1970 00:01:00 GMT+0000 (Coordinated Universal Time)"

def reminder : CreateScheduledJobParams where
  organizationId := "org"
  actionType := "wake_agent"
  actionArgs := .object [("agent_id", .string "agent")]
  description := "follow up"
  runAt := 60000
  createdByUser := some "user"

/-- One pod spawns the tick and crashes before it advances the row. -/
def crashAfterSpawn : List JobsEvent :=
  [.createScheduledJob reminder, .locks ⟨1, 1⟩ 60000, .spawns 0 60000 60000, .crashes 0]

/-- The other pod finishes the run. -/
def runCompletes : List JobsEvent :=
  [.scheduler (.queue (.start 1)), .scheduler (.queue (.work 1 "task" false)),
    .scheduler (.queue (.poll 1 0)), .scheduler (.queue (.claimOne 1 0 60001 [] true)),
    .scheduler (.dispatch 0 60001 60001), .scheduler (.bodyReturns 0),
    .scheduler (.queue (.markCompleted 0 60002))]

def secondPass : List JobsEvent :=
  [.locks ⟨1, 1⟩ 120000, .spawns 0 120000 120000, .advances 0 120000 120000]

theorem jobs_initial (identities : List String) :
    (jobsMachine reminders utcPlatform).starts (JobsState.initial identities [] 1) :=
  ⟨identities, [], 1, rfl, List.nodup_nil, by simp⟩

theorem user_tick_fires_once_despite_crash :
    ∃ state : JobsState, (jobsMachine reminders utcPlatform).Reachable (FiresWhileActive utcPlatform) state ∧
        state.spawned.length = 1 ∧ FiredOnce state := by
  obtain ⟨state, reached, tested⟩ := Machine.exists_of_replay (jobsMachine reminders utcPlatform)
    (FiresWhileActive utcPlatform) (JobsState.initial ["gateway-a", "gateway-b"] [] 1)
    (crashAfterSpawn ++ secondPass ++ runCompletes) (fun state => state.spawned.length == 1)
    (jobs_initial _) (by decide +kernel)
  exact ⟨state, reached, by simpa using tested,
    user_tick_fires_once reminders utcPlatform state reached⟩

theorem user_tick_fires_twice :
    ¬ ∀ (schedule : Schedule) (platform : Platform) (state : JobsState),
      (jobsMachine schedule platform).Reachable unrestricted state → FiredOnce state := by
  intro always
  obtain ⟨state, reached, tested⟩ := Machine.exists_of_replay (jobsMachine reminders utcPlatform)
    unrestricted (JobsState.initial ["gateway-a", "gateway-b"] [] 1)
    (crashAfterSpawn ++ runCompletes ++ secondPass)
    (fun state => (state.spawned.filter (firedFor 1 1 60000)).length == 2)
    (jobs_initial _) (by decide +kernel)
  have once := always reminders utcPlatform state reached 1 1 60000
  rw [beq_iff_eq.mp tested] at once
  omega

end Lobu.Scheduled
