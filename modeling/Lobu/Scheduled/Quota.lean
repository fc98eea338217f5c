import Lobu.Scheduled.RowLocks
import Lobu.Scheduled.UserTicks

namespace Lobu.Scheduled

open Lobu.Foundation Lobu.Queue

/-! # The quota of active schedules

A guarded creation counts under the quota lock and writes under it.  Activation
and unpausing make a job count without counting the others.
-/

/-- Guarded creations that will make one more job of the user count. -/
def reserves (organizationId userId : String) (held : PendingWrite) : Bool :=
  match held.existing with
  | some existing =>
    existing.organizationId == organizationId && existing.createdByUser == some userId &&
      existing.paused
  | none => held.job.organizationId == organizationId && held.createdByUser == some userId

def inFlight (organizationId userId : String) (state : JobsState) : Nat :=
  state.pending.countP (reserves organizationId userId)

/-- Jobs of the user are created by the guarded operations only, and with the quota. -/
def GuardedOperations (organizationId userId : String) (quota : Nat) :
    Discipline JobsState JobsEvent := fun _ event =>
  match event with
  | .createScheduledJob params =>
    ¬ (params.organizationId = organizationId ∧ params.createdByUser = some userId)
  | .createScheduledJobWithGuards params guard_ =>
    params.organizationId = organizationId ∧ params.createdByUser = some userId →
      guard_.userId = userId ∧ guard_.activeQuota ≤ quota
  | .upsertScheduledJob params _ =>
    params.job.organizationId = organizationId ∧ params.createdByUser = userId →
      ∃ activeQuota ∈ params.activeQuota, activeQuota ≤ quota
  | _ => True

instance (organizationId userId : String) (quota : Nat) (state : JobsState) :
    ∀ event, Decidable (GuardedOperations organizationId userId quota state event)
  | .createScheduledJob _ => inferInstanceAs (Decidable (¬ _))
  | .createScheduledJobWithGuards .. => inferInstanceAs (Decidable (_ → _))
  | .upsertScheduledJob .. => inferInstanceAs (Decidable (_ → _))
  | .scheduler _ | .stageScheduledJob _ | .activateScheduledJob .. | .commits _ | .aborts _
  | .pauseScheduledJob .. | .deleteScheduledJob .. | .locks .. | .expires _ | .spawns ..
  | .spawnFails .. | .advances .. | .crashes _ => inferInstanceAs (Decidable True)

/-- The activation or unpausing of a job of the user that did not count. -/
def makesCount (organizationId userId : String) (state : JobsState) : JobsEvent → Bool
  | .activateScheduledJob owner externalKey id now =>
    state.jobs.any fun row => activates owner externalKey id now row &&
      row.organizationId == organizationId && row.createdByUser == some userId
  | .pauseScheduledJob owner id false =>
    state.jobs.any fun row => row.organizationId == owner && row.id == id && row.paused &&
      row.state == .active && row.organizationId == organizationId &&
        row.createdByUser == some userId
  | _ => false

/-- A job is activated or unpaused only where the quota has room for it. -/
def MakesCountWithin (organizationId userId : String) (quota : Nat) :
    Discipline JobsState JobsEvent := fun state event =>
  makesCount organizationId userId state event = true →
    activeCount organizationId userId state.jobs + inFlight organizationId userId state < quota

instance (organizationId userId : String) (quota : Nat) (state : JobsState) (event : JobsEvent) :
    Decidable (MakesCountWithin organizationId userId quota state event) :=
  inferInstanceAs (Decidable (_ → _))

/-- What has been counted is kept by the quota lock until it is written. -/
structure WithinQuota (organizationId userId : String) (quota : Nat) (state : JobsState) :
    Prop where
  counted : activeCount organizationId userId state.jobs +
    inFlight organizationId userId state ≤ quota
  locked : ∀ held ∈ state.pending, reserves organizationId userId held = true →
    held.job.organizationId = organizationId ∧ held.userId = userId

section Steps

variable {schedule : Schedule} {platform : Platform} {before after state : JobsState}
variable {event : JobsEvent} {organizationId userId : String} {quota : Nat}

theorem inFlight_eq_zero (within : WithinQuota organizationId userId quota state)
    (alone : state.quotaLocked organizationId userId = false) : inFlight organizationId userId state = 0 := by
  apply List.countP_eq_zero.mpr
  intro held member waits
  obtain ⟨organization, user⟩ := within.locked held member waits
  have holder := List.any_eq_false.mp alone held member
  simp [organization, user] at holder

theorem WithinQuota.kept (within : WithinQuota organizationId userId quota before)
    (counts : activeCount organizationId userId after.jobs + inFlight organizationId userId after ≤
      activeCount organizationId userId before.jobs + inFlight organizationId userId before)
    (pending : after.pending.Sublist before.pending) : WithinQuota organizationId userId quota after where
  counted := counts.trans within.counted
  locked held member := within.locked held (pending.subset member)

theorem inFlight_le (pending : after.pending.Sublist before.pending) :
    inFlight organizationId userId after ≤ inFlight organizationId userId before :=
  pending.countP_le

variable {statement : RowUpdate ScheduledJobRow}

theorem activeCount_run_le {jobs : List ScheduledJobRow} (never : ∀ row ∈ jobs, statement.selects row = true →
      countsAsActive organizationId userId (statement.sets row) = true →
        countsAsActive organizationId userId row = true) :
    activeCount organizationId userId (statement.run jobs) ≤ activeCount organizationId userId jobs := by
  have bound := RowUpdate.countP_run_le statement (countsAsActive organizationId userId) jobs
  have none_ : (jobs.countP fun row => statement.selects row &&
      countsAsActive organizationId userId (statement.sets row) &&
        !countsAsActive organizationId userId row) = 0 := by
    apply List.countP_eq_zero.mpr
    intro row member raised
    simp only [Bool.and_eq_true, Bool.not_eq_true'] at raised
    obtain ⟨⟨selected, counts⟩, before⟩ := raised
    rw [never row member selected counts] at before
    contradiction
  rw [none_] at bound
  exact bound

theorem activeCount_run_le_succ (locks : LocksHeld state)
    (id : Nat) (target : ∀ row, statement.selects row = true → row.id = id) :
    activeCount organizationId userId (statement.run state.jobs) ≤
      activeCount organizationId userId state.jobs + 1 := by
  have bound := RowUpdate.countP_run_le statement (countsAsActive organizationId userId) state.jobs
  have one : (state.jobs.countP fun row => statement.selects row &&
      countsAsActive organizationId userId (statement.sets row) &&
        !countsAsActive organizationId userId row) ≤ 1 := by
    apply RowUpdate.countP_le_one locks.unique id
    intro row _ raised
    simp only [Bool.and_eq_true] at raised
    exact target row raised.1.1
  simp only [activeCount] at bound ⊢
  omega

theorem countsAsActive_iff {row : ScheduledJobRow} :
    countsAsActive organizationId userId row = true ↔ row.organizationId = organizationId ∧
      row.createdByUser = some userId ∧ row.state = .active ∧ row.paused = false := by
  simp [countsAsActive, and_assoc]

theorem WithinQuota.edit (within : WithinQuota organizationId userId quota before)
    (locks : LocksHeld before) (permitted : MakesCountWithin organizationId userId quota before event) (edits : event.Edits statement) :
    WithinQuota organizationId userId quota (before.update statement) := by
  have room : makesCount organizationId userId before event = false ∨ activeCount organizationId userId before.jobs +
        inFlight organizationId userId before < quota := by
    cases makes : makesCount organizationId userId before event with
    | false => exact .inl rfl
    | true => exact .inr (permitted makes)
  rcases room with never | room
  · apply within.kept
    · apply Nat.add_le_add_right
      apply activeCount_run_le
      intro row member selected counts
      rw [countsAsActive_iff] at counts ⊢
      cases edits with
      | activate owner externalKey id now =>
        have skipped := List.any_eq_false.mp never row member
        simp only [activateScheduledJob] at selected counts
        simp [selected, counts.1, counts.2.1] at skipped
      | pause owner id paused =>
        simp only [pauseScheduledJob, Bool.and_eq_true, beq_iff_eq] at selected counts
        obtain ⟨organization, user, active, unpaused⟩ := counts
        subst unpaused
        have skipped := List.any_eq_false.mp never row member
        refine ⟨organization, user, active, ?_⟩
        simpa [selected.1, selected.2, active, ← organization, user] using skipped
    · exact List.Sublist.refl _
  · have raised : activeCount organizationId userId (statement.run before.jobs) ≤
        activeCount organizationId userId before.jobs + 1 := by
      cases edits with
      | activate owner externalKey id now =>
        apply activeCount_run_le_succ locks id
        intro row selected
        simp only [activateScheduledJob, activates, Bool.and_eq_true, beq_iff_eq] at selected
        exact selected.1.1.1.1.2
      | pause owner id paused =>
        apply activeCount_run_le_succ locks id
        intro row selected
        simp only [pauseScheduledJob, Bool.and_eq_true, beq_iff_eq] at selected
        exact selected.2
    have pending : inFlight organizationId userId (before.update statement) =
        inFlight organizationId userId before := rfl
    refine ⟨?_, within.locked⟩
    rw [pending]
    simp only [JobsState.update]
    omega

variable {held : PendingWrite}

theorem WithinQuota.hold (within : WithinQuota organizationId userId quota before)
    (room : reserves organizationId userId held = true →
      held.job.organizationId = organizationId ∧ held.userId = userId ∧
        before.quotaLocked organizationId userId = false ∧ activeCount organizationId userId before.jobs < quota) :
    WithinQuota organizationId userId quota (before.hold held) := by
  have pending : inFlight organizationId userId (before.hold held) = inFlight organizationId userId before +
        if reserves organizationId userId held = true then 1 else 0 := by
    simp [inFlight, JobsState.hold, List.countP_append, List.countP_cons]
  constructor
  · rw [pending]
    have counted := within.counted
    simp only [JobsState.hold]
    split
    · rename_i waits
      obtain ⟨_, _, alone, below⟩ := room waits
      rw [inFlight_eq_zero within alone]
      omega
    · exact counted
  · intro other member waits
    simp only [JobsState.hold, List.mem_append, List.mem_singleton] at member
    rcases member with member | rfl
    · exact within.locked other member waits
    · exact ⟨(room waits).1, (room waits).2.1⟩

theorem below_of_room {params : UpsertScheduledJobParams} {jobs : List ScheduledJobRow}
    (room : params.full jobs = false) (enough : ∃ activeQuota ∈ params.activeQuota, activeQuota ≤ quota) :
    activeCount params.job.organizationId params.createdByUser jobs < quota := by
  obtain ⟨activeQuota, given, within⟩ := enough
  rw [Option.mem_def] at given
  simp only [UpsertScheduledJobParams.full, given, Option.any_some, decide_eq_false_iff_not] at room
  omega

theorem WithinQuota.holds (within : WithinQuota organizationId userId quota before)
    (permitted : GuardedOperations organizationId userId quota before event) (holds : Holds platform before event held) :
    WithinQuota organizationId userId quota (before.hold held) := by
  apply within.hold
  intro waits
  cases holds with
  | create params guard_ alone below =>
    simp only [reserves, PendingWrite.createdByUser, Bool.and_eq_true, beq_iff_eq] at waits
    obtain ⟨user, enough⟩ := permitted waits
    rw [waits.1, user] at alone below
    exact ⟨waits.1, user, alone, by omega⟩
  | insert params localNow alone planned =>
    simp only [reserves, PendingWrite.createdByUser, Bool.and_eq_true, beq_iff_eq, Option.some.injEq] at waits
    have below := below_of_room (upsertPlan_insert planned) (permitted waits)
    rw [waits.1, waits.2] at alone below
    exact ⟨waits.1, waits.2, alone, below⟩
  | update params localNow existing alone free planned =>
    have updates := upsertPlan_update planned
    have owned := List.find?_some updates.found
    simp only [ownedByKey, Bool.and_eq_true, beq_iff_eq] at owned
    simp only [reserves, Bool.and_eq_true, beq_iff_eq] at waits
    have same : params.job.organizationId = organizationId ∧ params.createdByUser = userId := by
      constructor
      · rw [← owned.1.1, waits.1.1]
      · simpa [owned.2] using waits.1.2
    have below := below_of_room (updates.room waits.2) (permitted same)
    rw [same.1, same.2] at alone below
    exact ⟨same.1, same.2, alone, below⟩

theorem activeCount_commit (organizationId userId : String) (locks : LocksHeld before)
    (present : ∀ existing ∈ held.existing, existing ∈ before.jobs) :
    activeCount organizationId userId (commit before held).jobs ≤ activeCount organizationId userId before.jobs +
        if reserves organizationId userId held = true then 1 else 0 := by
  cases updates : held.existing with
  | none =>
    simp only [commit, updates, JobsState.insert, activeCount, List.countP_append,
      List.countP_cons, List.countP_nil, Nat.zero_add, Nat.add_le_add_iff_left]
    have counts : countsAsActive organizationId userId (held.job.row held.externalKey .active
        held.createdByUser before.nextJobId) = reserves organizationId userId held := by
      simp [countsAsActive, reserves, updates, CreateScheduledJobParams.row]
    rw [counts]
  | some existing =>
    simp only [commit, updates, JobsState.update]
    split
    · apply activeCount_run_le_succ locks existing.id
      intro row selected
      exact beq_iff_eq.mp selected
    · rename_i free
      apply activeCount_run_le
      intro row member selected counts
      have same : row = existing := by
        apply RowUpdate.eq_of_column locks.unique member (present existing updates)
        exact beq_iff_eq.mp selected
      subst same
      rw [countsAsActive_iff] at counts ⊢
      obtain ⟨organization, user, active, _⟩ := counts
      simp only [rewrite] at organization user active
      refine ⟨organization, user, active, ?_⟩
      simpa [reserves, updates, organization, user] using free

theorem WithinQuota.commits (within : WithinQuota organizationId userId quota before)
    (locks : LocksHeld before) {place : Nat} (found : before.pending[place]? = some held) :
    WithinQuota organizationId userId quota { commit before held with pending := before.pending.eraseIdx place } := by
  have present : ∀ existing ∈ held.existing, existing ∈ before.jobs := by
    intro existing updates
    apply locks.present
    apply List.mem_append_right
    exact List.mem_filterMap.mpr ⟨held, List.mem_of_getElem? found, updates⟩
  have written := activeCount_commit organizationId userId locks present
  have released : inFlight organizationId userId before =
      (before.pending.eraseIdx place).countP (reserves organizationId userId) +
        if reserves organizationId userId held = true then 1 else 0 := by
    obtain ⟨bound, rfl⟩ := List.getElem?_eq_some_iff.mp found
    rw [inFlight, ← (List.getElem_cons_eraseIdx_perm bound).countP_eq, List.countP_cons]
  apply within.kept
  · change activeCount organizationId userId (commit before held).jobs +
      (before.pending.eraseIdx place).countP (reserves organizationId userId) ≤ _
    omega
  · exact List.eraseIdx_sublist ..

theorem WithinQuota.step (within : WithinQuota organizationId userId quota before)
    (locks : LocksHeld before) (guarded : GuardedOperations organizationId userId quota before event)
    (permitted : MakesCountWithin organizationId userId quota before event)
    (stepped : jobsStep schedule platform before event = some after) :
    WithinQuota organizationId userId quota after := by
  cases jobsStep_effect stepped with
  | quiet jobs _ _ _ pending =>
    apply within.kept
    · rw [jobs]
      exact Nat.add_le_add_left (inFlight_le pending) _
    · exact pending
  | staged params =>
    apply within.kept
    · simp [JobsState.insert, activeCount, inFlight, List.countP_append, countsAsActive, CreateScheduledJobParams.row]
    · exact List.Sublist.refl _
  | created params =>
    apply within.kept
    · have other : countsAsActive organizationId userId
          (params.row none .active params.createdByUser before.nextJobId) = false := by
        rw [← Bool.not_eq_true, countsAsActive_iff]
        intro counts
        exact guarded ⟨counts.1, counts.2.1⟩
      simp [JobsState.insert, activeCount, inFlight, List.countP_append, other]
    · exact List.Sublist.refl _
  | held held holds => exact within.holds guarded holds
  | committed place held found => exact within.commits locks found
  | edited statement edits _ => exact within.edit locks permitted edits
  | deleted owner id _ =>
    apply within.kept
    · exact Nat.add_le_add_right (List.filter_sublist.countP_le) _
    · exact List.Sublist.refl _
  | locked => exact ⟨within.counted, within.locked⟩
  | expired place dispatch found =>
    apply within.kept
    · apply Nat.add_le_add_right
      apply activeCount_run_le
      intro row _ _ counts
      simp [countsAsActive_iff, pauseExpired] at counts
    · exact List.Sublist.refl _
  | fired _ _ _ _ _ _ _ _ _ _ jobs _ pending =>
    apply within.kept
    · rw [jobs, inFlight, inFlight, pending]
    · rw [pending]
  | advanced place localNow now dispatch found nextAt =>
    apply within.kept
    · apply Nat.add_le_add_right
      apply activeCount_run_le
      intro row _ _ counts
      simp only [advance] at counts
      split at counts
      · exact counts
      · simp [countsAsActive_iff] at counts
    · exact List.Sublist.refl _

end Steps

/-- The active schedules of a user stay within the quota, while activation and
unpausing happen only where there is room. -/
theorem schedule_quota_kept :
    ∀ (schedule : Schedule) (platform : Platform) (organizationId userId : String) (quota : Nat)
      (before after : JobsState), (jobsMachine schedule platform).starts before →
      activeCount organizationId userId before.jobs ≤ quota →
      (jobsMachine schedule platform).Later (fun state event =>
        GuardedOperations organizationId userId quota state event ∧
          MakesCountWithin organizationId userId quota state event) before after →
        activeCount organizationId userId after.jobs ≤ quota := by
  intro schedule platform organizationId userId quota before after begins enough later
  have within : LocksHeld after ∧ WithinQuota organizationId userId quota after := by
    induction later with
    | refl =>
      have reached : (jobsMachine schedule platform).Reachable unrestricted before :=
        .start begins
      refine ⟨LocksHeld.reachable reached, ?_⟩
      obtain ⟨identities, jobs, nextJobId, rfl, _⟩ := begins
      exact ⟨enough, by simp [JobsState.initial]⟩
    | tail _ moved ih =>
      obtain ⟨event, permitted, stepped⟩ := moved
      exact ⟨ih.1.step stepped, ih.2.step ih.1 permitted.1 permitted.2 stepped⟩
  exact (Nat.le_add_right _ _).trans within.2.counted

def oneReminder : CreateGuard where
  userId := "user"
  activeQuota := 1
  agentOwned := true
  releaseAllowed := true

/-- A reminder is created and paused, and its place is taken by another one. -/
def placeTaken : List JobsEvent :=
  [.createScheduledJobWithGuards reminder oneReminder, .commits 0,
    .pauseScheduledJob "org" 1 true, .createScheduledJobWithGuards reminder oneReminder, .commits 0]

def noJobs : JobsState :=
  JobsState.initial ["gateway-a", "gateway-b"] [] 1

theorem schedule_quota_kept_by_one_reminder :
    ∃ after : JobsState, activeCount "org" "user" after.jobs ≤ 1 ∧
      after.jobs.map ScheduledJobRow.paused = [false, true] := by
  obtain ⟨after, later, tested⟩ := Machine.exists_later_of_replay
    (jobsMachine reminders utcPlatform) (fun state event =>
      GuardedOperations "org" "user" 1 state event ∧ MakesCountWithin "org" "user" 1 state event)
    noJobs (placeTaken ++ [.pauseScheduledJob "org" 2 true, .pauseScheduledJob "org" 1 false])
    (fun after => after.jobs.map ScheduledJobRow.paused == [false, true]) (by decide +kernel)
  exact ⟨after, schedule_quota_kept reminders utcPlatform "org" "user" 1 noJobs after
    (jobs_initial _) (Nat.zero_le _) later, beq_iff_eq.mp tested⟩

theorem schedule_quota_exceeded :
    ¬ ∀ (schedule : Schedule) (platform : Platform) (organizationId userId : String) (quota : Nat)
      (before after : JobsState), (jobsMachine schedule platform).starts before →
      activeCount organizationId userId before.jobs ≤ quota →
      (jobsMachine schedule platform).Later (GuardedOperations organizationId userId quota) before after →
        activeCount organizationId userId after.jobs ≤ quota := by
  intro always
  obtain ⟨after, later, tested⟩ := Machine.exists_later_of_replay
    (jobsMachine reminders utcPlatform) (GuardedOperations "org" "user" 1)
    noJobs (placeTaken ++ [.pauseScheduledJob "org" 1 false])
    (fun after => activeCount "org" "user" after.jobs == 2) (by decide +kernel)
  have within := always reminders utcPlatform "org" "user" 1 noJobs after (jobs_initial _) (Nat.zero_le _) later
  rw [beq_iff_eq.mp tested] at within
  contradiction

end Lobu.Scheduled
