import Lobu.Queue.Claims

namespace Lobu.Queue

open Lobu.Foundation

/-! # The retry budget

`attempts` is written from what the handler read when it claimed the row, so it
counts the recorded failures only while that reading is current.  `Spares` is
what every statement but a recorded failure does to the rows it selects; the
recorded failure is the one case that needs the handler's reading.
-/

variable {P : Type} {before after : QueueState P} {event : QueueEvent P}
variable {execution : Execution P} {statement : RowUpdate (Run P)} {old row : Run P}
variable {failures : Nat → Nat}

/-- Attempts never go down, and a terminal status is final. -/
structure Evolves (old row : Run P) : Prop where
  id : row.id = old.id
  maxAttempts : row.maxAttempts = old.maxAttempts
  attempts : old.attempts ≤ row.attempts
  terminal : old.status.active = false → row.status = old.status

theorem Evolves.refl (row : Run P) : Evolves row row :=
  ⟨rfl, rfl, Nat.le_refl _, fun _ => rfl⟩

theorem Evolves.trans {last : Run P} (first : Evolves old row) (second : Evolves row last) : Evolves old last where
  id := second.id.trans first.id
  maxAttempts := second.maxAttempts.trans first.maxAttempts
  attempts := Nat.le_trans first.attempts second.attempts
  terminal := by
    intro final
    have same := first.terminal final
    rw [second.terminal (by rw [same]; exact final), same]

structure RowBudget (failures : Nat → Nat) (row : Run P) : Prop where
  recorded : row.attempts = failures row.id
  within : 1 ≤ row.maxAttempts → row.attempts ≤ row.maxAttempts
  spent : 1 ≤ row.maxAttempts → (row.status = .failed ↔ row.attempts = row.maxAttempts)

structure Spares (old row : Run P) : Prop where
  id : row.id = old.id
  attempts : row.attempts = old.attempts
  maxAttempts : row.maxAttempts = old.maxAttempts
  active : old.status.active = true
  unfailed : row.status ≠ .failed

def SparesBudget (rows : List (Run P)) (statement : RowUpdate (Run P)) : Prop :=
  ∀ row ∈ rows, statement.selects row = true → Spares row (statement.sets row)

theorem Spares.evolves (spares : Spares old row) : Evolves old row where
  id := spares.id
  maxAttempts := spares.maxAttempts
  attempts := Nat.le_of_eq spares.attempts.symm
  terminal final := by
    rw [spares.active] at final
    contradiction

theorem Spares.budget (spares : Spares old row) (budget : RowBudget failures old) : RowBudget failures row where
  recorded := by rw [spares.attempts, spares.id, budget.recorded]
  within positive := by
    rw [spares.maxAttempts] at positive ⊢
    rw [spares.attempts]
    exact budget.within positive
  spent positive := by
    rw [spares.maxAttempts] at positive ⊢
    have unspent : old.attempts ≠ old.maxAttempts := by
      intro spent
      have failed := (budget.spent positive).mpr spent
      have active := spares.active
      rw [failed] at active
      contradiction
    rw [spares.attempts]
    exact ⟨fun failed => absurd failed spares.unfailed, fun spent => absurd spent unspent⟩

theorem Releases.spares (releases : Releases statement) (rows : List (Run P)) : SparesBudget rows statement := by
  intro row _ selected
  have active : row.status.active = true := by
    cases releases with
    | swept now =>
      simp only [staleSweep, Bool.and_eq_true, beq_iff_eq] at selected
      rw [selected.1.1]
      rfl
    | recovered now =>
      simp only [recoverStaleClaimedRowsOnStartup, Bool.and_eq_true, Bool.or_eq_true, beq_iff_eq] at selected
      rcases selected.1.1 with claimed | running
      · rw [claimed]
        rfl
      · rw [running]
        rfl
    | stopped claimedBy =>
      simp only [releaseClaims, Bool.and_eq_true, beq_iff_eq] at selected
      rw [selected.2]
      rfl
  cases releases <;> exact ⟨rfl, rfl, rfl, active, by rintro ⟨⟩⟩

theorem claimRun_spares (identity : String) (now : Instant) (ids : UniqueIds before)
    (member : row ∈ before.runs) (pending : row.status = .pending) :
    SparesBudget before.runs (claimRun identity row.id now) := by
  intro other otherMember selected
  have same : other = row := RowUpdate.eq_of_column ids.nodup otherMember member (by simpa [claimRun] using selected)
  subst same
  exact ⟨rfl, rfl, rfl, by rw [pending]; rfl, by rintro ⟨⟩⟩

theorem Execution.Writes.spares (writes : execution.Writes false statement)
    (rows : List (Run P)) : SparesBudget rows statement := by
  intro row _ selected
  have claimed : row.status = .claimed := by
    rw [writes.guard] at selected
    exact (heldBy_iff.mp selected).2.1
  have active : row.status.active = true := by
    rw [claimed]
    rfl
  cases writes with
  | heartbeat now =>
    refine ⟨rfl, rfl, rfl, active, fun failed => ?_⟩
    have both : RunStatus.claimed = .failed := claimed.symm.trans failed
    cases both
  | completed now => exact ⟨rfl, rfl, rfl, active, by rintro ⟨⟩⟩

theorem failureStatement_evolves {message : String} {now : Instant} (known : AsClaimed before execution row)
    (held : heldBy execution.claimedBy execution.claimed.runId row = true) :
    Evolves row ((execution.failureStatement message now).sets row) := by
  have claimed : row.status.active = true := by
    rw [(heldBy_iff.mp held).2.1]
    rfl
  have notFinal : row.status.active = false → ∀ status : RunStatus, status = row.status := by
    rw [claimed]
    rintro ⟨⟩
  have attempts := known.attempts
  rw [Execution.failureStatement]
  split
  · exact ⟨rfl, rfl, Nat.le_succ _, fun final => notFinal final _⟩
  · refine ⟨rfl, rfl, ?_, fun final => notFinal final _⟩
    show row.attempts ≤ execution.nextAttempt
    rw [Execution.nextAttempt]
    omega

theorem failureStatement_budget {message : String} {now : Instant} {later : Nat → Nat}
    (known : AsClaimed before execution row) (budget : RowBudget failures row)
    (held : heldBy execution.claimedBy execution.claimed.runId row = true)
    (counted : later row.id = failures row.id + 1) :
    RowBudget later ((execution.failureStatement message now).sets row) := by
  have unfailed : row.status ≠ .failed := by
    rw [(heldBy_iff.mp held).2.1]
    rintro ⟨⟩
  have attempts := known.attempts
  have maxAttempts := known.maxAttempts
  have recorded := budget.recorded
  have within := budget.within
  have unspent : 1 ≤ row.maxAttempts → row.attempts ≠ row.maxAttempts := fun positive spent =>
    unfailed ((budget.spent positive).mpr spent)
  rw [Execution.failureStatement]
  split
  · rename_i exhausted
    simp only [Execution.nextAttempt] at exhausted
    refine ⟨?_, ?_, ?_⟩
    · show row.attempts + 1 = later row.id
      omega
    · intro positive
      have bound := within positive
      have room := unspent positive
      show row.attempts + 1 ≤ row.maxAttempts
      omega
    · intro positive
      have bound := within positive
      have room := unspent positive
      have spent : row.attempts + 1 = row.maxAttempts := by omega
      exact ⟨fun _ => spent, fun _ => rfl⟩
  · rename_i remaining
    have next : execution.nextAttempt = row.attempts + 1 := by
      rw [attempts]
      rfl
    rw [next] at remaining
    refine ⟨?_, ?_, ?_⟩
    · show execution.nextAttempt = later row.id
      omega
    · intro _
      show execution.nextAttempt ≤ row.maxAttempts
      omega
    · intro _
      have room : execution.nextAttempt ≠ row.maxAttempts := by omega
      exact ⟨by rintro ⟨⟩, fun spent => absurd spent room⟩

theorem failuresAfter_row {runId : Nat} (ids : UniqueIds before) (member : row ∈ before.runs)
    (guard : ∀ row, statement.selects row = true → row.id = runId) :
    before.failuresAfter runId statement row.id = if statement.selects row = true then before.failures row.id + 1
      else before.failures row.id := by
  rw [QueueState.failuresAfter]
  by_cases selected : statement.selects row = true
  · have recorded : row.id = runId ∧ before.runs.any statement.selects = true :=
      ⟨guard row selected, List.any_eq_true.mpr ⟨row, member, selected⟩⟩
    rw [if_pos recorded, if_pos selected]
  · rw [if_neg selected, if_neg]
    rintro ⟨same, recorded⟩
    obtain ⟨other, otherMember, otherSelected⟩ := List.any_eq_true.mp recorded
    have one : other = row := RowUpdate.eq_of_column ids.nodup otherMember member
      ((guard other otherSelected).trans same.symm)
    exact selected (one ▸ otherSelected)

/-- Every row keeps to its budget, and nothing is counted for rows to come. -/
structure WithinBudget (state : QueueState P) : Prop where
  rows : ∀ row ∈ state.runs, RowBudget state.failures row
  fresh : ∀ id, state.nextId ≤ id → state.failures id = 0

def RowsEvolve (before after : QueueState P) : Prop :=
  ∀ old ∈ before.runs, ∃ row ∈ after.runs, Evolves old row

theorem RowsEvolve.of_update (runs : after.runs = statement.run before.runs)
    (evolves : ∀ row ∈ before.runs, statement.selects row = true →
      Evolves row (statement.sets row)) : RowsEvolve before after := by
  intro old member
  refine ⟨statement.onRow old, by rw [runs]; exact List.mem_map_of_mem member, ?_⟩
  by_cases selected : statement.selects old = true
  · rw [RowUpdate.onRow_selected selected]
    exact evolves old member selected
  · rw [RowUpdate.onRow_skipped (by simpa using selected)]
    exact .refl old

theorem SparesBudget.withinBudget (spares : SparesBudget before.runs statement)
    (budget : WithinBudget before) (runs : after.runs = statement.run before.runs)
    (nextId : after.nextId = before.nextId) (failures : after.failures = before.failures) : WithinBudget after where
  rows row member := by
    rw [runs, RowUpdate.mem_run] at member
    obtain ⟨old, oldMember, rfl⟩ := member
    rw [failures]
    by_cases selected : statement.selects old = true
    · rw [RowUpdate.onRow_selected selected]
      exact (spares old oldMember selected).budget (budget.rows old oldMember)
    · rw [RowUpdate.onRow_skipped (by simpa using selected)]
      exact budget.rows old oldMember
  fresh := by
    rw [nextId, failures]
    exact budget.fresh

theorem WithinBudget.insert {request : SendRequest P} {now : Instant} (budget : WithinBudget before)
    (runs : after.runs = before.runs ++ [request.row before.nextId now])
    (nextId : after.nextId = before.nextId + 1) (failures : after.failures = before.failures) :
    WithinBudget after where
  rows row member := by
    rw [runs, List.mem_append, List.mem_singleton] at member
    rw [failures]
    rcases member with present | rfl
    · exact budget.rows row present
    · refine ⟨(budget.fresh _ (Nat.le_refl _)).symm, fun _ => Nat.zero_le _, ?_⟩
      intro positive
      refine ⟨by rintro ⟨⟩, fun spent => ?_⟩
      change 0 = request.maxAttempts at spent
      change 1 ≤ request.maxAttempts at positive
      omega
  fresh id above := by
    rw [failures]
    rw [nextId] at above
    exact budget.fresh id (by omega)

theorem failure_withinBudget (ids : UniqueIds before) (budget : WithinBudget before)
    (writes : execution.Writes true statement)
    (known : ∀ row ∈ before.runs, statement.selects row = true → AsClaimed before execution row)
    (runs : after.runs = statement.run before.runs) (nextId : after.nextId = before.nextId)
    (failures : after.failures = before.failuresAfter execution.claimed.runId statement) : WithinBudget after where
  rows row member := by
    rw [runs, RowUpdate.mem_run] at member
    obtain ⟨old, oldMember, rfl⟩ := member
    have guard : ∀ row, statement.selects row = true → row.id = execution.claimed.runId := by
      intro row selected
      rw [writes.guard] at selected
      exact (heldBy_iff.mp selected).1
    have counted := failuresAfter_row ids oldMember guard
    rw [failures]
    by_cases selected : statement.selects old = true
    · rw [RowUpdate.onRow_selected selected]
      rw [if_pos selected] at counted
      have current := known old oldMember selected
      rw [writes.guard] at selected
      cases writes with
      | failed message now =>
        exact failureStatement_budget current (budget.rows old oldMember) selected counted
    · rw [RowUpdate.onRow_skipped (by simpa using selected)]
      rw [if_neg selected] at counted
      have row := budget.rows old oldMember
      exact ⟨by rw [counted]; exact row.recorded, row.within, row.spent⟩
  fresh id above := by
    rw [nextId] at above
    rw [failures]
    rw [QueueState.failuresAfter]
    rw [if_neg]
    · exact budget.fresh id above
    · rintro ⟨same, recorded⟩
      obtain ⟨other, member, selected⟩ := List.any_eq_true.mp recorded
      rw [writes.guard] at selected
      have below := ids.below other member
      have target := (heldBy_iff.mp selected).1
      omega

theorem Effect.budget (effect : Effect before event after) (ids : UniqueIds before)
    (known : HeldUnderOwnClaim Execution.unsettled before) (budget : WithinBudget before) :
    WithinBudget after ∧ RowsEvolve before after := by
  have still (runs : after.runs = before.runs) : RowsEvolve before after := by
    intro old member
    exact ⟨old, runs ▸ member, .refl old⟩
  have spared {statement : RowUpdate (Run P)} (spares : SparesBudget before.runs statement)
      (runs : after.runs = statement.run before.runs) : RowsEvolve before after :=
    .of_update runs fun row member selected => (spares row member selected).evolves
  cases effect with
  | quiet runs nextId _ _ failures =>
    exact ⟨⟨by rw [runs, failures]; exact budget.rows, by rw [nextId, failures]; exact budget.fresh⟩,
      still runs⟩
  | inserted request now _ runs nextId _ _ failures =>
    refine ⟨budget.insert runs nextId failures, ?_⟩
    intro old member
    exact ⟨old, by rw [runs]; exact List.mem_append_left _ member, .refl old⟩
  | released statement releases runs nextId _ _ failures =>
    have spares := releases.spares before.runs
    exact ⟨spares.withinBudget budget runs nextId failures, spared spares runs⟩
  | claimed identity row now execution _ pending member _ runs nextId _ _ _ failures =>
    have spares := claimRun_spares identity now ids member pending
    exact ⟨spares.withinBudget budget runs nextId failures, spared spares runs⟩
  | progressed index execution next _ _ runs nextId _ _ failures =>
    exact ⟨⟨by rw [runs, failures]; exact budget.rows, by rw [nextId, failures]; exact budget.fresh⟩,
      still runs⟩
  | wrote index execution next records statement found advances writes _ runs nextId _ _ failures =>
    cases records with
    | false =>
      have spares := writes.spares before.runs
      exact ⟨spares.withinBudget budget runs nextId failures, spared spares runs⟩
    | true =>
      have open_ : execution.unsettled := by
        cases writes with
        | failed message now reached =>
          exact Execution.unsettled_of_phase reached (by decide)
      have current : ∀ row ∈ before.runs, statement.selects row = true → AsClaimed before execution row := by
        intro row member selected
        rw [writes.guard] at selected
        exact known execution (List.mem_of_getElem? found) open_ row member selected
      refine ⟨failure_withinBudget ids budget writes current runs nextId failures, ?_⟩
      refine .of_update runs fun row member selected => ?_
      have reading := current row member selected
      rw [writes.guard] at selected
      cases writes with
      | failed message now => exact failureStatement_evolves reading selected

theorem queue_withinBudget {state : QueueState P}
    (reached : queue.Reachable (NoReclaimWhile Execution.unsettled) state) : WithinBudget state := by
  apply reached.invariant
  · intro state begins
    obtain ⟨identities, rfl⟩ := begins
    exact ⟨fun row member => absurd member List.not_mem_nil, fun _ _ => rfl⟩
  · intro before event after reached budget permitted stepped
    have known := queue_heldUnderOwnClaim (fun _ _ advances => advances.unsettled)
      (fun _ _ permitted => permitted) reached
    exact ((consumerStep_effect stepped).budget (queue_uniqueIds reached) known budget).1

theorem queue_rowsEvolve (reached : queue.Reachable (NoReclaimWhile Execution.unsettled) before)
    (later : queue.Later (NoReclaimWhile Execution.unsettled) before after) : RowsEvolve before after := by
  refine Machine.Later.related RowsEvolve ?_ ?_ ?_ reached later
  · intro state row member
    exact ⟨row, member, .refl row⟩
  · intro first second third earlier next row member
    obtain ⟨middle, middleMember, toMiddle⟩ := earlier row member
    obtain ⟨last, lastMember, toLast⟩ := next middle middleMember
    exact ⟨last, lastMember, toMiddle.trans toLast⟩
  · intro before event after reached _ stepped
    have known := queue_heldUnderOwnClaim (fun _ _ advances => advances.unsettled)
      (fun _ _ permitted => permitted) reached
    exact ((consumerStep_effect stepped).budget (queue_uniqueIds reached) known (queue_withinBudget reached)).2

/-- What the retry budget promises about a run between two of its moments. -/
def RetryBudget (before after : QueueState P) : Prop :=
  ∀ row ∈ after.runs, 1 ≤ row.maxAttempts →
    row.attempts ≤ row.maxAttempts ∧
      (row.status = .failed ↔ after.failures row.id = row.maxAttempts) ∧
      ∀ old ∈ before.runs, old.id = row.id →
        old.attempts ≤ row.attempts ∧ (old.status.active = false → row.status = old.status)

instance : ∀ before after : QueueState P, Decidable (RetryBudget before after) := fun _ _ => by
  rw [RetryBudget]
  infer_instance

/-- The budget is kept while no process claims a row for which one of its own
earlier calls has still to report. -/
theorem retry_budget_kept :
    ∀ before after : QueueState P, queue.Reachable (NoReclaimWhile Execution.unsettled) before →
        queue.Later (NoReclaimWhile Execution.unsettled) before after → RetryBudget before after := by
  intro before after reached later row member positive
  have laterReached := reached.later later
  have budget := (queue_withinBudget laterReached).rows row member
  refine ⟨budget.within positive, ?_, ?_⟩
  · rw [← budget.recorded]
    exact budget.spent positive
  · intro old oldMember sameId
    obtain ⟨current, currentMember, evolves⟩ := queue_rowsEvolve reached later old oldMember
    have same : current = row := RowUpdate.eq_of_column (queue_uniqueIds laterReached).nodup
      currentMember member (evolves.id.trans sameId)
    subst same
    exact ⟨evolves.attempts, evolves.terminal⟩

def onceRequest : SendRequest Unit where
  queueName := "messages"
  data := ()
  options := { retryLimit := some 1 }

def startedOnce : List (QueueEvent Unit) :=
  [.start 0, .enqueue onceRequest 0, .work 0 "messages" false]

def failedOnce : List (QueueEvent Unit) :=
  [.poll 0 0, .claimOne 0 0 0 [] true, .handlerThrows 0, .recordFailure 0 "refused" 1]

theorem retry_budget_kept_by_one_failure :
    ∃ before after : QueueState Unit, queue.Reachable (NoReclaimWhile Execution.unsettled) before ∧
        queue.Later (NoReclaimWhile Execution.unsettled) before after ∧
        (∃ row ∈ after.runs, row.status = .failed) ∧ RetryBudget before after := by
  obtain ⟨before, reached, tested⟩ := Machine.exists_of_replay queue
    (NoReclaimWhile Execution.unsettled) (QueueState.initial ["gateway-a"]) startedOnce
    (fun before =>
      (queue.replay (NoReclaimWhile Execution.unsettled) before failedOnce).any fun after =>
        after.runs.any fun row => row.status == .failed)
    ⟨["gateway-a"], rfl⟩ (by decide)
  obtain ⟨after, replayed, failed⟩ := (Option.any_eq_true ..).mp tested
  have later := Machine.later_of_replay replayed
  exact ⟨before, after, reached, later, by simpa using failed,
    retry_budget_kept before after reached later⟩

/-! The first handler hangs past the visibility timeout, its process claims the
row again and records two failures, and then the first handler throws. -/

def retriedInOneProcess : List (QueueEvent Unit) :=
  [.start 0, .enqueue { queueName := "messages", data := () } 0, .work 0 "messages" false,
    .poll 0 0, .claimOne 0 0 0 [] true, .staleSweep 300001,
    .work 0 "messages" false, .workReplaces 0 0, .poll 0 1, .claimOne 0 1 300001 [] true,
    .handlerThrows 1, .recordFailure 1 "refused" 300002,
    .poll 0 1, .claimOne 0 1 310000 [] true, .handlerThrows 2, .recordFailure 2 "refused" 310001,
    .poll 0 1, .claimOne 0 1 320000 [] true]

theorem retry_budget_not_kept :
    ¬ ∀ before after : QueueState Unit, queue.Reachable unrestricted before →
      queue.Later unrestricted before after → RetryBudget before after :=
  Machine.refutes_later_of_replay (QueueState.initial ["gateway-a"]) retriedInOneProcess
    [.handlerThrows 0, .recordFailure 0 "timed out" 320001]
    ⟨["gateway-a"], rfl⟩ (by decide)

end Lobu.Queue
