import Lobu.Queue.Run
import Mathlib.Data.List.Sort

namespace Lobu.Queue

open Lobu.Foundation

/-! # Statements that meet a send

Everything else that touches `runs` while a send is under way, one statement at
a time and with any arguments: the claims, outcomes and sweeps of the queue and
the two clean-ups of old rows.
-/

variable {P : Type}

inductive RunsStatement where
  | claimOne (claimedBy queueName : String) (now : Instant) (locked : List Nat)
  | heartbeatClaim (claimedBy : String) (runId : Nat) (now : Instant)
  | markCompleted (claimedBy : String) (runId : Nat) (now : Instant)
  | markFailed (claimedBy : String) (runId : Nat) (message : String) (now : Instant)
  | scheduleRetry (claimedBy : String) (runId attempt : Nat) (retryDelaySeconds : Option Int)
      (now : Instant)
  | staleSweep (now : Instant)
  | recoverStaleClaimedRowsOnStartup (now : Instant)
  | releaseClaims (claimedBy : String)

/-- What a statement does to the table, once the row to claim is known. -/
def RunsStatement.update (statement : RunsStatement) (runs : List (Run P)) : Option (RowUpdate (Run P)) :=
  match statement with
  | .claimOne claimedBy queueName now locked =>
    (nextRun (classifyQueue queueName) queueName now locked runs).map fun row =>
      claimRun claimedBy row.id now
  | .heartbeatClaim claimedBy runId now => some (Queue.heartbeatClaim claimedBy runId now)
  | .markCompleted claimedBy runId now => some (Queue.markCompleted claimedBy runId now)
  | .markFailed claimedBy runId message now => some (Queue.markFailed claimedBy runId message now)
  | .scheduleRetry claimedBy runId attempt retryDelaySeconds now =>
    some (Queue.scheduleRetry claimedBy runId attempt retryDelaySeconds now)
  | .staleSweep now => some (Queue.staleSweep now)
  | .recoverStaleClaimedRowsOnStartup now => some (Queue.recoverStaleClaimedRowsOnStartup now)
  | .releaseClaims claimedBy => some (Queue.releaseClaims claimedBy)

def RunsStatement.run (statement : RunsStatement) (runs : List (Run P)) : List (Run P) :=
  match statement.update runs with
  | some update => update.run runs
  | none => runs

def dayMs : Int := 24 * 60 * 60 * 1000

def minDispatchReceiptRetentionDays : Int := 30

/-- The retention settings of the environment; `none` is unset or not a number. -/
structure RetentionEnv where
  runsRetentionDays : Option Int
  failedRunsRetentionDays : Option Int
  dispatchReceiptRetentionDays : Option Int

namespace RetentionEnv

def positive (raw : Option Int) : Option Int := raw.filter (0 < ·)

def retentionDays (env : RetentionEnv) : Int :=
  (positive env.runsRetentionDays).getD 30

def failedRetentionDays (env : RetentionEnv) : Int :=
  match positive env.failedRunsRetentionDays with
  | some raw => max raw env.retentionDays
  | none => env.retentionDays

def receiptRetentionDays (env : RetentionEnv) : Int :=
  max (max minDispatchReceiptRetentionDays env.retentionDays)
    ((positive env.dispatchReceiptRetentionDays).getD minDispatchReceiptRetentionDays)

end RetentionEnv

def completedBefore (cutoff : Instant) (row : Run P) : Bool :=
  row.completedAt.any fun completedAt => decide (completedAt < cutoff)

/-- The deletions of `sweepCompletedRuns`, and the one of the stalled-run check.
That one takes up to a thousand rows in no stated order. -/
inductive RunsCleanup where
  | expired (now : Instant)
  | aged (env : RetentionEnv) (now : Instant)
  | agedFailed (env : RetentionEnv) (now : Instant)
  | stalled (chosen : List Nat) (now : Instant)

def RunsCleanup.removes : RunsCleanup → Run P → Bool
  | .expired now, row =>
    (row.expiresAt.any fun expiry => decide (expiry ≤ now)) && row.status == .pending &&
      row.runType.lobu
  | .aged env now, row =>
    (row.status == .completed || row.status == .cancelled || row.status == .timeout) &&
      row.runType.lobu && completedBefore (now - env.retentionDays * dayMs) row
  | .agedFailed env now, row =>
    row.status == .failed && row.runType.lobu &&
      completedBefore (now - env.failedRetentionDays * dayMs) row
  | .stalled chosen now, row =>
    !row.status.active && completedBefore (now - 30 * dayMs) row &&
      (chosen.take 1000).contains row.id

def RunsCleanup.run (cleanup : RunsCleanup) (runs : List (Run P)) : List (Run P) :=
  deleteWhere cleanup.removes runs

/-- `row` is a later version of `old`. -/
structure Persists (old row : Run P) : Prop where
  id : row.id = old.id
  idempotencyKey : row.idempotencyKey = old.idempotencyKey
  final : old.status.active = false → row.status.active = false

variable {old row : Run P} {runs : List (Run P)}

theorem Persists.refl (row : Run P) : Persists row row :=
  ⟨rfl, rfl, fun final => final⟩

theorem Persists.of_active (id : row.id = old.id)
    (idempotencyKey : row.idempotencyKey = old.idempotencyKey) (active : old.status.active = true) :
    Persists old row :=
  ⟨id, idempotencyKey, fun final => by rw [active] at final; contradiction⟩

theorem Persists.active {key : String} (persists : Persists old row)
    (active : activeUnder key row = true) : activeUnder key old = true := by
  obtain ⟨covered, keyed⟩ := PartialIndex.holds_iff.mp active
  refine PartialIndex.holds_iff.mpr ⟨?_, persists.idempotencyKey.symm.trans keyed⟩
  change row.status.active = true at covered
  change old.status.active = true
  rw [← Bool.not_eq_false]
  intro final
  rw [persists.final final] at covered
  contradiction

theorem heldBy_active {claimedBy : String} {runId : Nat}
    (held : heldBy claimedBy runId row = true) : row.status.active = true := by
  rw [(heldBy_iff.mp held).2.1]
  rfl

variable {statement : RunsStatement}

theorem RunsStatement.update_persists {update : RowUpdate (Run P)}
    (unique : (runs.map Run.id).Nodup) (updates : statement.update runs = some update)
    (member : row ∈ runs) (selected : update.selects row = true) : Persists row (update.sets row) := by
  cases statement with
  | claimOne claimedBy queueName now locked =>
    cases found : nextRun (classifyQueue queueName) queueName now locked runs with
    | none => simp [RunsStatement.update, found] at updates
    | some target =>
      simp only [RunsStatement.update, found, Option.map_some, Option.some.injEq] at updates
      subst updates
      have same : row = target := RowUpdate.eq_of_column unique member (nextRun_mem found).1
        (by simpa [claimRun] using selected)
      refine .of_active rfl rfl ?_
      rw [same, nextRun_pending found]
      rfl
  | heartbeatClaim claimedBy runId now =>
    cases updates
    exact .of_active rfl rfl (heldBy_active selected)
  | markCompleted claimedBy runId now =>
    cases updates
    exact .of_active rfl rfl (heldBy_active selected)
  | markFailed claimedBy runId message now =>
    cases updates
    exact .of_active rfl rfl (heldBy_active selected)
  | scheduleRetry claimedBy runId attempt retryDelaySeconds now =>
    cases updates
    exact .of_active rfl rfl (heldBy_active selected)
  | staleSweep now =>
    cases updates
    refine .of_active rfl rfl ?_
    simp only [Queue.staleSweep, Bool.and_eq_true, beq_iff_eq] at selected
    rw [selected.1.1]
    rfl
  | recoverStaleClaimedRowsOnStartup now =>
    cases updates
    refine .of_active rfl rfl ?_
    simp only [Queue.recoverStaleClaimedRowsOnStartup, Bool.and_eq_true, Bool.or_eq_true, beq_iff_eq] at selected
    rcases selected.1.1 with claimed | running
    · rw [claimed]
      rfl
    · rw [running]
      rfl
  | releaseClaims claimedBy =>
    cases updates
    refine .of_active rfl rfl ?_
    simp only [Queue.releaseClaims, Bool.and_eq_true, beq_iff_eq] at selected
    rw [selected.2]
    rfl

theorem RunsStatement.run_persists (unique : (runs.map Run.id).Nodup)
    (member : row ∈ statement.run runs) : ∃ old ∈ runs, Persists old row := by
  simp only [RunsStatement.run] at member
  split at member
  · rename_i update updates
    rw [RowUpdate.mem_run] at member
    obtain ⟨old, oldMember, rfl⟩ := member
    refine ⟨old, oldMember, ?_⟩
    by_cases selected : update.selects old = true
    · rw [RowUpdate.onRow_selected selected]
      exact statement.update_persists unique updates oldMember selected
    · rw [RowUpdate.onRow_skipped (by simpa using selected)]
      exact .refl old
  · exact ⟨row, member, .refl row⟩

theorem RunsStatement.update_keeps_id {update : RowUpdate (Run P)}
    (updates : statement.update runs = some update) (row : Run P) : (update.sets row).id = row.id := by
  cases statement with
  | claimOne claimedBy queueName now locked =>
    cases found : nextRun (classifyQueue queueName) queueName now locked runs with
    | none => simp [RunsStatement.update, found] at updates
    | some target =>
      simp only [RunsStatement.update, found, Option.map_some, Option.some.injEq] at updates
      subst updates
      rfl
  | heartbeatClaim | markCompleted | markFailed | scheduleRetry | staleSweep
  | recoverStaleClaimedRowsOnStartup | releaseClaims =>
    cases updates
    rfl

theorem RunsStatement.run_ids (statement : RunsStatement) (runs : List (Run P)) :
    (statement.run runs).map Run.id = runs.map Run.id := by
  rw [RunsStatement.run]
  split
  · rename_i update updates
    exact update.run_column Run.id (statement.update_keeps_id updates) runs
  · rfl

end Lobu.Queue
