import Lobu.Queue.Consumer

namespace Lobu.Queue

open Lobu.Foundation

/-! # What a call knows about the row it claimed

A handler's statements are guarded by the identity of its process.  While no
identity claims a row for which one of its earlier calls is still `pending`,
that guard says everything: a row held by the identity is held under the very
claim of the pending call, and no attempt was recorded since.
-/

variable {P : Type} {pending : Execution P → Prop} {before after : QueueState P}
variable {event : QueueEvent P} {statement : RowUpdate (Run P)} {execution : Execution P}
variable {records : Bool}

/-- No identity claims a row while an earlier call of its own for the same row
is `pending`. -/
def NoReclaimWhile (pending : Execution P → Prop) :
    Discipline (QueueState P) (QueueEvent P) := fun state event =>
  match claimTarget state event with
  | some (identity, row) => ∀ execution ∈ state.executions, execution.claimedBy = identity →
      execution.claimed.runId = row.id → ¬ pending execution
  | none => True

instance [DecidablePred pending] (state : QueueState P) (event : QueueEvent P) :
    Decidable (NoReclaimWhile pending state event) := by
  rw [NoReclaimWhile]
  split <;> infer_instance

theorem NoReclaimWhile.other_identity {identity : String} {row : Run P}
    (permitted : NoReclaimWhile pending before event) (target : claimTarget before event = some (identity, row))
    (member : execution ∈ before.executions) (waiting : pending execution)
    (sameRun : execution.claimed.runId = row.id) : execution.claimedBy ≠ identity := by
  intro same
  simp only [NoReclaimWhile, target] at permitted
  exact permitted execution member same sameRun waiting

/-- Ids come from a sequence, so no two rows share one. -/
structure UniqueIds (state : QueueState P) : Prop where
  nodup : (state.runs.map Run.id).Nodup
  below : ∀ row ∈ state.runs, row.id < state.nextId

theorem UniqueIds.update (ids : UniqueIds before) (kept : ∀ row, (statement.sets row).id = row.id)
    (runs : after.runs = statement.run before.runs) (nextId : after.nextId = before.nextId) : UniqueIds after where
  nodup := by
    rw [runs, statement.run_column Run.id kept]
    exact ids.nodup
  below := by
    rw [runs, nextId]
    exact RowUpdate.forall_run Run.id (· < _) kept ids.below

theorem UniqueIds.insert {request : SendRequest P} {now : Instant} (ids : UniqueIds before)
    (runs : after.runs = before.runs ++ [request.row before.nextId now])
    (nextId : after.nextId = before.nextId + 1) : UniqueIds after where
  nodup := by
    rw [runs]
    exact nodup_append_drawn ids.nodup ids.below rfl
  below := by
    rw [runs, nextId]
    exact below_append_drawn ids.below rfl

theorem Execution.Writes.keeps_id (writes : execution.Writes records statement) (row : Run P) :
    (statement.sets row).id = row.id := by
  cases writes with
  | heartbeat => rfl
  | completed => rfl
  | failed message now =>
    rw [Execution.failureStatement]
    split <;> rfl

theorem Releases.keeps_id (releases : Releases statement) (row : Run P) : (statement.sets row).id = row.id := by
  cases releases <;> rfl

theorem Execution.Writes.keeps_input (writes : execution.Writes records statement) (row : Run P) :
    (statement.sets row).actionInput = row.actionInput := by
  cases writes with
  | heartbeat => rfl
  | completed => rfl
  | failed message now =>
    rw [Execution.failureStatement]
    split <;> rfl

theorem Releases.keeps_input (releases : Releases statement) (row : Run P) :
    (statement.sets row).actionInput = row.actionInput := by
  cases releases <;> rfl

theorem Effect.uniqueIds (effect : Effect before event after) (ids : UniqueIds before) : UniqueIds after := by
  cases effect with
  | quiet runs nextId => exact ⟨by rw [runs]; exact ids.nodup, by rw [runs, nextId]; exact ids.below⟩
  | inserted request now _ runs nextId => exact ids.insert runs nextId
  | released statement releases runs nextId => exact ids.update releases.keeps_id runs nextId
  | claimed identity row now execution _ _ _ _ runs nextId =>
    exact ids.update (fun _ => rfl) runs nextId
  | progressed index execution next _ _ runs nextId =>
    exact ⟨by rw [runs]; exact ids.nodup, by rw [runs, nextId]; exact ids.below⟩
  | wrote index execution next records statement _ _ writes _ runs nextId =>
    exact ids.update writes.keeps_id runs nextId

theorem queue_uniqueIds {allowed : Discipline (QueueState P) (QueueEvent P)}
    {state : QueueState P} (reached : queue.Reachable allowed state) : UniqueIds state := by
  apply reached.invariant
  · intro state begins
    obtain ⟨identities, rfl⟩ := begins
    exact ⟨List.nodup_nil, fun row member => absurd member List.not_mem_nil⟩
  · intro before event after _ ids _ stepped
    exact (consumerStep_effect stepped).uniqueIds ids

/-- What the holder of a row can count on: nothing but a release, an outcome or a
new claim changes the columns below. -/
structure SameHold (old row : Run P) : Prop where
  id : row.id = old.id
  status : old.status = .claimed
  claimedBy : row.claimedBy = old.claimedBy
  attempts : row.attempts = old.attempts
  maxAttempts : row.maxAttempts = old.maxAttempts

theorem SameHold.refl {row : Run P} (claimed : row.status = .claimed) : SameHold row row :=
  ⟨rfl, claimed, rfl, rfl, rfl⟩

/-- A row held after the statement was held alike before it. -/
def KeepsHold (statement : RowUpdate (Run P)) : Prop :=
  ∀ row, (statement.onRow row).status = .claimed → SameHold row (statement.onRow row)

theorem KeepsHold.of_sets (held : ∀ row, statement.selects row = true →
    (statement.sets row).status = .claimed → SameHold row (statement.sets row)) : KeepsHold statement := by
  intro row claimed
  by_cases selected : statement.selects row = true
  · rw [statement.onRow_selected selected] at claimed ⊢
    exact held row selected claimed
  · rw [statement.onRow_skipped (by simpa using selected)] at claimed ⊢
    exact .refl claimed

theorem Releases.keepsHold (releases : Releases statement) : KeepsHold statement := by
  cases releases <;> exact .of_sets fun _ _ claimed => by cases claimed

theorem Execution.Writes.guard (writes : execution.Writes records statement) :
    statement.selects = heldBy execution.claimedBy execution.claimed.runId := by
  cases writes with
  | heartbeat => rfl
  | completed => rfl
  | failed message now =>
    rw [Execution.failureStatement]
    split <;> rfl

theorem Execution.Writes.keepsHold (writes : execution.Writes records statement) : KeepsHold statement := by
  cases writes with
  | heartbeat now =>
    refine .of_sets fun row selected _ => ?_
    exact ⟨rfl, (heldBy_iff.mp selected).2.1, rfl, rfl, rfl⟩
  | completed now => exact .of_sets fun _ _ claimed => by cases claimed
  | failed message now =>
    rw [Execution.failureStatement]
    split <;> exact .of_sets fun _ _ claimed => by cases claimed

/-- The row is still as the call found it. -/
structure AsClaimed (state : QueueState P) (execution : Execution P) (row : Run P) : Prop where
  claimNumber : state.claims row.id = execution.claimNumber
  attempts : row.attempts = execution.claimed.attempts
  maxAttempts : row.maxAttempts = execution.claimed.maxAttempts

def HeldUnderOwnClaim (pending : Execution P → Prop) (state : QueueState P) : Prop :=
  ∀ execution ∈ state.executions, pending execution → ∀ row ∈ state.runs,
    heldBy execution.claimedBy execution.claimed.runId row = true → AsClaimed state execution row

/-- Every pending call after the step continues a pending call from before it. -/
def CallsContinue (pending : Execution P → Prop) (before after : QueueState P) : Prop :=
  ∀ execution ∈ after.executions, pending execution → ∃ earlier ∈ before.executions,
    pending earlier ∧ execution.claimedBy = earlier.claimedBy ∧
      execution.claimed = earlier.claimed ∧ execution.claimNumber = earlier.claimNumber

theorem CallsContinue.of_eq (executions : after.executions = before.executions) :
    CallsContinue pending before after := by
  intro execution member waiting
  rw [executions] at member
  exact ⟨execution, member, waiting, rfl, rfl, rfl⟩

theorem CallsContinue.of_set (backward : ∀ earlier later : Execution P, earlier.Advances later →
      pending later → pending earlier) {index : Nat} {next : Execution P}
    (found : before.executions[index]? = some execution) (advances : execution.Advances next)
    (executions : after.executions = before.executions.set index next) : CallsContinue pending before after := by
  intro call member waiting
  rw [executions] at member
  rcases List.mem_or_eq_of_mem_set member with old | rfl
  · exact ⟨call, old, waiting, rfl, rfl, rfl⟩
  · exact ⟨execution, List.mem_of_getElem? found, backward _ _ advances waiting,
      advances.claimedBy, advances.claimed, advances.claimNumber⟩

/-- The invariant survives any step that neither claims a row nor starts a call. -/
theorem HeldUnderOwnClaim.carry (invariant : HeldUnderOwnClaim pending before)
    (holds : ∀ row ∈ after.runs, row.status = .claimed → ∃ old ∈ before.runs, SameHold old row)
    (calls : CallsContinue pending before after) (claims : after.claims = before.claims) :
    HeldUnderOwnClaim pending after := by
  intro execution member waiting row rowMember held
  obtain ⟨sameRun, claimed, holder⟩ := heldBy_iff.mp held
  obtain ⟨earlier, earlierMember, earlierWaiting, sameIdentity, sameClaim, sameNumber⟩ :=
    calls execution member waiting
  obtain ⟨old, oldMember, hold⟩ := holds row rowMember claimed
  have oldHeld : heldBy earlier.claimedBy earlier.claimed.runId old = true :=
    heldBy_iff.mpr ⟨by rw [← hold.id, sameRun, sameClaim], hold.status,
      by rw [← hold.claimedBy, holder, sameIdentity]⟩
  have known := invariant earlier earlierMember earlierWaiting old oldMember oldHeld
  exact ⟨by rw [claims, hold.id, known.claimNumber, sameNumber],
    by rw [hold.attempts, known.attempts, sameClaim],
    by rw [hold.maxAttempts, known.maxAttempts, sameClaim]⟩

theorem KeepsHold.holds (keeps : KeepsHold statement) (runs : after.runs = statement.run before.runs) :
    ∀ row ∈ after.runs, row.status = .claimed → ∃ old ∈ before.runs, SameHold old row := by
  intro row member claimed
  rw [runs, RowUpdate.mem_run] at member
  obtain ⟨old, oldMember, rfl⟩ := member
  exact ⟨old, oldMember, keeps old claimed⟩

/-- A claim makes the row the new call's own.  Any other pending call for the row
belongs to another identity, so the row is no longer held by it. -/
theorem HeldUnderOwnClaim.claim {identity : String} {row : Run P} {now : Instant}
    (invariant : HeldUnderOwnClaim pending before) (ids : UniqueIds before)
    (permitted : NoReclaimWhile pending before event)
    (target : claimTarget before event = some (identity, row)) (member : row ∈ before.runs)
    (started : execution.StartedFor identity row (after.claims row.id))
    (runs : after.runs = (claimRun identity row.id now).run before.runs)
    (executions : after.executions = before.executions ++ [execution])
    (others : ∀ id, id ≠ row.id → after.claims id = before.claims id) : HeldUnderOwnClaim pending after := by
  obtain ⟨ownIdentity, ownRun, _, ownAttempts, ownMaximum, ownNumber⟩ := started
  intro call callMember waiting current currentMember held
  obtain ⟨sameRun, claimed, holder⟩ := heldBy_iff.mp held
  rw [runs, RowUpdate.mem_run] at currentMember
  obtain ⟨old, oldMember, rfl⟩ := currentMember
  have keptId : ((claimRun identity row.id now).onRow old).id = old.id :=
    RowUpdate.onRow_column Run.id (fun _ => rfl) old
  rw [keptId] at sameRun
  rw [executions, List.mem_append, List.mem_singleton] at callMember
  by_cases target_ : old.id = row.id
  · have same : old = row := RowUpdate.eq_of_column ids.nodup oldMember member target_
    subst old
    have rewritten : (claimRun identity row.id now).onRow row =
        { row with status := .claimed, claimedAt := some now, claimedBy := some identity } :=
      RowUpdate.onRow_selected (by simp [claimRun])
    rw [rewritten] at holder ⊢
    rcases callMember with earlier | rfl
    · have different := permitted.other_identity target earlier waiting sameRun.symm
      exact absurd (Option.some.inj holder).symm different
    · exact ⟨ownNumber.symm, ownAttempts.symm, ownMaximum.symm⟩
  · have skipped : (claimRun identity row.id now).onRow old = old :=
      RowUpdate.onRow_skipped (by simp [claimRun, target_])
    rw [skipped] at claimed holder ⊢
    rcases callMember with earlier | rfl
    · have known := invariant call earlier waiting old oldMember (heldBy_iff.mpr ⟨sameRun, claimed, holder⟩)
      exact ⟨by rw [others old.id target_]; exact known.claimNumber, known.attempts, known.maxAttempts⟩
    · exact absurd (sameRun.trans ownRun) target_

theorem Effect.heldUnderOwnClaim (backward : ∀ earlier later : Execution P,
      earlier.Advances later → pending later → pending earlier)
    (effect : Effect before event after) (ids : UniqueIds before) (permitted : NoReclaimWhile pending before event)
    (invariant : HeldUnderOwnClaim pending before) : HeldUnderOwnClaim pending after := by
  have unchanged (runs : after.runs = before.runs) : ∀ row ∈ after.runs,
      row.status = .claimed → ∃ old ∈ before.runs, SameHold old row := by
    intro row member claimed
    exact ⟨row, runs ▸ member, .refl claimed⟩
  cases effect with
  | quiet runs _ executions claims =>
    exact invariant.carry (unchanged runs) (.of_eq executions) claims
  | inserted request now _ runs _ executions claims =>
    refine invariant.carry ?_ (.of_eq executions) claims
    intro row member claimed
    rw [runs, List.mem_append, List.mem_singleton] at member
    rcases member with old | rfl
    · exact ⟨row, old, .refl claimed⟩
    · cases claimed
  | released statement releases runs _ executions claims =>
    exact invariant.carry (releases.keepsHold.holds runs) (.of_eq executions) claims
  | claimed identity row now execution target _ member started runs _ executions _ others =>
    exact invariant.claim ids permitted target member started runs executions others
  | progressed index execution next found advances runs _ executions claims =>
    exact invariant.carry (unchanged runs) (.of_set backward found advances executions) claims
  | wrote index execution next records statement found advances writes _ runs _ executions claims =>
    exact invariant.carry (writes.keepsHold.holds runs) (.of_set backward found advances executions) claims

theorem queue_heldUnderOwnClaim {allowed : Discipline (QueueState P) (QueueEvent P)}
    {state : QueueState P} (backward : ∀ earlier later : Execution P,
      earlier.Advances later → pending later → pending earlier)
    (disciplined : ∀ state event, allowed state event → NoReclaimWhile pending state event)
    (reached : queue.Reachable allowed state) : HeldUnderOwnClaim pending state := by
  apply reached.invariant
  · intro state begins execution member
    obtain ⟨identities, rfl⟩ := begins
    exact absurd member List.not_mem_nil
  · intro before event after reached invariant permitted stepped
    exact (consumerStep_effect stepped).heldUnderOwnClaim backward (queue_uniqueIds reached)
      (disciplined before event permitted) invariant

end Lobu.Queue
