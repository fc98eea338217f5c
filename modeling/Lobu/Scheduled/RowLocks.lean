import Lobu.Scheduled.ScheduledJobs

namespace Lobu.Scheduled

open Lobu.Foundation Lobu.Queue

/-! # Row locks

What `FOR UPDATE` gives the transactions over the jobs: a locked row has one
holder, and stays in the table as its holder read it.
-/

/-- The rows as the transactions that lock them have read them. -/
def JobsState.lockedRows (state : JobsState) : List ScheduledJobRow :=
  state.dispatches.map Dispatch.row ++ state.pending.filterMap PendingWrite.existing

theorem JobsState.locked_eq (state : JobsState) : state.locked = state.lockedRows.map ScheduledJobRow.id := by
  simp [JobsState.locked, JobsState.lockedRows, List.map_filterMap, Function.comp_def]

structure LocksHeld (state : JobsState) : Prop where
  unique : (state.jobs.map ScheduledJobRow.id).Nodup
  bounded : ∀ row ∈ state.jobs, row.id < state.nextJobId
  apart : (state.lockedRows.map ScheduledJobRow.id).Nodup
  present : ∀ row ∈ state.lockedRows, row ∈ state.jobs

section Releases

variable {state : JobsState} {place : Nat} {dispatch : Dispatch} {held : PendingWrite}

theorem lockedRows_releaseDispatch (found : state.dispatches[place]? = some dispatch) :
    state.lockedRows.Perm (dispatch.row :: (state.releaseDispatch place).lockedRows) := by
  obtain ⟨bound, rfl⟩ := List.getElem?_eq_some_iff.mp found
  have erased := (List.getElem_cons_eraseIdx_perm bound).symm.map Dispatch.row
  exact erased.append_right _

theorem lockedRows_releasePending (found : state.pending[place]? = some held)
    {existing : ScheduledJobRow} (updates : held.existing = some existing) :
    state.lockedRows.Perm (existing :: { state with pending := state.pending.eraseIdx place }.lockedRows) := by
  obtain ⟨bound, rfl⟩ := List.getElem?_eq_some_iff.mp found
  have erased := (List.getElem_cons_eraseIdx_perm bound).symm.filterMap PendingWrite.existing
  rw [List.filterMap_cons_some updates] at erased
  have ordered : state.lockedRows.Perm (state.dispatches.map Dispatch.row ++
      existing :: (state.pending.eraseIdx place).filterMap PendingWrite.existing) :=
    erased.append_left _
  exact ordered.trans List.perm_middle

end Releases

namespace LocksHeld

variable {schedule : Schedule} {platform : Platform} {state before after : JobsState}
variable {event : JobsEvent} {row : ScheduledJobRow} {rest : List ScheduledJobRow}

theorem shrink (locks : LocksHeld before) (rows : after.lockedRows.Sublist before.lockedRows)
    (unique : (after.jobs.map ScheduledJobRow.id).Nodup) (bounded : ∀ row ∈ after.jobs, row.id < after.nextJobId)
    (kept : ∀ row ∈ after.lockedRows, row ∈ before.jobs → row ∈ after.jobs) : LocksHeld after where
  unique := unique
  bounded := bounded
  apart := locks.apart.sublist (rows.map _)
  present row member := kept row member (locks.present row (rows.subset member))

theorem not_locked_again (locks : LocksHeld state) (released : state.lockedRows.Perm (row :: rest)) :
    ∀ other ∈ rest, other.id ≠ row.id := by
  have apart := (released.map ScheduledJobRow.id).nodup_iff.mp locks.apart
  rw [List.map_cons, List.nodup_cons] at apart
  intro other member same
  exact apart.1 (List.mem_map.mpr ⟨other, member, same⟩)

variable {statement : RowUpdate ScheduledJobRow}

theorem update_unique (locks : LocksHeld state) (identity : ∀ row, (statement.sets row).id = row.id) :
    ((statement.run state.jobs).map ScheduledJobRow.id).Nodup := by
  rw [RowUpdate.run_column _ identity]
  exact locks.unique

theorem update_bounded (locks : LocksHeld state) (identity : ∀ row, (statement.sets row).id = row.id) :
    ∀ row ∈ statement.run state.jobs, row.id < state.nextJobId :=
  RowUpdate.forall_run ScheduledJobRow.id (· < _) identity locks.bounded

theorem update_others (target : ∀ job, statement.selects job = true → job.id = row.id)
    {other : ScheduledJobRow} (different : other.id ≠ row.id) (member : other ∈ state.jobs) :
    other ∈ statement.run state.jobs := by
  apply RowUpdate.mem_run.mpr
  refine ⟨other, member, RowUpdate.onRow_skipped ?_⟩
  rw [← Bool.not_eq_true]
  intro selected
  exact different (target other selected)

theorem skipped_of_free {selects : ScheduledJobRow → Bool} (free : state.free selects = true)
    (member : row ∈ state.jobs) (locked : row ∈ state.lockedRows) : selects row = false := by
  have either := List.all_eq_true.mp free row member
  have held : row.id ∈ state.locked := by
    rw [state.locked_eq]
    exact List.mem_map_of_mem locked
  simpa [held] using either

section

variable (locks : LocksHeld before)
include locks

theorem release (statement : RowUpdate ScheduledJobRow) (released : before.lockedRows.Perm (row :: after.lockedRows))
    (rows : after.lockedRows.Sublist before.lockedRows) (identity : ∀ row, (statement.sets row).id = row.id)
    (target : ∀ job, statement.selects job = true → job.id = row.id) (jobs : after.jobs = statement.run before.jobs)
    (nextJobId : after.nextJobId = before.nextJobId) : LocksHeld after := by
  apply locks.shrink rows
  · rw [jobs]
    exact locks.update_unique identity
  · rw [jobs, nextJobId]
    exact locks.update_bounded identity
  · intro other locked member
    rw [jobs]
    exact update_others target (locks.not_locked_again released other locked) member

theorem insert (newRow : Nat → ScheduledJobRow) (numbered : ∀ id, (newRow id).id = id)
    (rows : after.lockedRows.Sublist before.lockedRows) (jobs : after.jobs = before.jobs ++ [newRow before.nextJobId])
    (nextJobId : after.nextJobId = before.nextJobId + 1) : LocksHeld after := by
  apply locks.shrink rows
  · rw [jobs]
    exact nodup_append_drawn locks.unique locks.bounded (numbered _)
  · rw [jobs, nextJobId]
    exact below_append_drawn locks.bounded (numbered _)
  · intro row _ member
    rw [jobs]
    exact List.mem_append_left _ member

theorem edit (edits : event.Edits statement) (free : before.free statement.selects = true) :
    LocksHeld (before.update statement) := by
  have identity : ∀ row, (statement.sets row).id = row.id := by
    cases edits <;> intro row <;> rfl
  apply locks.shrink
  · exact List.Sublist.refl _
  · exact locks.update_unique identity
  · exact locks.update_bounded identity
  · intro row locked member
    exact RowUpdate.mem_run.mpr ⟨row, member, RowUpdate.onRow_skipped (skipped_of_free free member locked)⟩

theorem delete {selects : ScheduledJobRow → Bool} (free : before.free selects = true) :
    LocksHeld { before with jobs := deleteWhere selects before.jobs } := by
  apply locks.shrink
  · exact List.Sublist.refl _
  · exact locks.unique.sublist (List.filter_sublist.map _)
  · intro row member
    exact locks.bounded row (mem_deleteWhere.mp member).1
  · intro row locked member
    exact mem_deleteWhere.mpr ⟨member, skipped_of_free free member locked⟩

theorem lock (member : row ∈ before.jobs) (free : row.id ∉ before.locked)
    (rows : after.lockedRows.Perm (row :: before.lockedRows)) (jobs : after.jobs = before.jobs)
    (nextJobId : after.nextJobId = before.nextJobId) : LocksHeld after where
  unique := by
    rw [jobs]
    exact locks.unique
  bounded := by
    rw [jobs, nextJobId]
    exact locks.bounded
  apart := by
    rw [(rows.map ScheduledJobRow.id).nodup_iff, List.map_cons, List.nodup_cons]
    rw [before.locked_eq] at free
    exact ⟨free, locks.apart⟩
  present := by
    intro other otherMember
    rw [jobs]
    rcases List.mem_cons.mp (rows.subset otherMember) with rfl | otherMember
    · exact member
    · exact locks.present other otherMember

theorem dispatchWrites {place : Nat} {dispatch : Dispatch} (found : before.dispatches[place]? = some dispatch)
    (identity : ∀ row, (statement.sets row).id = row.id)
    (target : ∀ job, statement.selects job = true → job.id = dispatch.row.id) :
    LocksHeld ((before.update statement).releaseDispatch place) := by
  apply locks.release statement
  · exact lockedRows_releaseDispatch found
  · exact ((List.eraseIdx_sublist ..).map _).append_right _
  · exact identity
  · exact target
  · rfl
  · rfl

theorem commits {place : Nat} {held : PendingWrite} (found : before.pending[place]? = some held) :
    LocksHeld { commit before held with pending := before.pending.eraseIdx place } := by
  have fewer : (before.dispatches.map Dispatch.row ++
      (before.pending.eraseIdx place).filterMap PendingWrite.existing).Sublist
        before.lockedRows :=
    ((List.eraseIdx_sublist ..).filterMap _).append_left _
  cases updates : held.existing with
  | none =>
    simp only [commit, updates]
    apply locks.insert (held.job.row held.externalKey .active held.createdByUser)
    · intro id
      rfl
    · exact fewer
    · rfl
    · rfl
  | some existing =>
    simp only [commit, updates]
    apply locks.release (rewrite existing held.job)
    · exact lockedRows_releasePending found updates
    · exact fewer
    · intro row
      rfl
    · intro job selected
      exact beq_iff_eq.mp selected
    · rfl
    · rfl

theorem holds {held : PendingWrite} (holds : Holds platform before event held) : LocksHeld (before.hold held) := by
  have shared : ∀ created : PendingWrite, created.existing = none → LocksHeld (before.hold created) := by
    intro created inserts
    apply locks.shrink
    · simp [JobsState.lockedRows, JobsState.hold, inserts]
    · exact locks.unique
    · exact locks.bounded
    · intro row _ member
      exact member
  cases holds with
  | create | insert => exact shared _ rfl
  | update params localNow existing alone free planned =>
    have found := (upsertPlan_update planned).found
    have member := List.mem_of_find?_eq_some found
    have owned := List.find?_some found
    apply locks.lock member
    · intro held
      have skipped := (List.all_eq_true.mp free) existing member
      simp [owned, held] at skipped
    · simp only [JobsState.lockedRows, JobsState.hold, List.filterMap_append,
        List.filterMap_cons, List.filterMap_nil, ← List.append_assoc]
      exact List.perm_append_singleton ..
    · rfl
    · rfl

theorem step (stepped : jobsStep schedule platform before event = some after) : LocksHeld after := by
  cases jobsStep_effect stepped with
  | quiet jobs nextJobId _ dispatches pending =>
    apply locks.shrink
    · exact (dispatches.map _).append (pending.filterMap _)
    · rw [jobs]
      exact locks.unique
    · rw [jobs, nextJobId]
      exact locks.bounded
    · intro row _ member
      rw [jobs]
      exact member
  | staged params | created params =>
    exact locks.insert _ (fun _ => rfl) (List.Sublist.refl _) rfl rfl
  | held held holds => exact locks.holds holds
  | committed place held found => exact locks.commits found
  | edited statement edits free => exact locks.edit edits free
  | deleted organizationId id free => exact locks.delete free
  | locked candidate now row found free =>
    apply locks.lock (List.mem_of_find?_eq_some found) free
    · simp only [JobsState.lockedRows, List.map_append, List.map_cons, List.map_nil,
        List.append_assoc, List.singleton_append]
      exact List.perm_middle
    · rfl
    · rfl
  | expired place dispatch found =>
    apply locks.dispatchWrites found
    · intro row
      rfl
    · intro job selected
      simp only [pauseExpired, Bool.and_eq_true, beq_iff_eq] at selected
      exact selected.1
  | fired place localNow now asked dispatch found fresh alive known kept jobs nextJobId pending =>
    apply locks.shrink
    · rw [JobsState.lockedRows, JobsState.lockedRows, pending]
      rcases kept with same | released
      · have rows : after.dispatches.map Dispatch.row = before.dispatches.map Dispatch.row := by
          obtain ⟨bound, rfl⟩ := List.getElem?_eq_some_iff.mp found
          rw [same, List.map_set]
          exact List.ext_getElem (by simp) (by simp +contextual [List.getElem_set])
        rw [rows]
      · rw [released]
        exact ((List.eraseIdx_sublist ..).map _).append_right _
    · rw [jobs]
      exact locks.unique
    · rw [jobs, nextJobId]
      exact locks.bounded
    · intro row _ member
      rw [jobs]
      exact member
  | advanced place localNow now dispatch found nextAt =>
    apply locks.dispatchWrites found
    · intro row
      simp only [advance]
      split <;> rfl
    · intro job selected
      simp only [advance, Bool.and_eq_true, beq_iff_eq] at selected
      exact selected.1

end

theorem reachable {allowed : Discipline JobsState JobsEvent}
    (reached : (jobsMachine schedule platform).Reachable allowed state) : LocksHeld state := by
  apply reached.invariant
  · intro state begins
    obtain ⟨identities, jobs, nextJobId, rfl, unique, bounded⟩ := begins
    exact ⟨unique, bounded, List.nodup_nil, by simp [JobsState.lockedRows, JobsState.initial]⟩
  · intro before event after _ locks _ stepped
    exact locks.step stepped

end LocksHeld

end Lobu.Scheduled
