import Lobu.Queue.Statement
import Lobu.Queue.Claims

namespace Lobu.Queue

open Lobu.Foundation

/-! # How often a row can be claimed

A claim takes a pending row, so a row is claimed once more only after some
statement has put it back to pending.
-/

variable {P : Type} {before after : QueueState P} {event : QueueEvent P} {returns : Nat → Nat}
variable {execution next : Execution P}

def wentBack (before after : List (Run P)) (runId : Nat) : Bool :=
  (before.any fun row => row.id == runId && row.status != .pending) &&
    after.any fun row => row.id == runId && row.status == .pending

/-- Count one more return for each row that a step put back. -/
def returnsAfter (returns : Nat → Nat) (before after : List (Run P)) : Nat → Nat := fun runId =>
  if wentBack before after runId then returns runId + 1 else returns runId

theorem le_returnsAfter (returns : Nat → Nat) (before after : List (Run P)) (runId : Nat) :
    returns runId ≤ returnsAfter returns before after runId := by
  rw [returnsAfter]
  split <;> omega

theorem wentBack_of_mem {before after : List (Run P)} {old row : Run P} (oldMember : old ∈ before)
    (left : old.status ≠ .pending) (member : row ∈ after) (pending : row.status = .pending)
    (same : row.id = old.id) : wentBack before after row.id = true := by
  simp only [wentBack, Bool.and_eq_true, List.any_eq_true, beq_iff_eq, bne_iff_ne]
  exact ⟨⟨old, oldMember, same.symm, left⟩, row, member, rfl, pending⟩

structure ClaimsBounded (state : QueueState P) (returns : Nat → Nat) : Prop where
  total : ∀ runId, state.claims runId ≤ returns runId + 1
  pending : ∀ row ∈ state.runs, row.status = .pending → state.claims row.id ≤ returns row.id
  fresh : ∀ runId, state.nextId ≤ runId → state.claims runId = 0
  below : ∀ row ∈ state.runs, row.id < state.nextId

theorem ClaimsBounded.initial (identities : List String) :
    ClaimsBounded (P := P) (QueueState.initial identities) fun _ => 0 where
  total _ := Nat.zero_le _
  pending _ member := absurd member List.not_mem_nil
  fresh _ _ := rfl
  below _ member := absurd member List.not_mem_nil

/-- A statement that claims nothing: a row it leaves pending was pending or has
just been put back. -/
theorem ClaimsBounded.update (bounded : ClaimsBounded before returns)
    {statement : RowUpdate (Run P)} (kept : ∀ row, (statement.sets row).id = row.id)
    (runs : after.runs = statement.run before.runs) (nextId : after.nextId = before.nextId)
    (claims : after.claims = before.claims) : ClaimsBounded after (returnsAfter returns before.runs after.runs) where
  total runId := by
    have held := bounded.total runId
    have more := le_returnsAfter returns before.runs after.runs runId
    rw [claims]
    omega
  pending row member pending := by
    have updated := member
    rw [runs, RowUpdate.mem_run] at updated
    obtain ⟨old, oldMember, rfl⟩ := updated
    have same : (statement.onRow old).id = old.id := statement.onRow_column Run.id kept old
    have more := le_returnsAfter returns before.runs after.runs old.id
    by_cases waiting : old.status = .pending
    · have held := bounded.pending old oldMember waiting
      rw [claims, same]
      omega
    · have back := wentBack_of_mem oldMember waiting member pending same
      have held := bounded.total old.id
      rw [same] at back
      rw [claims, same, returnsAfter, if_pos back]
      exact held
  fresh runId above := by
    rw [claims]
    exact bounded.fresh runId (nextId ▸ above)
  below := by
    rw [runs, nextId]
    exact RowUpdate.forall_run Run.id (· < _) kept bounded.below

theorem ClaimsBounded.same (bounded : ClaimsBounded before returns)
    (runs : after.runs = before.runs) (nextId : after.nextId = before.nextId)
    (claims : after.claims = before.claims) : ClaimsBounded after (returnsAfter returns before.runs after.runs) := by
  have nothing : after.runs = RowUpdate.run ⟨fun _ => false, id⟩ before.runs := runs.trans (List.map_id _).symm
  exact bounded.update (fun _ => rfl) nothing nextId claims

theorem ClaimsBounded.insert (bounded : ClaimsBounded before returns) {request : SendRequest P}
    {now : Instant} (runs : after.runs = before.runs ++ [request.row before.nextId now])
    (nextId : after.nextId = before.nextId + 1) (claims : after.claims = before.claims) :
    ClaimsBounded after (returnsAfter returns before.runs after.runs) where
  total runId := by
    have held := bounded.total runId
    have more := le_returnsAfter returns before.runs after.runs runId
    rw [claims]
    omega
  pending row member pending := by
    have more := le_returnsAfter returns before.runs after.runs row.id
    rw [claims]
    rw [runs, List.mem_append, List.mem_singleton] at member
    rcases member with old | rfl
    · have held := bounded.pending row old pending
      omega
    · have unclaimed := bounded.fresh before.nextId (Nat.le_refl _)
      have same : (request.row before.nextId now).id = before.nextId := rfl
      rw [same, unclaimed]
      exact Nat.zero_le _
  fresh runId above := by
    rw [claims]
    exact bounded.fresh runId (by omega)
  below := by
    rw [runs, nextId]
    exact below_append_drawn bounded.below rfl

theorem ClaimsBounded.claim (bounded : ClaimsBounded before returns) {identity : String}
    {row : Run P} {now : Instant} (waiting : row.status = .pending) (member : row ∈ before.runs)
    (runs : after.runs = (claimRun identity row.id now).run before.runs) (nextId : after.nextId = before.nextId)
    (counted : after.claims row.id = before.claims row.id + 1)
    (others : ∀ id, id ≠ row.id → after.claims id = before.claims id) :
    ClaimsBounded after (returnsAfter returns before.runs after.runs) where
  total runId := by
    have more := le_returnsAfter returns before.runs after.runs runId
    by_cases same : runId = row.id
    · have held := bounded.pending row member waiting
      rw [same] at more ⊢
      omega
    · have held := bounded.total runId
      rw [others runId same]
      omega
  pending current currentMember pending := by
    rw [runs, RowUpdate.mem_run] at currentMember
    obtain ⟨old, oldMember, rfl⟩ := currentMember
    by_cases same : old.id = row.id
    · rw [RowUpdate.onRow_selected (by simp [claimRun, same])] at pending
      cases pending
    · rw [RowUpdate.onRow_skipped (by simp [claimRun, same])] at pending ⊢
      have held := bounded.pending old oldMember pending
      have more := le_returnsAfter returns before.runs after.runs old.id
      rw [others old.id same]
      omega
  fresh runId above := by
    have lower := bounded.below row member
    rw [others runId (by omega)]
    exact bounded.fresh runId (nextId ▸ above)
  below := by
    rw [runs, nextId]
    exact RowUpdate.forall_run Run.id (· < _) (fun _ => rfl) bounded.below

theorem Effect.claimsBounded (effect : Effect before event after) (bounded : ClaimsBounded before returns) :
    ClaimsBounded after (returnsAfter returns before.runs after.runs) := by
  cases effect with
  | quiet runs nextId _ claims => exact bounded.same runs nextId claims
  | inserted request now _ runs nextId _ claims => exact bounded.insert runs nextId claims
  | released statement releases runs nextId _ claims =>
    exact bounded.update releases.keeps_id runs nextId claims
  | claimed identity row now execution _ waiting member _ runs nextId _ counted others =>
    exact bounded.claim waiting member runs nextId counted others
  | progressed index execution next _ _ runs nextId _ claims => exact bounded.same runs nextId claims
  | wrote index execution next records statement _ _ writes _ runs nextId _ claims =>
    exact bounded.update writes.keeps_id runs nextId claims

theorem ClaimsBounded.cleanup (bounded : ClaimsBounded before returns) (cleanup : RunsCleanup) :
    ClaimsBounded { before with runs := cleanup.run before.runs } returns where
  total := bounded.total
  pending row member := bounded.pending row (List.mem_of_mem_filter member)
  fresh := bounded.fresh
  below row member := bounded.below row (List.mem_of_mem_filter member)

/-- Every claim of a row has started one call. -/
def ClaimsCounted (state : QueueState P) : Prop :=
  ∀ runId, state.executions.countP (fun execution => execution.claimed.runId == runId) =
    state.claims runId

theorem countP_set_advanced {executions : List (Execution P)} {index : Nat}
    (found : executions[index]? = some execution) (advances : execution.Advances next) (property : Claimed P → Bool) :
    (executions.set index next).countP (fun execution => property execution.claimed) =
      executions.countP fun execution => property execution.claimed := by
  obtain ⟨bound, same⟩ := List.getElem?_eq_some_iff.mp found
  rw [List.countP_set bound, same, advances.claimed]
  have positive : property execution.claimed = true →
      0 < executions.countP fun execution => property execution.claimed := fun holds =>
    List.countP_pos_iff.mpr ⟨execution, List.mem_of_getElem? found, holds⟩
  split
  · rename_i holds
    have some_ := positive holds
    omega
  · omega

theorem Effect.claimsCounted (effect : Effect before event after)
    (counted : ClaimsCounted before) : ClaimsCounted after := by
  intro runId
  have held := counted runId
  cases effect with
  | quiet _ _ executions claims => rw [executions, claims, held]
  | inserted _ _ _ _ _ executions claims => rw [executions, claims, held]
  | released _ _ _ _ executions claims => rw [executions, claims, held]
  | claimed identity row now execution _ _ _ started _ _ executions one others =>
    rw [executions, List.countP_append, held, List.countP_singleton, started.2.1]
    by_cases same : runId = row.id
    · subst same
      simp [one]
    · simp [others runId same, Ne.symm same]
  | progressed index execution next found advances _ _ executions claims =>
    rw [executions, claims, countP_set_advanced found advances fun claimed => claimed.runId == runId, held]
  | wrote index execution next _ _ found advances _ _ _ _ executions claims =>
    rw [executions, claims, countP_set_advanced found advances fun claimed => claimed.runId == runId, held]

theorem Effect.call_kept (effect : Effect before event after) {place : Nat}
    (found : before.executions[place]? = some execution) :
    ∃ later, after.executions[place]? = some later ∧ later.claimed = execution.claimed := by
  have replaced {index : Nat} {call next : Execution P}
      (stands : before.executions[index]? = some call) (advances : call.Advances next)
      (executions : after.executions = before.executions.set index next) :
      ∃ later, after.executions[place]? = some later ∧ later.claimed = execution.claimed := by
    rw [executions, List.getElem?_set]
    split
    · rename_i same
      subst same
      rw [stands] at found
      cases found
      obtain ⟨bound, _⟩ := List.getElem?_eq_some_iff.mp stands
      exact ⟨next, if_pos bound, advances.claimed⟩
    · exact ⟨execution, found, rfl⟩
  cases effect with
  | quiet _ _ executions => exact ⟨execution, executions ▸ found, rfl⟩
  | inserted _ _ _ _ _ executions => exact ⟨execution, executions ▸ found, rfl⟩
  | released _ _ _ _ executions => exact ⟨execution, executions ▸ found, rfl⟩
  | claimed _ _ _ _ _ _ _ _ _ _ executions =>
    refine ⟨execution, ?_, rfl⟩
    obtain ⟨bound, _⟩ := List.getElem?_eq_some_iff.mp found
    rw [executions, List.getElem?_append_left bound]
    exact found
  | progressed index call next stands advances _ _ executions =>
    exact replaced stands advances executions
  | wrote index call next _ _ stands advances _ _ _ _ executions =>
    exact replaced stands advances executions

end Lobu.Queue
