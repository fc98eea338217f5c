import Lobu.Foundation.Json
import Lobu.Foundation.Text

namespace Lobu.Courses

open Lobu.Foundation

/-! # Course selections parked in a session

A turn that could mean several courses is parked in its session until the user
picks one.  The session manager changes the record by compare and set.
-/

structure CourseCandidate where
  courseKey : String
  displayName : String
deriving DecidableEq

inductive PendingStatus where
  | pending
  | claimed
  | dispatched
deriving DecidableEq

structure PendingCourseSelection where
  pendingId : String
  version : Int
  status : PendingStatus
  ownerUserId : String
  agentId : String
  candidates : List CourseCandidate
  originalMessage : String
  createdAt : Int
  claimedAt : Option Int
  dispatchedAt : Option Int
  claimedCourseKey : Option String
  claimedMessageId : Option String

structure ActiveCourseBinding where
  courseKey : String
  courseEntityId : String
  source : String
  boundAt : Int
  contextPackId : String

structure ThreadSession where
  shifuCourseContext : Option ActiveCourseBinding
  pendingCourseSelection : Option PendingCourseSelection

def computeSessionKey (channelId conversationId : String) : String :=
  if "api-".toList.isPrefixOf channelId.toList || "api_".toList.isPrefixOf channelId.toList ||
      channelId = conversationId then
    conversationId
  else channelId ++ ":" ++ conversationId

/-! ## Mutations

Each is the function that `mutate` applies to the session under its lock, with
what the caller learns from it.
-/

/-- The guard that `claim`, `clear` and `mark` share. -/
def PendingCourseSelection.expected (current : PendingCourseSelection)
    (expectedPendingId ownerUserId agentId : String) : Bool :=
  decide (current.pendingId = expectedPendingId ∧ current.ownerUserId = ownerUserId ∧
    current.agentId = agentId)

structure PendingInput where
  ownerUserId : String
  agentId : String
  candidates : List CourseCandidate
  originalMessage : String
  createdAt : Int

def newPending (input : PendingInput) (pendingId : String) (now : Int) : PendingCourseSelection where
  pendingId := pendingId
  version := now
  status := .pending
  ownerUserId := input.ownerUserId
  agentId := input.agentId
  candidates := input.candidates
  originalMessage := input.originalMessage
  createdAt := input.createdAt
  claimedAt := none
  dispatchedAt := none
  claimedCourseKey := none
  claimedMessageId := none

def createPendingCourseSelection (input : PendingInput) (pendingId : String) (now : Int)
    (session : ThreadSession) : ThreadSession :=
  { session with pendingCourseSelection := some (newPending input pendingId now) }

inductive ClaimOutcome where
  | claimed (pending : PendingCourseSelection)
  | conflict

def PendingCourseSelection.claim (current : PendingCourseSelection) (courseKey messageId : String)
    (now : Int) : PendingCourseSelection :=
  { current with
    status := .claimed
    claimedAt := some now
    claimedCourseKey := some courseKey
    claimedMessageId := some messageId }

def claimPendingCourseSelection (expectedPendingId ownerUserId agentId courseKey messageId : String)
    (now : Int) (session : ThreadSession) : ClaimOutcome × ThreadSession :=
  match session.pendingCourseSelection with
  | none => (.conflict, session)
  | some current =>
    if !current.expected expectedPendingId ownerUserId agentId then (.conflict, session)
    else if current.status = .claimed then
      if current.claimedCourseKey = some courseKey ∧
          current.claimedMessageId = some messageId then (.claimed current, session)
      else (.conflict, session)
    else
      let claimed := current.claim courseKey messageId now
      (.claimed claimed, { session with pendingCourseSelection := some claimed })

/-- `true` for "cleared", `false` for "stale". -/
def clearPendingCourseSelection (expectedPendingId ownerUserId agentId : String)
    (messageId : Option String) (session : ThreadSession) : Bool × ThreadSession :=
  match session.pendingCourseSelection with
  | none => (false, session)
  | some current =>
    if !current.expected expectedPendingId ownerUserId agentId ||
        (messageId.any (· ≠ "") && decide (current.claimedMessageId ≠ messageId)) then
      (false, session)
    else (true, { session with pendingCourseSelection := none })

def PendingCourseSelection.dispatch (current : PendingCourseSelection) (now : Int) : PendingCourseSelection :=
  { current with
    status := .dispatched
    dispatchedAt := some now }

/-- `true` for "dispatched", `false` for "stale". -/
def markPendingCourseSelectionDispatched (expectedPendingId ownerUserId agentId messageId : String) (now : Int)
    (session : ThreadSession) : Bool × ThreadSession :=
  match session.pendingCourseSelection with
  | none => (false, session)
  | some current =>
    if !current.expected expectedPendingId ownerUserId agentId ||
        decide (current.claimedMessageId ≠ some messageId) then (false, session)
    else if current.status = .dispatched then (true, session)
    else if current.status ≠ .claimed then (false, session)
    else (true, { session with pendingCourseSelection := some (current.dispatch now) })

def bindActiveCourse (binding : ActiveCourseBinding) (session : ThreadSession) : ThreadSession :=
  { session with shifuCourseContext := some binding }

section Cases

variable {expectedPendingId ownerUserId agentId courseKey messageId : String} {now : Int}
variable {session after : ThreadSession}

@[simp] theorem expected_iff {current : PendingCourseSelection} :
    current.expected expectedPendingId ownerUserId agentId = true ↔
      current.pendingId = expectedPendingId ∧ current.ownerUserId = ownerUserId ∧ current.agentId = agentId := by
  simp [PendingCourseSelection.expected]

theorem claim_cases {outcome : ClaimOutcome}
    (claimed : claimPendingCourseSelection expectedPendingId ownerUserId agentId courseKey messageId
      now session = (outcome, after)) :
    outcome = .conflict ∧ after = session ∨
    ∃ current, session.pendingCourseSelection = some current ∧
      current.expected expectedPendingId ownerUserId agentId = true ∧
      (current.status = .claimed ∧ current.claimedMessageId = some messageId ∧
          outcome = .claimed current ∧ after = session ∨
        current.status ≠ .claimed ∧ outcome = .claimed (current.claim courseKey messageId now) ∧
          after = { session with
            pendingCourseSelection := some (current.claim courseKey messageId now) }) := by
  unfold claimPendingCourseSelection at claimed
  cases stored : session.pendingCourseSelection with
  | none =>
    simp only [stored] at claimed
    cases claimed
    exact .inl ⟨rfl, rfl⟩
  | some current =>
    simp only [stored] at claimed
    split at claimed
    · cases claimed
      exact .inl ⟨rfl, rfl⟩
    · rename_i mine
      have mine : current.expected expectedPendingId ownerUserId agentId = true := by
        simpa using mine
      split at claimed
      · rename_i held
        split at claimed
        · rename_i same
          cases claimed
          exact .inr ⟨current, rfl, mine, .inl ⟨held, same.2, rfl, rfl⟩⟩
        · cases claimed
          exact .inl ⟨rfl, rfl⟩
      · rename_i open_
        cases claimed
        exact .inr ⟨current, rfl, mine, .inr ⟨open_, rfl, rfl⟩⟩

theorem clear_cases {cleared : Bool} {claimant : Option String}
    (done : clearPendingCourseSelection expectedPendingId ownerUserId agentId claimant session = (cleared, after)) :
    cleared = false ∧ after = session ∨ ∃ current, session.pendingCourseSelection = some current ∧
      current.expected expectedPendingId ownerUserId agentId = true ∧ cleared = true ∧
      after = { session with pendingCourseSelection := none } := by
  unfold clearPendingCourseSelection at done
  cases stored : session.pendingCourseSelection with
  | none =>
    simp only [stored] at done
    cases done
    exact .inl ⟨rfl, rfl⟩
  | some current =>
    simp only [stored] at done
    split at done
    · cases done
      exact .inl ⟨rfl, rfl⟩
    · rename_i mine
      cases done
      simp only [Bool.or_eq_true, not_or, Bool.not_eq_true, Bool.not_eq_false'] at mine
      exact .inr ⟨current, rfl, mine.1, rfl, rfl⟩

theorem mark_cases {marked : Bool}
    (done : markPendingCourseSelectionDispatched expectedPendingId ownerUserId agentId messageId now
      session = (marked, after)) :
    marked = false ∧ after = session ∨ ∃ current, session.pendingCourseSelection = some current ∧
      current.expected expectedPendingId ownerUserId agentId = true ∧
      current.claimedMessageId = some messageId ∧ marked = true ∧ (after = session ∨ current.status = .claimed ∧
        after = { session with pendingCourseSelection := some (current.dispatch now) }) := by
  unfold markPendingCourseSelectionDispatched at done
  cases stored : session.pendingCourseSelection with
  | none =>
    simp only [stored] at done
    cases done
    exact .inl ⟨rfl, rfl⟩
  | some current =>
    simp only [stored] at done
    split at done
    · cases done
      exact .inl ⟨rfl, rfl⟩
    · rename_i mine
      simp only [Bool.or_eq_true, not_or, Bool.not_eq_true, Bool.not_eq_false',
        decide_eq_true_eq, not_not, ne_eq] at mine
      split at done
      · cases done
        exact .inr ⟨current, rfl, mine.1, mine.2, rfl, .inl rfl⟩
      · split at done
        · cases done
          exact .inl ⟨rfl, rfl⟩
        · rename_i held
          cases done
          exact .inr ⟨current, rfl, mine.1, mine.2, rfl, .inr ⟨not_not.mp held, rfl⟩⟩

end Cases

end Lobu.Courses
