import Lobu.Courses.Session
import Lobu.Courses.Toolbox
import Lobu.Foundation.Process

namespace Lobu.Courses

open Lobu.Foundation

/-! # Messages and the contexts they carry -/

inductive CourseReadinessField where
  | audience
  | keyLearning
  | coursePromise
  | existingSalesTalk
deriving DecidableEq

inductive RetrievalStatus where
  | loaded
  | empty
  | degraded
  | invariantViolation
deriving DecidableEq

inductive EvidenceKind where
  | meeting
  | transcript
deriving DecidableEq

structure Snippet where
  eventId : Int
  title : Option String
  text : String
  sourceUrl : Option String
  sourceRef : String
  courseEntityId : String
  readinessFields : List (CourseReadinessField × String)
  trustedEvidenceKind : Option EvidenceKind
deriving DecidableEq

structure CourseMemoryRetrieval where
  status : RetrievalStatus
  /-- `crossCourseGuard` is "passed". -/
  guardPassed : Bool
  candidateCount : Nat
  safeCount : Nat
  droppedCount : Nat
  durationMs : Int
  eventIds : List Int
  evidenceRefs : List String
  snippets : List Snippet
deriving DecidableEq

structure Trust where
  ownerUserId : String
  agentId : String
  conversationId : String
  courseKey : String
  courseEntityId : String
  contextPackId : String
  contextVersion : Int
deriving DecidableEq

structure ContextSummary where
  contextPackId : String
  contextVersion : Int
  stale : Bool
  confirmedSummary : String
deriving DecidableEq

inductive ReadinessLevel where
  | ready
  | partly
  | minimal
  | conflicted
deriving DecidableEq

inductive AnswerPolicy where
  | answer
  | answerWithAssumptions
  | answerConservatively
deriving DecidableEq

structure CourseReadinessAssessment where
  level : ReadinessLevel
  answerPolicy : AnswerPolicy
  availableFields : List CourseReadinessField
  missingFields : List CourseReadinessField
  suggestedQuestions : List String
deriving DecidableEq

structure EvidenceProvenance where
  kind : String
  fields : List CourseReadinessField
  sourceLabel : String
  sourceHash : String
deriving DecidableEq

structure ResolvedCourseExecutionContext where
  /-- `activeSpecializedSkill` is "opp-coach". -/
  specialized : Bool
  trust : Trust
  course : Course
  matchedBy : String
  context : ContextSummary
  retrieval : CourseMemoryRetrieval
  readiness : Option CourseReadinessAssessment
  evidence : List EvidenceProvenance
deriving DecidableEq

structure ScheduledCourse where
  ownerUserId : String
  agentId : String
  courseKey : String
  courseEntityId : String
  displayName : String
deriving DecidableEq

structure ScheduledCourseContext where
  schemaVersion : Int
  source : String
  automationId : String
  jobId : String
  runId : Int
  taskKind : String
  course : ScheduledCourse
  /-- `evidenceReadiness` is "same_course_evidence". -/
  sameCourseEvidence : Bool
deriving DecidableEq

structure MessagePayload where
  userId : String
  agentId : String
  conversationId : String
  channelId : String
  messageId : String
  organizationId : Option String
  /-- None where the text is not a string. -/
  messageText : Option String
  /-- The selection whose parked text the message has been given. -/
  parkedFrom : Option String
  /-- `platformMetadata.courseScope` is "reviewed". -/
  reviewedScope : Bool
  courseContextBinding : Option Bool
  scheduledCourseContext : Option ScheduledCourseContext
  resolvedCourseContext : Option ResolvedCourseExecutionContext

def MessagePayload.sessionKey (data : MessagePayload) : String :=
  computeSessionKey data.channelId data.conversationId

structure ResolveInput where
  ownerUserId : String
  agentId : String
  conversationId : String
  message : String
  boundCourseKey : Option String
  explicitCourseKey : Option String

structure SearchInput where
  organizationId : String
  ownerUserId : String
  agentId : String
  entityIds : List String
  query : String
  limit : Nat

structure ScheduledTrace where
  runId : Int
  conversationId : String
  bindingCourseEntityId : Option String
  courseEntityId : String
  contextVersion : Int
  sameCourseEvidence : Bool

inductive CourseRequest where
  | now
  | getSessionStrict (sessionKey : String)
  | createPending (sessionKey : String) (input : PendingInput)
  | claimPending (sessionKey expectedPendingId ownerUserId agentId courseKey messageId : String)
  | clearPending (sessionKey expectedPendingId ownerUserId agentId : String)
      (messageId : Option String)
  | markDispatched (sessionKey expectedPendingId ownerUserId agentId messageId : String)
  | bindActiveCourse (sessionKey : String) (binding : ActiveCourseBinding)
  | resolve (input : ResolveInput)
  | bundle (courseKey ownerUserId agentId : String)
  | search (input : SearchInput)
  | recordTrace (trace : ScheduledTrace)
  | sendToWorkerQueue (data : MessagePayload)
  -- others open a session anew, or delete it
  | replaceSession (sessionKey : String) (session : Option ThreadSession)

/-- The session that was read, and the time at which its reader goes on. -/
structure LoadedSession where
  session : Option ThreadSession
  now : Int

/-- What became of a mutation; none where it failed. -/
abbrev Answer : CourseRequest → Type
  | .now => Int
  | .getSessionStrict _ => Option LoadedSession
  | .createPending .. => Option PendingCourseSelection
  | .claimPending .. => Option ClaimOutcome
  | .clearPending .. => Option Bool
  | .markDispatched .. => Option Bool
  | .bindActiveCourse .. => Bool
  | .resolve _ => Option Json
  | .bundle .. => Option Json
  | .search _ => Option Json
  | .recordTrace _ => Bool
  | .sendToWorkerQueue _ => Bool
  | .replaceSession .. => Unit

abbrev CourseProcess := Process CourseRequest Answer

/-- What a process asks before it goes on. -/
abbrev CourseProcess.of (request : CourseRequest) : CourseProcess (Answer request) :=
  Process.answerTo request

/-- What has been asked and answered, the latest first. -/
abbrev CourseDialogue := List (Exchange Answer)

end Lobu.Courses
