import Lobu.Courses.Retrieval

namespace Lobu.Courses

open Lobu.Foundation

/-! # The course context gate

It decides for each message whether the turn needs a course, and attaches the
context of that course to the message.  The stages stand in the order in which
they are left: each ends with the next, the last one first.
-/

structure CourseContextGateOptions where
  /-- None without a session manager. -/
  sessionKey : Option String
  /-- `activeSpecializedSkill` is "opp-coach". -/
  specialized : Bool
  courseSkillContextFields : List String
  courseSkillRetrievalTerms : List String
  courseSkillRetrievalLimit : Option JsNumber
  memorySearch : Bool
  recordsTrace : Bool
  /-- Toolbox has an address and a secret. -/
  configured : Bool
  propagateInfrastructureErrors : Bool

structure Replay where
  pendingId : String
  messageId : String
deriving DecidableEq

inductive CourseContextGateResult where
  | notRequired
  | alreadyDispatched
  | onboardingReady (ownerUserId agentId conversationId : String)
  | ready (context : ResolvedCourseExecutionContext) (bindingPersisted : Option Bool)
      (replay : Option Replay)
  | clarificationRequired (candidates : List CourseCandidate)
  | contextUnavailable (reasonCode : String) (displayName : Option String)
      (resolvedCourse : Option Course)
  /-- An exception leaves the gate. -/
  | thrown
deriving DecidableEq

/-- The result, and the message as the gate leaves it. -/
abbrev Gate := CourseProcess (CourseContextGateResult × MessagePayload)

def unavailable (data : MessagePayload) (reasonCode : String) : Gate :=
  pure (.contextUnavailable reasonCode none none, data)

/-- What the regular expressions of the gate find in a text. -/
structure TurnReading where
  orderQuery : String → Bool
  personalReminder : String → Bool
  courseIntent : String → Bool
  statusIntent : String → Bool
  continuation : String → Bool

def plainReading : TurnReading where
  orderQuery _ := false
  personalReminder _ := false
  courseIntent text := text = "sales talk"
  statusIntent _ := false
  continuation _ := false

def MessagePayload.text (data : MessagePayload) : String := (data.messageText.map trimmed).getD ""

section Reading

variable (reading : TurnReading)

def isExplicitOrderDataBypass (data : MessagePayload) : Bool := reading.orderQuery data.text

def isExplicitPersonalBypass (data : MessagePayload) : Bool :=
  reading.personalReminder data.text && !reading.courseIntent data.text

def decideCourseTurn (data : MessagePayload) (hasActiveCourse : Bool) : Bool :=
  if isExplicitOrderDataBypass reading data then false
  else if isExplicitPersonalBypass reading data then false
  else data.reviewedScope || reading.courseIntent data.text || reading.statusIntent data.text ||
    (hasActiveCourse && reading.continuation data.text)

end Reading

def scheduledTaskKinds : List String :=
  ["opp_coach_rehearsal_prompt", "opp_coach_practice_prompt", "opp_coach_event_prompt"]

def validScheduledCourseContext (data : MessagePayload) : Option ScheduledCourseContext :=
  data.scheduledCourseContext.filter fun scheduled =>
    scheduled.schemaVersion = 1 && scheduled.source = "calendar_scheduled_wake" &&
    scheduled.automationId ≠ "" && scheduled.jobId ≠ "" &&
    (isSafeInteger (.finite scheduled.runId)).isSome && 0 < scheduled.runId &&
    scheduledTaskKinds.contains scheduled.taskKind &&
    scheduled.course.ownerUserId = data.userId && scheduled.course.agentId = data.agentId &&
    scheduled.course.courseKey ≠ "" && scheduled.course.courseEntityId ≠ "" &&
    scheduled.course.displayName ≠ ""

def readinessOrder : List CourseReadinessField :=
  [.audience, .keyLearning, .coursePromise, .existingSalesTalk]

def conflictQuestion : CourseReadinessField → String
  | .audience => "課程受眾資料有衝突，請確認應以哪一個版本為準？"
  | .keyLearning => "核心學習成果資料有衝突，請確認應以哪一個版本為準？"
  | .coursePromise => "課程承諾資料有衝突，請確認應以哪一個版本為準？"
  | .existingSalesTalk => "既有銷講資料有衝突，請確認應以哪一個版本為準？"

def missingQuestion : CourseReadinessField → String
  | .audience => "這門課最優先服務哪一類學員？"
  | .keyLearning => "學員完成課程後最重要的學習成果是什麼？"
  | .coursePromise => "這門課對學員承諾的具體改變是什麼？"
  | .existingSalesTalk => "目前是否已有招生文案、銷講或常用說法可參考？"

def gradeCourseEvidenceReadiness (values : List (CourseReadinessField × String)) : CourseReadinessAssessment :=
  let available := readinessOrder.filter fun name =>
    (values.lookup name).any (trimmed · ≠ "")
  let missing := readinessOrder.filter (!available.contains ·)
  let level : ReadinessLevel :=
    if available.length = readinessOrder.length then .ready
    else if 2 ≤ available.length then .partly else .minimal
  let policy : AnswerPolicy := match level with
    | .ready => .answer
    | .partly => .answerWithAssumptions
    | _ => .answerConservatively
  { level := level, answerPolicy := policy, availableFields := available, missingFields := missing,
    suggestedQuestions := (missing.take 3).map missingQuestion }

def canonicalValue (profile : Profile) : CourseReadinessField → Option String
  | .audience => profile.audience
  | .coursePromise => profile.coursePromise
  | _ => none

def retrievedValues (retrieval : CourseMemoryRetrieval) (name : CourseReadinessField) : List String :=
  distinct ((retrieval.snippets.filterMap fun snippet =>
    (snippet.readinessFields.lookup name).map trimmed).filter (· ≠ ""))

/-- The value of a field where there is one, and whether the sources disagree. -/
def mergeField (profile : Profile) (retrieval : CourseMemoryRetrieval)
    (name : CourseReadinessField) : Option String × Bool :=
  let retrieved := retrievedValues retrieval name
  match (canonicalValue profile name).map trimmed with
  | none => (if retrieved.length = 1 then retrieved.head? else none, 1 < retrieved.length)
  | some "" => (if retrieved.length = 1 then retrieved.head? else none, 1 < retrieved.length)
  | some canonical => (some canonical, retrieved.any (· ≠ canonical))

structure MergedReadiness where
  assessment : CourseReadinessAssessment
  retrievedFields : List CourseReadinessField

def mergeReadiness (profile : Profile) (retrieval : CourseMemoryRetrieval) : MergedReadiness :=
  let values := readinessOrder.filterMap fun name =>
    (mergeField profile retrieval name).1.map fun value => (name, value)
  let conflicted := readinessOrder.filter fun name => (mergeField profile retrieval name).2
  let graded := gradeCourseEvidenceReadiness values
  let assessment := if conflicted = [] then graded else
    { graded with
      level := .conflicted,
      answerPolicy := .answerConservatively,
      suggestedQuestions :=
        (conflicted.map conflictQuestion ++ graded.suggestedQuestions).take 3 }
  { assessment := assessment,
    retrievedFields := readinessOrder.filter fun name => retrievedValues retrieval name ≠ [] }

def structuredContextFields : List String :=
  ["audience", "dream_result", "course_promise", "key_learning", "delivery_mechanism", "evidence",
    "offer"]

def evidenceLine (item : EvidenceRef) : String :=
  let title := slice (item.sourceTitle.getD item.sourceId) 200
  let preview := (item.excerptPreview.map (slice · 500)).getD ""
  "- " ++ slice item.id 200 ++ " | " ++ title ++ (if preview = "" then "" else " | " ++ preview)

def contextLines (bundle : Bundle) (name : String) : List String :=
  if name = "audience" then ["audience: " ++ bundle.profile.audience.getD "[missing]"]
  else if name = "course_promise" then
    ["course_promise: " ++ bundle.profile.coursePromise.getD "[missing]"]
  else if name = "evidence" then
    "evidence:" :: if bundle.confirmed = [] then ["- [missing]"]
      else (bundle.confirmed.take 8).map evidenceLine
  else [name ++ ": [missing]"]

def projectRequiredCourseContext (bundle : Bundle) (names : List String) : String :=
  let lines := "Required course context (canonical structured fields only):" ::
    (names.filter structuredContextFields.contains).flatMap (contextLines bundle)
  slice ("\n".intercalate lines) 8000

def CourseMemoryRetrieval.sameCourseEvidence (retrieval : CourseMemoryRetrieval) : Bool :=
  retrieval.status = .loaded && retrieval.guardPassed &&
    retrieval.snippets.any (·.trustedEvidenceKind.isSome)

def noRetrieval : CourseMemoryRetrieval := emptyRetrieval .degraded true 0 0 0

section Stages

variable (platform : Platform)

/-- The organization whose memory is searched; none without a search. -/
def searchedOrganization (data : MessagePayload) (options : CourseContextGateOptions) : Option String :=
  if options.memorySearch then data.organizationId.filter (· ≠ "") else none

def retrievalInput (data : MessagePayload) (options : CourseContextGateOptions)
    (specializedActive : Bool) (courseEntityId organizationId : String) : CourseMemoryRetrievalInput where
  organizationId := organizationId
  ownerUserId := data.userId
  agentId := data.agentId
  courseEntityId := courseEntityId
  task := data.messageText
  skillTerms := if specializedActive then options.courseSkillRetrievalTerms else []
  limit := if specializedActive then options.courseSkillRetrievalLimit else none

/-- The memory search, or what stands in for it where there is none. -/
def gateRetrieval (data : MessagePayload) (options : CourseContextGateOptions)
    (specializedActive : Bool) (courseEntityId : String) (fallback : CourseMemoryRetrieval) :
    CourseProcess CourseMemoryRetrieval :=
  match searchedOrganization data options with
  | some organizationId =>
    retrieveCourseMemory platform
      (retrievalInput data options specializedActive courseEntityId organizationId)
  | none => pure fallback

/-- `recordScheduledExecutionTrace`, where there is one; what it throws leaves the gate. -/
def recordTrace (options : CourseContextGateOptions) (trace : ScheduledTrace)
    (data : MessagePayload) (result : CourseContextGateResult) : Gate :=
  if options.recordsTrace then do
    match ← CourseProcess.of (.recordTrace trace) with
    | true => pure (result, data)
    | false => pure (.thrown, data)
  else pure (result, data)

def evidenceOf (bundle : Bundle) (course : Course) (merged : MergedReadiness)
    (retrieval : CourseMemoryRetrieval) : List EvidenceProvenance :=
  let hash (value : String) := String.ofList ((platform.sha256 value).toList.take 16)
  let canonical : EvidenceProvenance :=
    { kind := "canonical_context"
      fields := [CourseReadinessField.audience, .coursePromise].filter fun name =>
        (canonicalValue bundle.profile name).any (· ≠ "")
      sourceLabel := "已驗證的課程脈絡"
      sourceHash := hash (course.courseEntityId ++ ":" ++ bundle.context.contextPackId) }
  let fresh : EvidenceProvenance :=
    { kind := "fresh_course_retrieval"
      fields := merged.retrievedFields
      sourceLabel := "本次課程限定檢索"
      sourceHash := hash ("|".intercalate retrieval.evidenceRefs) }
  canonical :: if merged.retrievedFields = [] then [] else [fresh]

def resolvedContext (data : MessagePayload) (options : CourseContextGateOptions)
    (specializedActive : Bool) (matchedBy : String) (course : Course) (bundle : Bundle)
    (retrieval : CourseMemoryRetrieval) : ResolvedCourseExecutionContext :=
  let merged := mergeReadiness bundle.profile retrieval
  { specialized := specializedActive
    trust :=
      { ownerUserId := data.userId
        agentId := data.agentId
        conversationId := data.conversationId
        courseKey := course.courseKey
        courseEntityId := course.courseEntityId
        contextPackId := bundle.context.contextPackId
        contextVersion := bundle.context.version }
    course := course
    matchedBy := matchedBy
    context :=
      { contextPackId := bundle.context.contextPackId
        contextVersion := bundle.context.version
        stale := bundle.context.stale
        confirmedSummary :=
          if specializedActive && !options.courseSkillContextFields.isEmpty then
            projectRequiredCourseContext bundle options.courseSkillContextFields
          else slice bundle.context.agentMd 8000 }
    retrieval := retrieval
    readiness := if specializedActive then some merged.assessment else none
    evidence := if specializedActive then evidenceOf platform bundle course merged retrieval
      else [] }

def bindingOf (course : Course) (bundle : Bundle) (now : Int) : ActiveCourseBinding where
  courseKey := course.courseKey
  courseEntityId := course.courseEntityId
  source := "resolver"
  boundAt := now
  contextPackId := bundle.context.contextPackId

/-- Attach the context to the message and bind the session to its course. -/
def attachResolved (data : MessagePayload) (options : CourseContextGateOptions)
    (scheduled : Option ScheduledCourseContext) (boundCourseEntityId : Option String)
    (matchedBy : String) (course : Course) (bundle : Bundle) (replay : Option Replay)
    (retrieval : CourseMemoryRetrieval) : Gate :=
  let context := resolvedContext platform data options
    (scheduled.isSome || options.specialized) matchedBy course bundle retrieval
  let attached := { data with resolvedCourseContext := some context }
  match scheduled with
  | some wake =>
    let graded := { wake with sameCourseEvidence := retrieval.sameCourseEvidence }
    recordTrace options
      { runId := wake.runId
        conversationId := data.conversationId
        bindingCourseEntityId := boundCourseEntityId
        courseEntityId := wake.course.courseEntityId
        contextVersion := context.context.contextVersion
        sameCourseEvidence := retrieval.sameCourseEvidence }
      { attached with scheduledCourseContext := some graded } (.ready context none none)
  | none =>
    match options.sessionKey with
    | none => pure (.ready context none none, attached)
    | some sessionKey => do
        let now ← CourseProcess.of .now
        let persisted ←
          CourseProcess.of (.bindActiveCourse sessionKey (bindingOf course bundle now))
        pure (.ready context (some persisted) replay,
          { attached with courseContextBinding := some persisted })

def loadBundle (data : MessagePayload) (options : CourseContextGateOptions)
    (scheduled : Option ScheduledCourseContext) (boundCourseEntityId : Option String)
    (matchedBy : String) (course : Course) (replay : Option Replay) : Gate := do
  let body ← CourseProcess.of (.bundle course.courseKey data.userId data.agentId)
  match body.bind parseBundle with
  | none =>
    if options.propagateInfrastructureErrors then pure (.thrown, data)
    else pure (.contextUnavailable "bundle_unavailable" (some course.displayName) (some course),
      data)
  | some bundle =>
    if bundle.course.courseKey ≠ course.courseKey ∨
        bundle.course.courseEntityId ≠ course.courseEntityId then
      pure (.contextUnavailable "bundle_identity_mismatch" (some course.displayName) none, data)
    else do
      let retrieval ← gateRetrieval platform data options
        (scheduled.isSome || options.specialized) course.courseEntityId noRetrieval
      attachResolved platform data options scheduled boundCourseEntityId matchedBy course bundle
        replay retrieval

def pendingInput (data : MessagePayload) (candidates : List CourseCandidate) (createdAt : Int) : PendingInput where
  ownerUserId := data.userId
  agentId := data.agentId
  candidates := candidates
  originalMessage := slice (data.messageText.getD "") 8000
  createdAt := createdAt

/-- Park the message until the user has picked a course. -/
def askForCourse (data : MessagePayload) (options : CourseContextGateOptions)
    (candidates : List CourseCandidate) : Gate :=
  match options.sessionKey with
  | none => pure (.clarificationRequired candidates, data)
  | some sessionKey => do
      let createdAt ← CourseProcess.of .now
      let created ←
        CourseProcess.of (.createPending sessionKey (pendingInput data candidates createdAt))
      match created with
      | none => unavailable data "pending_write_failed"
      | some _ => pure (.clarificationRequired candidates, data)

def Course.candidate (course : Course) : CourseCandidate := ⟨course.courseKey, course.displayName⟩

def useResolution (data : MessagePayload) (options : CourseContextGateOptions)
    (scheduled : Option ScheduledCourseContext) (boundCourseEntityId : Option String)
    (replay : Option Replay) (resolution : Resolution) : Gate :=
  match resolution, scheduled with
  | .ambiguous _ candidates, _ => askForCourse data options (candidates.map Course.candidate)
  | .missing _, some wake =>
    pure (.contextUnavailable "scheduled_course_mapping_changed" (some wake.course.displayName)
      none, data)
  | .missing true, none =>
    pure (.onboardingReady data.userId data.agentId data.conversationId, data)
  | .missing false, none => unavailable data "archived_only"
  | .resolved matchedBy course, some wake =>
    if course.courseKey ≠ wake.course.courseKey ∨
        course.courseEntityId ≠ wake.course.courseEntityId then
      pure (.contextUnavailable "scheduled_course_mapping_changed"
        (some wake.course.displayName) none, data)
    else loadBundle platform data options scheduled boundCourseEntityId matchedBy course replay
  | .resolved matchedBy course, none =>
    loadBundle platform data options scheduled boundCourseEntityId matchedBy course replay

def resolveCourse (data : MessagePayload) (options : CourseContextGateOptions)
    (scheduled : Option ScheduledCourseContext) (session : Option ThreadSession)
    (boundCourseEntityId : Option String) (choice : Option CourseCandidate)
    (replay : Option Replay) : Gate := do
  let explicitCourseKey := match scheduled with
    | some wake => some wake.course.courseKey
    | none => choice.map CourseCandidate.courseKey
  let bound := (session.bind ThreadSession.shifuCourseContext).map ActiveCourseBinding.courseKey
  let body ← CourseProcess.of (.resolve
    { ownerUserId := data.userId
      agentId := data.agentId
      conversationId := data.conversationId
      message := data.messageText.getD ""
      boundCourseKey := if scheduled.isSome then none else bound
      explicitCourseKey := explicitCourseKey })
  match body.bind parseResolution with
  | none =>
    if options.propagateInfrastructureErrors then pure (.thrown, data)
    else unavailable data "resolver_unavailable"
  | some resolution =>
    useResolution platform data options scheduled boundCourseEntityId replay resolution

/-- The message goes on with the text that was parked. -/
def MessagePayload.withParked (data : MessagePayload) (pending : PendingCourseSelection) : MessagePayload :=
  { data with messageText := some pending.originalMessage, parkedFrom := some pending.pendingId }

/-- Claim the selection that the message has picked a course of. -/
def claimSelection (data : MessagePayload) (options : CourseContextGateOptions)
    (session : Option ThreadSession) (pending : PendingCourseSelection) (choice : CourseCandidate) : Gate :=
  let replay : Replay := { pendingId := pending.pendingId, messageId := data.messageId }
  let parked := data.withParked pending
  match pending.status, options.sessionKey with
  | .pending, some sessionKey => do
      let claimed ← CourseProcess.of (.claimPending sessionKey pending.pendingId data.userId
        data.agentId choice.courseKey data.messageId)
      match claimed with
      | some (.claimed _) =>
        resolveCourse platform parked options none session none (some choice) (some replay)
      | _ => unavailable data "pending_claim_failed"
  | .claimed, _ =>
    resolveCourse platform parked options none session none (some choice) (some replay)
  | _, _ => resolveCourse platform parked options none session none (some choice) none

/-- A context that an earlier attempt has attached to a scheduled message. -/
def reuseScheduled (data : MessagePayload) (options : CourseContextGateOptions)
    (scheduled : ScheduledCourseContext) (boundCourseEntityId : Option String)
    (existing : ResolvedCourseExecutionContext) : Gate :=
  let trust := existing.trust
  if trust.ownerUserId ≠ data.userId ∨ trust.agentId ≠ data.agentId ∨
      trust.conversationId ≠ data.conversationId ∨
      trust.courseKey ≠ scheduled.course.courseKey ∨
      trust.courseEntityId ≠ scheduled.course.courseEntityId then
    unavailable data "invalid_prevalidated_scheduled_context"
  else do
    let retrieval ← gateRetrieval platform data options true scheduled.course.courseEntityId
      existing.retrieval
    let context := { existing with specialized := true, retrieval := retrieval }
    let attached := { data with
      resolvedCourseContext := some context,
      scheduledCourseContext :=
        some { scheduled with sameCourseEvidence := retrieval.sameCourseEvidence } }
    if retrieval.guardPassed then
      recordTrace options
        { runId := scheduled.runId
          conversationId := data.conversationId
          bindingCourseEntityId := boundCourseEntityId
          courseEntityId := scheduled.course.courseEntityId
          contextVersion := existing.context.contextVersion
          sameCourseEvidence := retrieval.sameCourseEvidence }
        attached (.ready context none none)
    else pure (.contextUnavailable "untrusted_scheduled_evidence" none none, attached)

/-- The candidate that the text names, by its number, key or name. -/
def namedCandidate (candidates : List CourseCandidate) (text : String) : Option CourseCandidate :=
  (candidates.zipIdx.find? fun entry =>
    text = toString (entry.2 + 1) || text = entry.1.courseKey || text = entry.1.displayName).map
      Prod.fst

def chosenCandidate (data : MessagePayload) (pending : PendingCourseSelection) : Option CourseCandidate :=
  if pending.status = .claimed ∧ pending.claimedMessageId = some data.messageId then
    pending.candidates.find? fun candidate => pending.claimedCourseKey = some candidate.courseKey
  else namedCandidate pending.candidates data.text

/-- The stages behind the pending selection, which is none where it does not count any more. -/
def selectCourse (reading : TurnReading) (data : MessagePayload)
    (options : CourseContextGateOptions) (session : Option ThreadSession)
    (pending : Option PendingCourseSelection) : Gate :=
  match pending with
  | none =>
    if !options.specialized &&
        !decideCourseTurn reading data (session.any (·.shifuCourseContext.isSome)) then
      pure (.notRequired, data)
    else if !options.configured then unavailable data "not_configured"
    else resolveCourse platform data options none session none none none
  | some pending =>
    if !options.configured then unavailable data "not_configured"
    else match chosenCandidate data pending with
      | none => pure (.clarificationRequired pending.candidates, data)
      | some choice => claimSelection platform data options session pending choice

/-- Clear a selection that is over; the message goes on without it. -/
def clearSelection (reading : TurnReading) (data : MessagePayload)
    (options : CourseContextGateOptions) (sessionKey : String) (session : Option ThreadSession)
    (pending : PendingCourseSelection) (messageId : Option String) (reasonCode : String) :
    Gate := do
  let cleared ← CourseProcess.of (.clearPending sessionKey pending.pendingId data.userId
    data.agentId messageId)
  match cleared with
  | some true => selectCourse platform reading data options session none
  | _ => unavailable data reasonCode

def claimedRecoveryGraceMs : Int := 5 * 60000

def pendingExpiryMs : Int := 10 * 60000

/-- Another message has held the claim for too long. -/
def PendingCourseSelection.abandoned (pending : PendingCourseSelection) (data : MessagePayload) (now : Int) : Bool :=
  pending.status = .claimed && pending.claimedMessageId ≠ some data.messageId &&
    pending.claimedAt.any fun claimedAt => claimedAt ≠ 0 && claimedRecoveryGraceMs < now - claimedAt

def settlePending (reading : TurnReading) (data : MessagePayload)
    (options : CourseContextGateOptions) (sessionKey : String) (session : Option ThreadSession) (now : Int) : Gate :=
  match session.bind ThreadSession.pendingCourseSelection with
  | none => selectCourse platform reading data options session none
  | some pending =>
    if pending.ownerUserId ≠ data.userId ∨ pending.agentId ≠ data.agentId then
      unavailable data "pending_scope_mismatch"
    else if pending.status = .pending ∧ pendingExpiryMs < now - pending.createdAt then
      clearSelection platform reading data options sessionKey session pending none
        "pending_clear_failed"
    else if pending.status = .dispatched then
      if pending.claimedMessageId = some data.messageId then pure (.alreadyDispatched, data)
      else clearSelection platform reading data options sessionKey session pending
        pending.claimedMessageId "dispatched_cleanup_failed"
    else if pending.abandoned data now then
      clearSelection platform reading data options sessionKey session pending
        pending.claimedMessageId "claimed_recovery_failed"
    else selectCourse platform reading data options session (some pending)

/-- A scheduled wake keeps out of the session that it comes to. -/
def attachScheduled (data : MessagePayload) (options : CourseContextGateOptions)
    (scheduled : ScheduledCourseContext) (boundCourseEntityId : Option String) : Gate :=
  match data.resolvedCourseContext with
  | some existing => reuseScheduled platform data options scheduled boundCourseEntityId existing
  | none =>
    if !options.configured then unavailable data "not_configured"
    else resolveCourse platform data options (some scheduled) none boundCourseEntityId none none

def boundEntity (session : Option ThreadSession) : Option String :=
  (session.bind ThreadSession.shifuCourseContext).map ActiveCourseBinding.courseEntityId

def attachCourseContextForReviewedScope (reading : TurnReading) (data : MessagePayload)
    (options : CourseContextGateOptions) : Gate :=
  match data.scheduledCourseContext, validScheduledCourseContext data with
  | some _, none => unavailable data "invalid_scheduled_course_context"
  | _, some scheduled =>
    match options.sessionKey with
    | none => attachScheduled platform data options scheduled none
    | some sessionKey => do
        match ← CourseProcess.of (.getSessionStrict sessionKey) with
        | none => unavailable data "session_unavailable"
        | some loaded =>
          attachScheduled platform data options scheduled (boundEntity loaded.session)
  | none, none =>
    if isExplicitOrderDataBypass reading data || isExplicitPersonalBypass reading data then
      pure (.notRequired, data)
    else match options.sessionKey with
      | none => selectCourse platform reading data options none none
      | some sessionKey => do
          match ← CourseProcess.of (.getSessionStrict sessionKey) with
          | none => unavailable data "session_unavailable"
          | some loaded =>
            settlePending platform reading data options sessionKey loaded.session loaded.now

end Stages

end Lobu.Courses
