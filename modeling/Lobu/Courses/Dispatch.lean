import Lobu.Courses.Gate

namespace Lobu.Courses

open Lobu.Foundation

/-! # Dispatch behind the gate

The consumer runs the gate on each message, hands the message to its worker and
then closes the selection whose parked text it has replayed.  The sessions are
shared by all the messages under way.
-/

inductive CourseContextGateMode where
  | off
  | shadow
  | singleCourse
  | enforce

/-- A message on its way to a worker, with the settings that its turn runs under. -/
structure CourseDelivery where
  data : MessagePayload
  rollout : CourseContextGateMode
  sessionManager : Bool
  options : CourseContextGateOptions

def hasTrustedCourseContext (data : MessagePayload) (context : ResolvedCourseExecutionContext) : Bool :=
  decide (context.trust.ownerUserId = data.userId ∧ context.trust.agentId = data.agentId ∧
    context.trust.conversationId = data.conversationId ∧
    context.trust.courseKey = context.course.courseKey ∧
    context.trust.courseEntityId = context.course.courseEntityId ∧
    context.trust.contextPackId = context.context.contextPackId ∧
    context.trust.contextVersion = context.context.contextVersion) &&
  (isSafeInteger (.finite context.trust.contextVersion)).isSome &&
  decide (0 < context.trust.contextVersion) && context.retrieval.guardPassed

/-- What the consumer makes of the gate's answer. -/
inductive Verdict where
  | go (replay : Option Replay)
  | alreadyDispatched
  | terminal

/-- The answer of the gate where its context is not to be trusted. -/
def distrusted (data : MessagePayload) (result : CourseContextGateResult) :
    CourseContextGateResult × MessagePayload :=
  match result with
  | .ready context _ _ =>
    if hasTrustedCourseContext data context then (result, data)
    else (.contextUnavailable "untrusted_context" none none,
      { data with resolvedCourseContext := none })
  | _ => (result, data)

/-- The context that the message carries is checked once more. -/
def carriedDistrusted (result : CourseContextGateResult) (data : MessagePayload) :
    CourseContextGateResult × MessagePayload :=
  match data.resolvedCourseContext with
  | some context =>
    if hasTrustedCourseContext data context then (result, data)
    else (.contextUnavailable "untrusted_context" none none,
      { data with resolvedCourseContext := none })
  | none => (result, data)

def verdict (enforced : Bool) (data : MessagePayload) : CourseContextGateResult → Verdict × MessagePayload
  | .notRequired => (.go none, data)
  | .ready _ _ replay => (.go replay, data)
  | .onboardingReady ownerUserId agentId conversationId =>
    let stripped := { data with resolvedCourseContext := none }
    if enforced && ownerUserId = data.userId && agentId = data.agentId &&
        conversationId = data.conversationId then (.go none, stripped)
    else (.terminal, stripped)
  | .alreadyDispatched => (.alreadyDispatched, data)
  | .clarificationRequired _ => (.terminal, data)
  | .contextUnavailable .. => (.terminal, data)
  | .thrown => (.terminal, data)

def markDispatched (data : MessagePayload) (replay : Replay) : Nat → CourseProcess Unit
  | 0 => pure ()
  | attempts + 1 => do
      let marked ← CourseProcess.of (.markDispatched data.sessionKey replay.pendingId data.userId
        data.agentId replay.messageId)
      match marked with
      | none => markDispatched data replay attempts
      | some _ => pure ()

/-- Close the selection that the message has replayed. -/
def closeReplay (data : MessagePayload) (replay : Replay) : CourseProcess Bool := do
  markDispatched data replay 3
  let _ ← CourseProcess.of (.clearPending data.sessionKey replay.pendingId data.userId
    data.agentId (some replay.messageId))
  pure true

/-- Hand the message to its worker; `false` where that throws or nothing is handed over. -/
def handOver (sessionManager : Bool) (data : MessagePayload) (replay : Option Replay) :
    CourseProcess Bool := do
  match ← CourseProcess.of (.sendToWorkerQueue data) with
  | false => pure false
  | true =>
    match replay, sessionManager with
    | some replay, true => closeReplay data replay
    | _, _ => pure true

def conclude (enforced sessionManager : Bool) (data : MessagePayload)
    (result : CourseContextGateResult) : CourseProcess Bool :=
  let checked := distrusted data result
  let carried := carriedDistrusted checked.1 checked.2
  match verdict enforced carried.2 carried.1 with
  | (.go replay, sent) => handOver sessionManager sent replay
  | (.alreadyDispatched, _) => pure false
  | (.terminal, _) => pure false

/-- In an evaluation the gate works on a copy without a session; what it attaches counts only
where the user has a single course. -/
def concludeSingleCourse (sessionManager : Bool) (data copy : MessagePayload)
    (result : CourseContextGateResult) : CourseProcess Bool :=
  match distrusted data result with
  | (.ready context persisted replay, data) =>
    if context.matchedBy = "single_course_default" then
      conclude false sessionManager
        { data with resolvedCourseContext := copy.resolvedCourseContext }
        (.ready context persisted replay)
    else pure false
  | (result, data) => conclude false sessionManager data result

section Dispatch

variable (platform : Platform) (reading : TurnReading)

def dispatchCourseContextBoundary (delivery : CourseDelivery) : CourseProcess Bool :=
  let gateMode := if delivery.data.scheduledCourseContext.isSome then .enforce
    else delivery.rollout
  let fresh := { delivery.data with parkedFrom := none }
  let data := if delivery.data.scheduledCourseContext.isSome then fresh
    else { fresh with resolvedCourseContext := none }
  let key := if delivery.sessionManager then some data.sessionKey else none
  match gateMode with
  | .off => handOver delivery.sessionManager data none
  | .enforce =>
    if !isExplicitPersonalBypass reading data && data.reviewedScope &&
        !delivery.sessionManager then pure false
    else do
      let (result, data) ← attachCourseContextForReviewedScope platform reading data
        { delivery.options with sessionKey := key }
      if result = .thrown then pure false
      else conclude true delivery.sessionManager data result
  | .shadow =>
    if !isExplicitPersonalBypass reading data && data.reviewedScope &&
        !delivery.sessionManager then conclude false delivery.sessionManager data .notRequired
    else do
      let _ ← attachCourseContextForReviewedScope platform reading data
        { delivery.options with sessionKey := none }
      conclude false delivery.sessionManager data .notRequired
  | .singleCourse =>
    if !isExplicitPersonalBypass reading data && data.reviewedScope &&
        !delivery.sessionManager then pure false
    else do
      let (result, copy) ← attachCourseContextForReviewedScope platform reading data
        { delivery.options with sessionKey := none }
      if result = .thrown then pure false
      else concludeSingleCourse delivery.sessionManager data copy result

end Dispatch

structure CreatedSelection where
  pendingId : String
  ownerUserId : String
  agentId : String

structure SelectionClaim where
  pendingId : String
  messageId : String
  ownerUserId : String
  agentId : String
deriving DecidableEq

/-- The stored sessions, and the history of the selections in them. -/
structure CourseWorld where
  sessions : String → Option ThreadSession
  created : List CreatedSelection
  claims : List SelectionClaim

/-- What the code does not decide: the clock, a new identifier, whether a call fails and whether
it has taken effect by then, and what other services answer. -/
structure Circumstance where
  now : Int
  freshId : String
  fails : Bool
  takesEffect : Bool
  body : Option Json

namespace CourseWorld

def write (world : CourseWorld) (sessionKey : String) (session : ThreadSession) : CourseWorld :=
  { world with sessions := Function.update world.sessions sessionKey (some session) }

def claimFor (world : CourseWorld) (outcome : ClaimOutcome) (claim : SelectionClaim) : CourseWorld :=
  match outcome with
  | .claimed _ => { world with claims := claim :: world.claims }
  | .conflict => world

/-- `mutate`: false where there is no session, and a caller that sees a failure does not know
whether it took effect. -/
def mutate {α : Type} (world : CourseWorld) (sessionKey : String) (circumstance : Circumstance)
    (update : ThreadSession → α × ThreadSession) (record : α → CourseWorld → CourseWorld) : Option α × CourseWorld :=
  match world.sessions sessionKey with
  | none => (none, world)
  | some session =>
    let written := record (update session).1 (world.write sessionKey (update session).2)
    if circumstance.fails then (none, if circumstance.takesEffect then written else world)
    else (some (update session).1, written)

def serve : Service CourseWorld Circumstance Answer
  | world, .now, circumstance => some (circumstance.now, world)
  | world, .getSessionStrict sessionKey, circumstance =>
    if circumstance.fails then some (none, world)
    else some (some ⟨world.sessions sessionKey, circumstance.now⟩, world)
  | world, .createPending sessionKey input, circumstance =>
    -- `randomUUID` does not repeat itself
    if circumstance.freshId ∈ world.created.map CreatedSelection.pendingId then none
    else
      let entry : CreatedSelection :=
        ⟨circumstance.freshId, input.ownerUserId, input.agentId⟩
      some (world.mutate sessionKey circumstance
        (fun session => (newPending input circumstance.freshId circumstance.now,
          createPendingCourseSelection input circumstance.freshId circumstance.now session))
        fun _ written => { written with created := entry :: written.created })
  | world, .claimPending sessionKey pendingId ownerUserId agentId courseKey messageId,
    circumstance =>
      some (world.mutate sessionKey circumstance
        (claimPendingCourseSelection pendingId ownerUserId agentId courseKey messageId
          circumstance.now)
        fun outcome written =>
          written.claimFor outcome ⟨pendingId, messageId, ownerUserId, agentId⟩)
  | world, .clearPending sessionKey pendingId ownerUserId agentId messageId, circumstance =>
    some (world.mutate sessionKey circumstance
      (clearPendingCourseSelection pendingId ownerUserId agentId messageId)
      fun _ written => written)
  | world, .markDispatched sessionKey pendingId ownerUserId agentId messageId, circumstance =>
    some (world.mutate sessionKey circumstance
      (markPendingCourseSelectionDispatched pendingId ownerUserId agentId messageId
        circumstance.now)
      fun _ written => written)
  | world, .bindActiveCourse sessionKey binding, circumstance =>
    let bound := world.mutate sessionKey circumstance
      (fun session => ((), bindActiveCourse binding session)) fun _ written => written
    some (bound.1.isSome, bound.2)
  | world, .resolve _, circumstance => some (circumstance.body, world)
  | world, .bundle .., circumstance => some (circumstance.body, world)
  | world, .search _, circumstance => some (circumstance.body, world)
  | world, .recordTrace _, circumstance => some (!circumstance.fails, world)
  | world, .sendToWorkerQueue _, circumstance => some (!circumstance.fails, world)
  | world, .replaceSession sessionKey session, _ =>
    if (session.bind ThreadSession.pendingCourseSelection).isNone then
      some ((), { world with sessions := Function.update world.sessions sessionKey session })
    else none

end CourseWorld

inductive CourseCommand where
  | deliver (delivery : CourseDelivery)
  -- others create, overwrite and delete sessions, never with a selection in them
  | replaceSession (sessionKey : String) (session : Option ThreadSession)

def CourseCommand.program (platform : Platform) (reading : TurnReading) : CourseCommand → CourseProcess Bool
  | .deliver delivery => dispatchCourseContextBoundary platform reading delivery
  | .replaceSession sessionKey session => do
      CourseProcess.of (.replaceSession sessionKey session)
      pure true

/-- Nothing is parked yet. -/
def CourseWorld.begins (world : CourseWorld) : Prop :=
  (∀ sessionKey session, world.sessions sessionKey = some session →
    session.pendingCourseSelection = none) ∧ world.created = [] ∧ world.claims = []

abbrev CourseCrowd := Crowd CourseCommand CourseWorld Answer Bool

/-- Any number of messages, delivered and redelivered, over the shared sessions. -/
def courseDeliveries (platform : Platform) (reading : TurnReading) :
    Machine CourseCrowd (CrowdEvent CourseCommand Circumstance) :=
  Crowd.crowds (CourseCommand.program platform reading) CourseWorld.serve CourseWorld.begins

end Lobu.Courses
