import Lobu.Courses.Dispatch

namespace Lobu.Courses

open Lobu.Foundation

/-! # Replays of parked messages

A selection belongs to the message that holds its claim.  Two steps break this:
a claim on a selection that another message has dispatched already, and a
message that picks a course while another message still holds a fresh claim.
Without them the parked text goes to the worker for one message only.
-/

/-- The record under the key. -/
def CourseWorld.pending? (world : CourseWorld) (sessionKey : String) : Option PendingCourseSelection :=
  (world.sessions sessionKey).bind ThreadSession.pendingCourseSelection

/-- Another message has dispatched the selection. -/
def CourseWorld.dispatchedElsewhere (world : CourseWorld)
    (sessionKey pendingId ownerUserId agentId messageId : String) : Bool :=
  (world.pending? sessionKey).any fun current =>
    current.expected pendingId ownerUserId agentId && current.status = .dispatched &&
      current.claimedMessageId ≠ some messageId

/-- The message goes through the gate, finds the selection in the fresh claim of another message,
and names one of its candidates. -/
def trespasses (reading : TurnReading) (data : MessagePayload) (configured : Bool)
    (session : Option ThreadSession) (now : Int) : Bool :=
  data.scheduledCourseContext.isNone && !isExplicitOrderDataBypass reading data &&
  !isExplicitPersonalBypass reading data && configured &&
  (session.bind ThreadSession.pendingCourseSelection).any fun pending =>
    pending.ownerUserId = data.userId && pending.agentId = data.agentId &&
    pending.status = .claimed && pending.claimedMessageId ≠ some data.messageId &&
    !pending.abandoned data now && (namedCandidate pending.candidates data.text).isSome

/-- The steps of the runs that keep the claims apart. -/
def respectful (reading : TurnReading) (world : CourseWorld) (command : CourseCommand)
    (request : CourseRequest) (circumstance : Circumstance) : Bool :=
  match request, command with
  | .getSessionStrict sessionKey, .deliver delivery =>
    circumstance.fails || !trespasses reading delivery.data delivery.options.configured
      (world.sessions sessionKey) circumstance.now
  | .claimPending sessionKey pendingId ownerUserId agentId _ messageId, _ =>
    (circumstance.fails && !circumstance.takesEffect) ||
      !world.dispatchedElsewhere sessionKey pendingId ownerUserId agentId messageId
  | _, _ => true

abbrev claimsApart (reading : TurnReading) : Discipline CourseCrowd (CrowdEvent CourseCommand Circumstance) :=
  Crowd.obeys fun world command request circumstance =>
    respectful reading world command request circumstance = true

/-- The message has obtained the claim, or has found itself as the claimant. -/
def Entitled (data : MessagePayload) (said : CourseDialogue) (pendingId : String) : Prop :=
  (∃ sessionKey courseKey pending,
    (⟨.claimPending sessionKey pendingId data.userId data.agentId courseKey data.messageId,
      some (.claimed pending)⟩ : Exchange Answer) ∈ said) ∨
  ∃ sessionKey loaded pending,
    (⟨.getSessionStrict sessionKey, some loaded⟩ : Exchange Answer) ∈ said ∧
    loaded.session.bind ThreadSession.pendingCourseSelection = some pending ∧
    pending.pendingId = pendingId ∧ pending.ownerUserId = data.userId ∧
    pending.agentId = data.agentId ∧ pending.status = .claimed ∧
    pending.claimedMessageId = some data.messageId

/-- The payload is the message's own, with no text but its own or one that it may replay. -/
structure Carries (data : MessagePayload) (said : CourseDialogue) (payload : MessagePayload) :
    Prop where
  userId : payload.userId = data.userId
  agentId : payload.agentId = data.agentId
  messageId : payload.messageId = data.messageId
  parked : ∀ pendingId, payload.parkedFrom = some pendingId → Entitled data said pendingId

def permitted (data : MessagePayload) (said : CourseDialogue) : CourseRequest → Prop
  | .createPending _ input => input.ownerUserId = data.userId ∧ input.agentId = data.agentId
  | .claimPending _ _ ownerUserId agentId _ messageId =>
    ownerUserId = data.userId ∧ agentId = data.agentId ∧ messageId = data.messageId
  | .clearPending _ _ ownerUserId agentId _ => ownerUserId = data.userId ∧ agentId = data.agentId
  | .markDispatched _ _ ownerUserId agentId _ => ownerUserId = data.userId ∧ agentId = data.agentId
  | .sendToWorkerQueue payload => Carries data said payload
  | .replaceSession .. => False
  | _ => True

/-- The sessions that the message reads do not lead it into another message's claim. -/
def assumed (reading : TurnReading) (delivery : CourseDelivery) : Exchange Answer → Prop
  | ⟨.getSessionStrict _, some loaded⟩ =>
    trespasses reading delivery.data delivery.options.configured loaded.session loaded.now = false
  | _ => True

section Conduct

variable {platform : Platform} {reading : TurnReading} {delivery : CourseDelivery}
variable {said after : CourseDialogue} {payload : MessagePayload} {α : Type}
variable {leaves : CourseDialogue → α → Prop}

/-- The process asks nothing that is not permitted, and ends so. -/
abbrev Behaves (reading : TurnReading) (delivery : CourseDelivery)
    (leaves : CourseDialogue → α → Prop) (said : CourseDialogue) (process : CourseProcess α) : Prop :=
  process.Keeps (permitted delivery.data) (fun _ => assumed reading delivery) leaves said

variable {data : MessagePayload}

theorem Entitled.later {pendingId : String}
    (entitled : Entitled data said pendingId) (longer : said <:+ after) : Entitled data after pendingId := by
  rcases entitled with ⟨sessionKey, courseKey, pending, heard⟩ | ⟨sessionKey, loaded, pending, heard, rest⟩
  · exact .inl ⟨sessionKey, courseKey, pending, longer.subset heard⟩
  · exact .inr ⟨sessionKey, loaded, pending, longer.subset heard, rest⟩

theorem Carries.later (carries : Carries data said payload) (longer : said <:+ after) : Carries data after payload :=
  ⟨carries.userId, carries.agentId, carries.messageId, fun pendingId parked =>
    (carries.parked pendingId parked).later longer⟩

theorem Carries.same {data other : MessagePayload} (carries : Carries data said payload)
    (userId : other.userId = payload.userId) (agentId : other.agentId = payload.agentId)
    (messageId : other.messageId = payload.messageId)
    (parkedFrom : other.parkedFrom = payload.parkedFrom) : Carries data said other :=
  ⟨userId.trans carries.userId, agentId.trans carries.agentId, messageId.trans carries.messageId,
    fun pendingId parked => carries.parked pendingId (parkedFrom ▸ parked)⟩

/-- The gate leaves a payload that the message may carry. -/
abbrev LeavesCarried (delivery : CourseDelivery) (said : CourseDialogue)
    (ended : CourseContextGateResult × MessagePayload) : Prop :=
  Carries delivery.data said ended.2

theorem searchRows_behaves (input : CourseMemoryRetrievalInput) (queries : List String) (merged : List SearchRow) :
    Behaves reading delivery (fun after _ => said <:+ after) said (searchRows input queries merged) := by
  induction queries generalizing said merged with
  | nil => exact List.suffix_refl _
  | cons query queries ih =>
    refine .answered trivial fun answer _ => ?_
    have longer : said <:+ ⟨.search (input.search query), answer⟩ :: said := List.suffix_cons _ _
    cases answer with
    | none => exact longer
    | some value =>
      cases parsed : parseRows value with
      | none => simp [parsed, longer]
      | some rows =>
        simp only [parsed]
        split
        · exact longer
        · exact (ih _).mono fun after _ later => longer.trans later

theorem retrieveCourseMemory_behaves (input : CourseMemoryRetrievalInput) :
    Behaves reading delivery (fun after _ => said <:+ after) said (retrieveCourseMemory platform input) := by
  refine .answered trivial fun started _ => ?_
  have begun : said <:+ ⟨.now, started⟩ :: said := List.suffix_cons _ _
  cases input.task with
  | none => exact .answered trivial fun now _ => begun.trans (List.suffix_cons _ _)
  | some task =>
    refine .bind (searchRows_behaves input _ _) fun after rows later => ?_
    refine .answered trivial fun now _ => ?_
    have longer := (begun.trans later).trans (List.suffix_cons ⟨.now, now⟩ after)
    cases rows <;> exact longer

theorem gateRetrieval_behaves {options : CourseContextGateOptions} {specializedActive : Bool}
    {courseEntityId : String} {fallback : CourseMemoryRetrieval} :
    Behaves reading delivery (fun after _ => said <:+ after) said
      (gateRetrieval platform payload options specializedActive courseEntityId fallback) := by
  unfold gateRetrieval
  split
  · exact retrieveCourseMemory_behaves _
  · exact List.suffix_refl _

section Stages

variable {options : CourseContextGateOptions} {scheduled : Option ScheduledCourseContext}
variable {session : Option ThreadSession} {boundCourseEntityId : Option String}
variable {replay : Option Replay}

section

variable {trace : ScheduledTrace} {result : CourseContextGateResult}
variable (carries : Carries delivery.data said payload)
include carries

theorem recordTrace_behaves :
    Behaves reading delivery (LeavesCarried delivery) said (recordTrace options trace payload result) := by
  unfold recordTrace
  split
  · refine .answered trivial fun answer _ => ?_
    have later := carries.later (List.suffix_cons ⟨.recordTrace trace, answer⟩ said)
    cases answer <;> exact later
  · exact carries

theorem attachResolved_behaves {matchedBy : String} {course : Course} {bundle : Bundle}
    {retrieval : CourseMemoryRetrieval} :
    Behaves reading delivery (LeavesCarried delivery) said
      (attachResolved platform payload options scheduled boundCourseEntityId matchedBy course bundle
        replay retrieval) := by
  unfold attachResolved
  cases scheduled with
  | some wake => exact recordTrace_behaves (carries.same rfl rfl rfl rfl)
  | none =>
    cases options.sessionKey with
    | none => exact Process.keeps_pure.mpr (carries.same rfl rfl rfl rfl)
    | some sessionKey =>
      refine .answered trivial fun now _ => .answered trivial fun persisted _ => ?_
      have later := carries.later ((List.suffix_cons ⟨.now, now⟩ said).trans
        (List.suffix_cons ⟨.bindActiveCourse sessionKey (bindingOf course bundle now),
          persisted⟩ _))
      exact Process.keeps_pure.mpr (later.same rfl rfl rfl rfl)

theorem loadBundle_behaves {matchedBy : String} {course : Course} :
    Behaves reading delivery (LeavesCarried delivery) said
      (loadBundle platform payload options scheduled boundCourseEntityId matchedBy course replay) := by
  refine .answered trivial fun body _ => ?_
  have later := carries.later (List.suffix_cons ⟨.bundle course.courseKey payload.userId payload.agentId, body⟩ said)
  cases parsed : body.bind parseBundle with
  | none =>
    simp only
    split <;> exact later
  | some bundle =>
    simp only
    split
    · exact later
    · refine .bind gateRetrieval_behaves fun after retrieval longer => ?_
      exact attachResolved_behaves (later.later longer)

theorem askForCourse_behaves {candidates : List CourseCandidate} :
    Behaves reading delivery (LeavesCarried delivery) said (askForCourse payload options candidates) := by
  unfold askForCourse
  cases options.sessionKey with
  | none => exact carries
  | some sessionKey =>
    refine .answered trivial fun createdAt _ => .answered ⟨carries.userId, carries.agentId⟩ fun created _ => ?_
    have later := carries.later ((List.suffix_cons ⟨.now, createdAt⟩ said).trans
      (List.suffix_cons ⟨.createPending sessionKey (pendingInput payload candidates createdAt),
        created⟩ _))
    cases created <;> exact later

theorem useResolution_behaves {resolution : Resolution} :
    Behaves reading delivery (LeavesCarried delivery) said
      (useResolution platform payload options scheduled boundCourseEntityId replay resolution) := by
  unfold useResolution
  split
  · exact askForCourse_behaves carries
  · exact carries
  · exact carries
  · exact carries
  · split
    · exact carries
    · exact loadBundle_behaves carries
  · exact loadBundle_behaves carries

theorem resolveCourse_behaves {choice : Option CourseCandidate} :
    Behaves reading delivery (LeavesCarried delivery) said
      (resolveCourse platform payload options scheduled session boundCourseEntityId choice replay) := by
  refine .answered trivial fun body _ => ?_
  have later := carries.later (List.suffix_cons (⟨_, body⟩ : Exchange Answer) said)
  cases parsed : body.bind parseResolution with
  | none =>
    by_cases strict : options.propagateInfrastructureErrors = true
    · rw [if_pos strict]
      exact later
    · rw [if_neg strict]
      exact later
  | some resolution => exact useResolution_behaves later

end

variable {pending : PendingCourseSelection}

theorem Carries.withParked (carries : Carries data said payload) (entitled : Entitled data said pending.pendingId) :
    Carries data said (payload.withParked pending) := by
  refine ⟨carries.userId, carries.agentId, carries.messageId, ?_⟩
  intro pendingId parked
  simp only [MessagePayload.withParked, Option.some.injEq] at parked
  exact parked ▸ entitled

theorem claimSelection_behaves {choice : CourseCandidate}
    (carries : Carries delivery.data said payload) (undispatched : pending.status ≠ .dispatched)
    (keyed : options.sessionKey ≠ none)
    (held : pending.status = .claimed → Entitled delivery.data said pending.pendingId) :
    Behaves reading delivery (LeavesCarried delivery) said
      (claimSelection platform payload options session pending choice) := by
  unfold claimSelection
  cases status : pending.status with
  | dispatched => exact absurd status undispatched
  | claimed =>
    simp only
    exact resolveCourse_behaves (carries.withParked (held status))
  | pending =>
    cases key : options.sessionKey with
    | none => exact absurd key keyed
    | some sessionKey =>
      refine .answered ⟨carries.userId, carries.agentId, carries.messageId⟩ fun outcome _ => ?_
      have later := carries.later (List.suffix_cons (⟨.claimPending sessionKey
        pending.pendingId payload.userId payload.agentId choice.courseKey payload.messageId,
        outcome⟩ : Exchange Answer) said)
      match outcome with
      | none => exact later
      | some .conflict => exact later
      | some (.claimed obtained) =>
        apply resolveCourse_behaves
        apply later.withParked
        refine .inl ⟨sessionKey, choice.courseKey, obtained, ?_⟩
        rw [← carries.userId, ← carries.agentId, ← carries.messageId]
        exact List.mem_cons_self

theorem selectCourse_behaves {pending : Option PendingCourseSelection}
    (carries : Carries delivery.data said payload) (undispatched : ∀ record ∈ pending, record.status ≠ .dispatched)
    (keyed : pending ≠ none → options.sessionKey ≠ none)
    (held : ∀ record ∈ pending, options.configured = true → record.status = .claimed →
      chosenCandidate payload record ≠ none → Entitled delivery.data said record.pendingId) :
    Behaves reading delivery (LeavesCarried delivery) said
      (selectCourse platform reading payload options session pending) := by
  unfold selectCourse
  cases pending with
  | none =>
    simp only
    split
    · exact carries
    · split
      · exact carries
      · exact resolveCourse_behaves carries
  | some record =>
    simp only
    split
    · exact carries
    · rename_i configured
      cases chosen : chosenCandidate payload record with
      | none => exact carries
      | some choice =>
        refine claimSelection_behaves carries (undispatched record rfl) (keyed (by simp)) ?_
        intro claimed
        exact held record rfl (by simpa using configured) claimed (by simp [chosen])

theorem clearSelection_behaves {sessionKey reasonCode : String}
    {messageId : Option String} (carries : Carries delivery.data said payload) :
    Behaves reading delivery (LeavesCarried delivery) said
      (clearSelection platform reading payload options sessionKey session pending messageId reasonCode) := by
  refine .answered ⟨carries.userId, carries.agentId⟩ fun cleared _ => ?_
  have later := carries.later (List.suffix_cons (⟨.clearPending sessionKey pending.pendingId
    payload.userId payload.agentId messageId, cleared⟩ : Exchange Answer) said)
  match cleared with
  | none => exact later
  | some false => exact later
  | some true => exact selectCourse_behaves later (by simp) (by simp) (by simp)

/-- The payload as the message was delivered, before any text is put in its place. -/
structure AsDelivered (data payload : MessagePayload) : Prop where
  userId : payload.userId = data.userId
  agentId : payload.agentId = data.agentId
  messageId : payload.messageId = data.messageId
  text : payload.text = data.text
  parkedFrom : payload.parkedFrom = none

theorem AsDelivered.carries (own : AsDelivered data payload) : Carries data said payload :=
  ⟨own.userId, own.agentId, own.messageId, by simp [own.parkedFrom]⟩

theorem entitled_of_chosen {sessionKey : String} {loaded : LoadedSession} (own : AsDelivered delivery.data payload)
    (heard : (⟨.getSessionStrict sessionKey, some loaded⟩ : Exchange Answer) ∈ said)
    (parked : loaded.session.bind ThreadSession.pendingCourseSelection = some pending)
    (ungated : trespasses reading delivery.data options.configured loaded.session loaded.now = false)
    (unscheduled : delivery.data.scheduledCourseContext = none)
    (order : isExplicitOrderDataBypass reading delivery.data = false)
    (personal : isExplicitPersonalBypass reading delivery.data = false)
    (owner : pending.ownerUserId = payload.userId) (agent : pending.agentId = payload.agentId)
    (recent : pending.abandoned payload loaded.now = false)
    (configured : options.configured = true) (claimed : pending.status = .claimed)
    (chosen : chosenCandidate payload pending ≠ none) : Entitled delivery.data said pending.pendingId := by
  by_cases mine : pending.claimedMessageId = some delivery.data.messageId
  · exact .inr ⟨sessionKey, loaded, pending, heard, parked, rfl, owner.trans own.userId,
      agent.trans own.agentId, claimed, mine⟩
  · have named : (namedCandidate pending.candidates delivery.data.text).isSome = true := by
      rw [← own.text]
      simpa [chosenCandidate, own.messageId, mine, Option.isSome_iff_ne_none] using chosen
    have young : pending.abandoned delivery.data loaded.now = false := by
      simpa only [PendingCourseSelection.abandoned, own.messageId] using recent
    have trespass : trespasses reading delivery.data options.configured loaded.session loaded.now = true := by
      simp [trespasses, unscheduled, order, personal, configured, parked, owner, agent,
        own.userId, own.agentId, claimed, mine, young, named]
    rw [trespass] at ungated
    cases ungated

theorem settlePending_behaves {sessionKey : String} {loaded : LoadedSession} (own : AsDelivered delivery.data payload)
    (heard : (⟨.getSessionStrict sessionKey, some loaded⟩ : Exchange Answer) ∈ said)
    (ungated : trespasses reading delivery.data options.configured loaded.session loaded.now = false)
    (unscheduled : delivery.data.scheduledCourseContext = none)
    (order : isExplicitOrderDataBypass reading delivery.data = false)
    (personal : isExplicitPersonalBypass reading delivery.data = false) (keyed : options.sessionKey ≠ none) :
    Behaves reading delivery (LeavesCarried delivery) said
      (settlePending platform reading payload options sessionKey loaded.session loaded.now) := by
  unfold settlePending
  cases parked : loaded.session.bind ThreadSession.pendingCourseSelection with
  | none => exact selectCourse_behaves own.carries (by simp) (by simp) (by simp)
  | some pending =>
    simp only
    split
    · exact own.carries
    · rename_i scope
      have owner : pending.ownerUserId = payload.userId := by tauto
      have agent : pending.agentId = payload.agentId := by tauto
      split
      · exact clearSelection_behaves own.carries
      · split
        · split
          · exact own.carries
          · exact clearSelection_behaves own.carries
        · rename_i undispatched
          split
          · exact clearSelection_behaves own.carries
          · rename_i recent
            have recent : pending.abandoned payload loaded.now = false := by simpa using recent
            refine selectCourse_behaves own.carries ?_ (fun _ => keyed) ?_
            · intro record same
              cases same
              exact undispatched
            · intro record same configured claimed chosen
              cases same
              exact entitled_of_chosen own heard parked ungated unscheduled order personal owner
                agent recent configured claimed chosen

theorem reuseScheduled_behaves {wake : ScheduledCourseContext}
    {existing : ResolvedCourseExecutionContext} (carries : Carries delivery.data said payload) :
    Behaves reading delivery (LeavesCarried delivery) said
      (reuseScheduled platform payload options wake boundCourseEntityId existing) := by
  unfold reuseScheduled
  simp only
  split
  · exact carries
  · refine .bind gateRetrieval_behaves fun after retrieval longer => ?_
    have later := carries.later longer
    split
    · exact recordTrace_behaves (later.same rfl rfl rfl rfl)
    · exact Process.keeps_pure.mpr (later.same rfl rfl rfl rfl)

theorem attachScheduled_behaves {wake : ScheduledCourseContext} (carries : Carries delivery.data said payload) :
    Behaves reading delivery (LeavesCarried delivery) said
      (attachScheduled platform payload options wake boundCourseEntityId) := by
  unfold attachScheduled
  split
  · exact reuseScheduled_behaves carries
  · split
    · exact carries
    · exact resolveCourse_behaves carries

end Stages

theorem attachCourseContextForReviewedScope_behaves {options : CourseContextGateOptions}
    (own : AsDelivered delivery.data payload)
    (wakes : payload.scheduledCourseContext = delivery.data.scheduledCourseContext)
    (configured : options.configured = delivery.options.configured)
    (order : isExplicitOrderDataBypass reading payload = isExplicitOrderDataBypass reading delivery.data)
    (personal : isExplicitPersonalBypass reading payload = isExplicitPersonalBypass reading delivery.data) :
    Behaves reading delivery (LeavesCarried delivery) said
      (attachCourseContextForReviewedScope platform reading payload options) := by
  unfold attachCourseContextForReviewedScope
  split
  · exact own.carries
  · split
    · exact attachScheduled_behaves own.carries
    · rename_i sessionKey _
      refine .answered trivial fun answer _ => ?_
      have later := (own.carries : Carries delivery.data said payload).later
        (List.suffix_cons ⟨.getSessionStrict sessionKey, answer⟩ said)
      cases answer with
      | none => exact later
      | some loaded => exact attachScheduled_behaves later
  · rename_i unscheduled _
    split
    · exact own.carries
    · rename_i ungated
      split
      · exact selectCourse_behaves own.carries (by simp) (by simp) (by simp)
      · rename_i sessionKey keyed
        refine .answered trivial fun answer assumed => ?_
        cases answer with
        | none => exact own.carries
        | some loaded =>
          simp only [Bool.or_eq_true, not_or, Bool.not_eq_true] at ungated
          refine settlePending_behaves own List.mem_cons_self ?_ ?_ ?_ ?_ ?_
          · rw [configured]
            exact assumed
          · exact wakes ▸ unscheduled
          · exact order ▸ ungated.1
          · exact personal ▸ ungated.2
          · simp [keyed]

/-- Nothing is asked of the result. -/
abbrev LeavesAny (_ : CourseDialogue) (_ : Bool) : Prop := True

theorem markDispatched_behaves {replay : Replay} (carries : Carries delivery.data said payload) (attempts : Nat) :
    Behaves reading delivery (fun after _ => said <:+ after) said (markDispatched payload replay attempts) := by
  induction attempts generalizing said with
  | zero => exact List.suffix_refl _
  | succ attempts ih =>
    refine .answered ⟨carries.userId, carries.agentId⟩ fun marked _ => ?_
    have longer := List.suffix_cons (⟨.markDispatched payload.sessionKey replay.pendingId
      payload.userId payload.agentId replay.messageId, marked⟩ : Exchange Answer) said
    cases marked with
    | none => exact (ih (carries.later longer)).mono fun after _ later => longer.trans later
    | some _ => exact longer

theorem handOver_behaves {sessionManager : Bool} {replay : Option Replay}
    (carries : Carries delivery.data said payload) :
    Behaves reading delivery LeavesAny said (handOver sessionManager payload replay) := by
  refine .answered carries fun sent _ => ?_
  have later := carries.later (List.suffix_cons ⟨.sendToWorkerQueue payload, sent⟩ said)
  cases sent with
  | false => exact trivial
  | true =>
    rcases replay with _ | replay
    · exact trivial
    · cases sessionManager with
      | false => exact trivial
      | true =>
        refine .bind (markDispatched_behaves later 3) fun after _ longer => ?_
        exact .answered ⟨carries.userId, carries.agentId⟩ fun _ _ => trivial

variable {result : CourseContextGateResult}

theorem Carries.distrusted
    (carries : Carries data said payload) : Carries data said (Courses.distrusted payload result).2 := by
  unfold Courses.distrusted
  split
  · split
    · exact carries
    · exact carries.same rfl rfl rfl rfl
  · exact carries

theorem Carries.carriedDistrusted
    (carries : Carries data said payload) : Carries data said (Courses.carriedDistrusted result payload).2 := by
  unfold Courses.carriedDistrusted
  split
  · split
    · exact carries
    · exact carries.same rfl rfl rfl rfl
  · exact carries

theorem Carries.verdict {enforced : Bool} (carries : Carries data said payload) :
    Carries data said (Courses.verdict enforced payload result).2 := by
  cases result with
  | onboardingReady ownerUserId agentId conversationId =>
    simp only [Courses.verdict]
    split <;> exact carries.same rfl rfl rfl rfl
  | _ => exact carries

theorem conclude_behaves {enforced sessionManager : Bool} (carries : Carries delivery.data said payload) :
    Behaves reading delivery LeavesAny said (conclude enforced sessionManager payload result) := by
  have checked : Carries delivery.data said (verdict enforced
      (carriedDistrusted (distrusted payload result).1 (distrusted payload result).2).2
      (carriedDistrusted (distrusted payload result).1 (distrusted payload result).2).1).2 :=
    carries.distrusted.carriedDistrusted.verdict
  simp only [conclude]
  split
  · rename_i replay sent judged
    rw [judged] at checked
    exact handOver_behaves checked
  · exact trivial
  · exact trivial

theorem concludeSingleCourse_behaves {sessionManager : Bool} {copy : MessagePayload} (carries : Carries delivery.data said payload) :
    Behaves reading delivery LeavesAny said (concludeSingleCourse sessionManager payload copy result) := by
  have checked : Carries delivery.data said (distrusted payload result).2 := carries.distrusted
  simp only [concludeSingleCourse]
  split
  · rename_i judged
    rw [judged] at checked
    split
    · exact conclude_behaves (checked.same rfl rfl rfl rfl)
    · exact trivial
  · rename_i judged
    rw [judged] at checked
    exact conclude_behaves checked

theorem dispatchCourseContextBoundary_behaves :
    Behaves reading delivery LeavesAny [] (dispatchCourseContextBoundary platform reading delivery) := by
  unfold dispatchCourseContextBoundary
  extract_lets gateMode source fresh data key options
  have own : AsDelivered delivery.data data := by
    simp only [data, fresh, source]
    split <;> exact ⟨rfl, rfl, rfl, rfl, rfl⟩
  have wakes : data.scheduledCourseContext = delivery.data.scheduledCourseContext := by
    simp only [data, fresh, source]
    split <;> rfl
  have order : isExplicitOrderDataBypass reading data = isExplicitOrderDataBypass reading delivery.data := by
    simp only [isExplicitOrderDataBypass, own.text]
  have personal : isExplicitPersonalBypass reading data = isExplicitPersonalBypass reading delivery.data := by
    simp only [isExplicitPersonalBypass, own.text]
  clear_value gateMode data
  split
  · exact handOver_behaves own.carries
  · split
    · exact trivial
    · refine .bind (attachCourseContextForReviewedScope_behaves own wakes rfl order personal)
        fun after ended carries => ?_
      rcases ended with ⟨result, left⟩
      simp only
      split
      · exact trivial
      · exact conclude_behaves carries
  · split
    · exact conclude_behaves own.carries
    · refine .bind (attachCourseContextForReviewedScope_behaves own wakes rfl order personal)
        fun after ended carries => ?_
      exact conclude_behaves own.carries
  · split
    · exact trivial
    · refine .bind (attachCourseContextForReviewedScope_behaves own wakes rfl order personal)
        fun after ended carries => ?_
      rcases ended with ⟨result, left⟩
      simp only
      split
      · exact trivial
      · exact concludeSingleCourse_behaves own.carries

end Conduct

end Lobu.Courses
