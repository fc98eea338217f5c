import Lobu.Courses.Claimants

namespace Lobu.Courses

open Lobu.Foundation

/-! # A parked message is replayed once -/

def CourseRequest.settles : CourseRequest → Bool
  | .claimPending .. => true
  | .clearPending .. => true
  | .markDispatched .. => true
  | _ => false

theorem settled_by_owner {world after : CourseWorld} {data : MessagePayload}
    {said : CourseDialogue} {request : CourseRequest} {circumstance : Circumstance}
    {answer : Answer request} {key : String} {pending : PendingCourseSelection}
    (asks : permitted data said request) (settles : request.settles = true)
    (served : world.serve request circumstance = some (answer, after))
    (stood : pending ∈ world.pending? key) (gone : pending ∉ after.pending? key) :
    data.userId = pending.ownerUserId ∧ data.agentId = pending.agentId := by
  -- only the record under the key of the request can have changed
  have guarded : ∀ {sessionKey session next pendingId}, world.sessions sessionKey = some session →
      pending ∉ (world.write sessionKey next).pending? key →
        (next = session ∨ ∃ current, session.pendingCourseSelection = some current ∧
          current.expected pendingId data.userId data.agentId = true) →
          data.userId = pending.ownerUserId ∧ data.agentId = pending.agentId := by
    intro sessionKey session next pendingId found changed outcome
    rw [CourseWorld.pending?_write] at changed
    by_cases same : key = sessionKey
    · subst same
      rw [Function.update_self] at changed
      rw [CourseWorld.pending?_of_session found] at stood
      rcases outcome with rfl | ⟨current, recorded, guard⟩
      · exact absurd stood changed
      · cases stood.symm.trans recorded
        exact ⟨(expected_iff.mp guard).2.1.symm, (expected_iff.mp guard).2.2.symm⟩
    · rw [Function.update_of_ne same] at changed
      exact absurd stood changed
  cases request with
  | claimPending sessionKey pendingId ownerUserId agentId courseKey messageId =>
    obtain ⟨rfl, rfl, rfl⟩ := asks
    rcases CourseWorld.mutate_cases (Option.some.inj served) with ⟨-, rfl⟩ | ⟨session, found, -, -, rfl⟩
    · exact absurd stood gone
    · rw [CourseWorld.pending?_claimFor] at gone
      exact guarded found gone
        ((claim_cases Prod.mk.eta.symm).imp And.right (.imp fun _ held => ⟨held.1, held.2.1⟩))
  | clearPending sessionKey pendingId ownerUserId agentId claimant =>
    obtain ⟨rfl, rfl⟩ := asks
    rcases CourseWorld.mutate_cases (Option.some.inj served) with ⟨-, rfl⟩ | ⟨session, found, -, -, rfl⟩
    · exact absurd stood gone
    · exact guarded found gone
        ((clear_cases Prod.mk.eta.symm).imp And.right (.imp fun _ held => ⟨held.1, held.2.1⟩))
  | markDispatched sessionKey pendingId ownerUserId agentId messageId =>
    obtain ⟨rfl, rfl⟩ := asks
    rcases CourseWorld.mutate_cases (Option.some.inj served) with ⟨-, rfl⟩ | ⟨session, found, -, -, rfl⟩
    · exact absurd stood gone
    · exact guarded found gone
        ((mark_cases Prod.mk.eta.symm).imp And.right (.imp fun _ held => ⟨held.1, held.2.1⟩))
  | _ => cases settles

/-- The parked text of the selection has gone to the worker. -/
def Replays (said : CourseDialogue) (pendingId : String) : Prop :=
  ∃ payload, (⟨.sendToWorkerQueue payload, true⟩ : Exchange Answer) ∈ said ∧
    payload.parkedFrom = some pendingId

def CourseCommand.actsFor (ownerUserId agentId : String) : CourseCommand → Prop
  | .deliver delivery => delivery.data.userId = ownerUserId ∧ delivery.data.agentId = agentId
  | .replaceSession .. => False

def CourseCommand.messageId? : CourseCommand → Option String
  | .deliver delivery => some delivery.data.messageId
  | .replaceSession .. => none

/-- Only messages of the user and agent claim, clear, mark or replay the selection. -/
structure OwnedBy (crowd : CourseCrowd) (pendingId ownerUserId agentId : String) : Prop where
  created : ∀ entry ∈ crowd.shared.created, entry.pendingId = pendingId →
    entry.ownerUserId = ownerUserId ∧ entry.agentId = agentId
  claimed : ∀ claim ∈ crowd.shared.claims, claim.pendingId = pendingId →
    claim.ownerUserId = ownerUserId ∧ claim.agentId = agentId
  settled : ∀ place circumstance after, ∀ asked ∈ crowd.asking place,
    asked.2.settles = true → ∀ answer,
    crowd.shared.serve asked.2 circumstance = some (answer, after) →
    ∀ key, ∀ pending ∈ crowd.shared.pending? key, pending.pendingId = pendingId →
      pending ∉ after.pending? key → asked.1.actsFor ownerUserId agentId
  replayed : ∀ member ∈ crowd.members, Replays member.said pendingId →
    member.command.actsFor ownerUserId agentId

/-- One message at most obtains the selection, and one at most takes its text to the worker. -/
structure ReplayedOnce (crowd : CourseCrowd) (pendingId : String) : Prop where
  claimed : ∀ first ∈ crowd.shared.claims, ∀ second ∈ crowd.shared.claims,
    first.pendingId = pendingId → second.pendingId = pendingId →
      first.messageId = second.messageId
  replayed : ∀ first ∈ crowd.members, ∀ second ∈ crowd.members, Replays first.said pendingId →
    Replays second.said pendingId → first.command.messageId? = second.command.messageId?
  owned : ∃ ownerUserId agentId, OwnedBy crowd pendingId ownerUserId agentId

section Reached

variable {platform : Platform} {reading : TurnReading} {crowd : CourseCrowd}

/-- The invariant of the runs that keep the claims apart. -/
theorem upright_of_reached (reached : (courseDeliveries platform reading).Reachable (claimsApart reading) crowd) :
    crowd.shared.Sound ∧ ∀ member ∈ crowd.members,
      Crowd.Upright CourseCommand.permitted (CourseCommand.assumed reading) (fun _ => LeavesAny)
        CourseWorld.vouched crowd.shared member := by
  refine Crowd.upright (fun _ => CourseWorld.sound_of_begins) CourseCommand.behaves ?_ reached
  intro world command said request circumstance answer after sound told asks lawful served
  obtain ⟨advances, assumed, vouches⟩ := served_sound sound told asks lawful served
  exact ⟨advances.sound, assumed, vouches, fun other exchange => CourseWorld.vouched_later advances.grows⟩

theorem claimed_of_replays {shared : CourseWorld} {member : Member CourseCommand Answer Bool} {pendingId : String}
    (upright : Crowd.Upright CourseCommand.permitted (CourseCommand.assumed reading)
      (fun _ => LeavesAny) CourseWorld.vouched shared member) (replays : Replays member.said pendingId) :
    ∃ claim ∈ shared.claims, claim.pendingId = pendingId ∧ member.command.messageId? = some claim.messageId ∧
      member.command.actsFor claim.ownerUserId claim.agentId := by
  obtain ⟨payload, heard, parked⟩ := replays
  have vouched := upright.told _ heard
  cases acts : member.command with
  | deliver delivery =>
    rw [acts] at vouched
    exact ⟨_, vouched pendingId parked, rfl, rfl, rfl, rfl⟩
  | replaceSession sessionKey session =>
    rw [acts] at vouched
    cases vouched

theorem exists_owner {world : CourseWorld} (sound : world.Sound) (pendingId : String) :
    ∃ ownerUserId agentId, ∀ entry ∈ world.created, entry.pendingId = pendingId →
      entry.ownerUserId = ownerUserId ∧ entry.agentId = agentId := by
  by_cases known : ∃ entry ∈ world.created, entry.pendingId = pendingId
  · obtain ⟨entry, present, same⟩ := known
    refine ⟨entry.ownerUserId, entry.agentId, fun other otherPresent otherSame => ?_⟩
    rw [sound.createdOnce other otherPresent entry present (otherSame.trans same.symm)]
    exact ⟨rfl, rfl⟩
  · exact ⟨"", "", fun entry present same => absurd ⟨entry, present, same⟩ known⟩

/-- In every run in which no message claims what another has dispatched, or goes into a claim
that another holds, the parked text is replayed for one message of its owner. -/
theorem replayed_once
    (reached : (courseDeliveries platform reading).Reachable (claimsApart reading) crowd) (pendingId : String) :
    ReplayedOnce crowd pendingId := by
  obtain ⟨sound, upright⟩ := upright_of_reached reached
  obtain ⟨ownerUserId, agentId, owner⟩ := exists_owner sound pendingId
  have claimedFor : ∀ claim ∈ crowd.shared.claims, claim.pendingId = pendingId →
      claim.ownerUserId = ownerUserId ∧ claim.agentId = agentId :=
    fun claim present same => owner _ (sound.owned claim present) same
  refine ⟨?_, ?_, ownerUserId, agentId, owner, claimedFor, ?_, ?_⟩
  · intro first firstIn second secondIn firstSame secondSame
    exact sound.claimedOnce first firstIn second secondIn (firstSame.trans secondSame.symm)
  · intro first firstIn second secondIn firstReplays secondReplays
    obtain ⟨firstClaim, firstClaims, firstSame, firstIs, -⟩ :=
      claimed_of_replays (upright first firstIn) firstReplays
    obtain ⟨secondClaim, secondClaims, secondSame, secondIs, -⟩ :=
      claimed_of_replays (upright second secondIn) secondReplays
    rw [firstIs, secondIs, sound.claimedOnce firstClaim firstClaims secondClaim secondClaims
      (firstSame.trans secondSame.symm)]
  · intro place circumstance after asked asking settles answer served key pending stood same gone
    have entry := owner _ (sound.accounted key pending stood).created same
    obtain ⟨member, found, asks⟩ := Option.bind_eq_some_iff.mp asking
    obtain ⟨command, request⟩ := asked
    obtain ⟨rfl, permitted⟩ := (upright member (List.mem_of_getElem? found)).permitted asks
    cases acts : member.command with
    | deliver delivery =>
      rw [acts] at permitted
      obtain ⟨user, agent⟩ := settled_by_owner permitted settles served stood gone
      exact ⟨user.trans entry.1, agent.trans entry.2⟩
    | replaceSession sessionKey session =>
      rw [acts] at permitted
      cases permitted
      cases settles
  · intro member present replays
    obtain ⟨claim, claims, same, -, acts⟩ := claimed_of_replays (upright member present) replays
    obtain ⟨rfl, rfl⟩ := claimedFor claim claims same
    exact acts

end Reached

def courseRoom : CourseWorld where
  sessions key := if key = "room" then some ⟨none, none⟩ else none
  created := []
  claims := []

def courseMessage (messageId text : String) : CourseCommand := .deliver
  { data :=
      { userId := "ada", agentId := "opp", conversationId := "room", channelId := "room",
        messageId := messageId, organizationId := none, messageText := some text,
        parkedFrom := none, reviewedScope := false, courseContextBinding := none,
        scheduledCourseContext := none, resolvedCourseContext := none }
    rollout := .enforce
    sessionManager := true
    options :=
      { sessionKey := none, specialized := false, courseSkillContextFields := [],
        courseSkillRetrievalTerms := [], courseSkillRetrievalLimit := none,
        memorySearch := false, recordsTrace := false, configured := true,
        propagateInfrastructureErrors := false } }

/-- The member at the place is answered, with this body where it asks a service. -/
def answered (place : Nat) (body : Option Json) : CrowdEvent CourseCommand Circumstance :=
  .answer place ⟨1, "selection", false, true, body⟩

/-- The question is parked, and a reply takes it to its worker. -/
def parkedAndReplayed : List (CrowdEvent CourseCommand Circumstance) :=
  [.join (courseMessage "question" "sales talk"), .join (courseMessage "reply" "1")] ++
    [answered 0 none, answered 0 (some ambiguousJson), answered 0 none, answered 0 none] ++
    [answered 1 none, answered 1 none, answered 1 (some (resolvedJson "drawing")),
      answered 1 (some (bundleJson "drawing")), answered 1 none, answered 1 none,
      answered 1 none, answered 1 none]

theorem courseRoom_begins (platform : Platform) (reading : TurnReading) :
    (courseDeliveries platform reading).starts ⟨courseRoom, []⟩ := by
  refine ⟨⟨?_, rfl, rfl⟩, rfl⟩
  intro key session stored
  simp only [courseRoom] at stored
  split at stored <;> cases stored
  rfl

theorem replayed_once_reply : ∃ crowd : CourseCrowd, crowd.shared.claims = [⟨"selection", "reply", "ada", "opp"⟩] ∧
      ReplayedOnce crowd "selection" := by
  obtain ⟨crowd, reached, claimed⟩ := Machine.exists_of_replay
    (courseDeliveries plainPlatform plainReading) (claimsApart plainReading) ⟨courseRoom, []⟩
    parkedAndReplayed
    (fun crowd => crowd.shared.claims = [⟨"selection", "reply", "ada", "opp"⟩])
    (courseRoom_begins _ _) (by decide +kernel)
  exact ⟨crowd, of_decide_eq_true claimed, replayed_once reached "selection"⟩

/-- A second reply has read the session before, and claims the selection all the same. -/
def replayedTwice : List (CrowdEvent CourseCommand Circumstance) :=
  parkedAndReplayed.take 6 ++ [.join (courseMessage "second reply" "2"), answered 2 none] ++
    parkedAndReplayed.drop 6 ++
    [answered 2 none, answered 2 (some (resolvedJson "singing")),
      answered 2 (some (bundleJson "singing")), answered 2 none, answered 2 none, answered 2 none]

theorem replayed_for_two_messages :
    ¬ ∀ (platform : Platform) (reading : TurnReading) (crowd : CourseCrowd) (pendingId : String),
      (courseDeliveries platform reading).Reachable unrestricted crowd → ReplayedOnce crowd pendingId := by
  intro once
  obtain ⟨crowd, reached, claimed⟩ := Machine.exists_of_replay
    (courseDeliveries plainPlatform plainReading) unrestricted ⟨courseRoom, []⟩ replayedTwice
    (fun crowd => crowd.shared.claims =
      [⟨"selection", "second reply", "ada", "opp"⟩, ⟨"selection", "reply", "ada", "opp"⟩])
    (courseRoom_begins _ _) (by decide +kernel)
  have claims := of_decide_eq_true claimed
  have same := (once _ _ crowd "selection" reached).claimed
  simp [claims] at same

end Lobu.Courses
