import Lobu.Courses.Replays

namespace Lobu.Courses

open Lobu.Foundation

/-! # The claimant of a selection

What the stored sessions and the history of the selections agree on, and how
every mutation keeps it: a selection has one claimant for good, of the user and
agent that it was parked for.
-/

namespace CourseWorld

variable {world after : CourseWorld} {sessionKey : String} {circumstance : Circumstance}

/-- The history only grows. -/
structure Grows (world after : CourseWorld) : Prop where
  created : world.created ⊆ after.created
  claims : world.claims ⊆ after.claims

theorem Grows.refl (world : CourseWorld) : Grows world world :=
  ⟨List.Subset.refl _, List.Subset.refl _⟩

def createdFor (world : CourseWorld) (pendingId ownerUserId agentId : String) : Prop :=
  (⟨pendingId, ownerUserId, agentId⟩ : CreatedSelection) ∈ world.created

def claimedBy (world : CourseWorld) (pendingId messageId ownerUserId agentId : String) : Prop :=
  (⟨pendingId, messageId, ownerUserId, agentId⟩ : SelectionClaim) ∈ world.claims

/-- What the history says of a stored selection. -/
structure Accounted (world : CourseWorld) (pending : PendingCourseSelection) : Prop where
  created : world.createdFor pending.pendingId pending.ownerUserId pending.agentId
  unclaimed : pending.status = .pending → ∀ claim ∈ world.claims,
    claim.pendingId ≠ pending.pendingId
  held : pending.status ≠ .pending → ∃ messageId, pending.claimedMessageId = some messageId ∧
    world.claimedBy pending.pendingId messageId pending.ownerUserId pending.agentId

structure Sound (world : CourseWorld) : Prop where
  accounted : ∀ sessionKey, ∀ pending ∈ world.pending? sessionKey, world.Accounted pending
  apart : ∀ first second, ∀ here ∈ world.pending? first, ∀ there ∈ world.pending? second,
    here.pendingId = there.pendingId → first = second
  createdOnce : ∀ first ∈ world.created, ∀ second ∈ world.created,
    first.pendingId = second.pendingId → first = second
  claimedOnce : ∀ first ∈ world.claims, ∀ second ∈ world.claims,
    first.pendingId = second.pendingId → first.messageId = second.messageId
  owned : ∀ claim ∈ world.claims, world.createdFor claim.pendingId claim.ownerUserId claim.agentId

theorem sound_of_begins (begins : world.begins) : world.Sound := by
  obtain ⟨empty, created, claims⟩ := begins
  have absent : ∀ key, world.pending? key = none := by
    intro key
    cases stored : world.sessions key with
    | none => simp [pending?, stored]
    | some session => simp [pending?, stored, empty key session stored]
  constructor <;> simp [absent, created, claims]

theorem pending?_replaced {session : Option ThreadSession} :
    CourseWorld.pending? { world with
      sessions := Function.update world.sessions sessionKey session } =
      Function.update world.pending? sessionKey
        (session.bind ThreadSession.pendingCourseSelection) := by
  funext key
  by_cases same : key = sessionKey
  · subst same
    simp [pending?]
  · simp [pending?, same]

variable {session : ThreadSession}

@[simp] theorem pending?_write :
    (world.write sessionKey session).pending? =
      Function.update world.pending? sessionKey session.pendingCourseSelection :=
  pending?_replaced

@[simp] theorem pending?_claimFor {outcome : ClaimOutcome} {claim : SelectionClaim} :
    (world.claimFor outcome claim).pending? = world.pending? := by
  cases outcome <;> rfl

theorem grows_claimFor {outcome : ClaimOutcome} {claim : SelectionClaim} :
    Grows world ((world.write sessionKey session).claimFor outcome claim) := by
  cases outcome with
  | claimed pending => exact ⟨List.Subset.refl _, List.subset_cons_self _ _⟩
  | conflict => exact ⟨List.Subset.refl _, List.Subset.refl _⟩

section Records

variable {next : Option PendingCourseSelection} {pending : PendingCourseSelection} {key : String}
variable (records : after.pending? = Function.update world.pending? sessionKey next)

include records

theorem record_cases (found : pending ∈ after.pending? key) :
    key = sessionKey ∧ pending ∈ next ∨ key ≠ sessionKey ∧ pending ∈ world.pending? key := by
  rw [records] at found
  by_cases here : key = sessionKey
  · subst here
    rw [Function.update_self] at found
    exact .inl ⟨rfl, found⟩
  · rw [Function.update_of_ne here] at found
    exact .inr ⟨here, found⟩

theorem Sound.stillApart (sound : world.Sound)
    (continues : ∀ pending ∈ next, ∃ current ∈ world.pending? sessionKey, current.pendingId = pending.pendingId) :
    ∀ first second, ∀ here ∈ after.pending? first, ∀ there ∈ after.pending? second,
      here.pendingId = there.pendingId → first = second := by
  have origin : ∀ key, ∀ pending ∈ after.pending? key, ∃ before ∈ world.pending? key,
      before.pendingId = pending.pendingId := by
    intro key pending found
    rcases record_cases records found with ⟨rfl, changed⟩ | ⟨_, kept⟩
    · exact continues pending changed
    · exact ⟨pending, kept, rfl⟩
  intro first second here hereFound there thereFound equal
  obtain ⟨hereBefore, hereStood, hereKept⟩ := origin first here hereFound
  obtain ⟨thereBefore, thereStood, thereKept⟩ := origin second there thereFound
  exact sound.apart first second hereBefore hereStood thereBefore thereStood
    (hereKept.trans (equal.trans thereKept.symm))

theorem Sound.update (sound : world.Sound) (created : after.created = world.created)
    (claims : after.claims = world.claims) (continues : ∀ pending ∈ next, ∃ current ∈ world.pending? sessionKey,
      current.pendingId = pending.pendingId ∧ (world.Accounted current → world.Accounted pending)) : after.Sound := by
  have same : ∀ pending, world.Accounted pending → after.Accounted pending := fun pending known =>
    ⟨by simpa [createdFor, created] using known.created, by simpa [claims] using known.unclaimed,
      by simpa [claimedBy, claims] using known.held⟩
  refine ⟨?_, ?_, ?_, ?_, ?_⟩
  · intro key pending found
    rcases record_cases records found with ⟨rfl, changed⟩ | ⟨_, kept⟩
    · obtain ⟨current, stood, _, carried⟩ := continues pending changed
      exact same _ (carried (sound.accounted _ current stood))
    · exact same _ (sound.accounted key pending kept)
  · refine sound.stillApart records fun pending changed => ?_
    obtain ⟨current, stood, kept, _⟩ := continues pending changed
    exact ⟨current, stood, kept⟩
  · simpa [created] using sound.createdOnce
  · simpa [claims] using sound.claimedOnce
  · simpa [claims, createdFor, created] using sound.owned

end Records

theorem Sound.parked {input : PendingInput} {freshId : String} {now : Int} (sound : world.Sound)
    (fresh : freshId ∉ world.created.map CreatedSelection.pendingId) (records : after.pending? =
      Function.update world.pending? sessionKey (some (newPending input freshId now)))
    (created : after.created = ⟨freshId, input.ownerUserId, input.agentId⟩ :: world.created)
    (claims : after.claims = world.claims) : after.Sound := by
  have unknown : ∀ entry ∈ world.created, entry.pendingId ≠ freshId := by
    intro entry present same
    exact fresh (List.mem_map.mpr ⟨entry, present, same⟩)
  have unclaimed : ∀ claim ∈ world.claims, claim.pendingId ≠ freshId := fun claim present =>
    unknown _ (sound.owned claim present)
  have elsewhere : ∀ key, ∀ pending ∈ world.pending? key, pending.pendingId ≠ freshId :=
    fun key pending stored => unknown _ (sound.accounted key pending stored).created
  refine ⟨?_, ?_, ?_, ?_, ?_⟩
  · intro key pending found
    rcases record_cases records found with ⟨rfl, changed⟩ | ⟨_, kept⟩
    · cases changed
      refine ⟨?_, fun _ claim present => ?_, fun claimed => absurd rfl claimed⟩
      · rw [createdFor, created]
        exact List.mem_cons_self
      · exact unclaimed claim (claims ▸ present)
    · have known := sound.accounted key pending kept
      refine ⟨?_, by simpa [claims] using known.unclaimed, by
        simpa [claimedBy, claims] using known.held⟩
      rw [createdFor, created]
      exact List.mem_cons_of_mem _ known.created
  · intro first second here hereFound there thereFound equal
    rcases record_cases records hereFound with ⟨rfl, hereNew⟩ | ⟨_, hereOld⟩ <;>
      rcases record_cases records thereFound with ⟨rfl, thereNew⟩ | ⟨_, thereOld⟩
    · rfl
    · cases hereNew
      exact absurd equal.symm (elsewhere second there thereOld)
    · cases thereNew
      exact absurd equal (elsewhere first here hereOld)
    · exact sound.apart first second here hereOld there thereOld equal
  · rw [created]
    intro first firstIn second secondIn equal
    rcases List.mem_cons.mp firstIn with rfl | firstOld <;> rcases List.mem_cons.mp secondIn with rfl | secondOld
    · rfl
    · exact absurd equal.symm (unknown second secondOld)
    · exact absurd equal (unknown first firstOld)
    · exact sound.createdOnce first firstOld second secondOld equal
  · simpa [claims] using sound.claimedOnce
  · intro claim present
    rw [createdFor, created]
    exact List.mem_cons_of_mem _ (sound.owned claim (claims ▸ present))

theorem Sound.claimed {current taken : PendingCourseSelection} {messageId : String}
    (sound : world.Sound) (stored : world.pending? sessionKey = some current)
    (mine : current.status ≠ .pending → current.claimedMessageId = some messageId)
    (same : taken.pendingId = current.pendingId ∧ taken.ownerUserId = current.ownerUserId ∧
      taken.agentId = current.agentId) (holds : taken.status ≠ .pending ∧ taken.claimedMessageId = some messageId)
    (records : after.pending? = Function.update world.pending? sessionKey (some taken))
    (created : after.created = world.created) (claims : after.claims =
      ⟨current.pendingId, messageId, current.ownerUserId, current.agentId⟩ :: world.claims) : after.Sound := by
  have known := sound.accounted sessionKey current stored
  -- nobody else has ever claimed it
  have alone : ∀ claim ∈ world.claims, claim.pendingId = current.pendingId → claim.messageId = messageId := by
    intro claim present equal
    by_cases fresh : current.status = .pending
    · exact absurd equal (known.unclaimed fresh claim present)
    · obtain ⟨holder, held, recorded⟩ := known.held fresh
      rw [mine fresh] at held
      cases held
      exact sound.claimedOnce claim present _ recorded equal
  refine ⟨?_, ?_, ?_, ?_, ?_⟩
  · intro key pending found
    rcases record_cases records found with ⟨rfl, changed⟩ | ⟨elsewhere, kept⟩
    · cases changed
      refine ⟨?_, fun fresh => absurd fresh holds.1, fun _ => ⟨messageId, holds.2, ?_⟩⟩
      · rw [createdFor, created, same.1, same.2.1, same.2.2]
        exact known.created
      · rw [claimedBy, claims, same.1, same.2.1, same.2.2]
        exact List.mem_cons_self
    · have others := sound.accounted key pending kept
      refine ⟨by simpa [createdFor, created] using others.created, fun fresh claim present => ?_,
        fun claimed => ?_⟩
      · rw [claims] at present
        rcases List.mem_cons.mp present with rfl | old
        · intro equal
          exact elsewhere (sound.apart key sessionKey pending kept current stored equal.symm)
        · exact others.unclaimed fresh claim old
      · obtain ⟨holder, held, recorded⟩ := others.held claimed
        refine ⟨holder, held, ?_⟩
        rw [claimedBy, claims]
        exact List.mem_cons_of_mem _ recorded
  · refine sound.stillApart records fun pending changed => ?_
    cases changed
    exact ⟨current, stored, same.1.symm⟩
  · simpa [created] using sound.createdOnce
  · rw [claims]
    intro first firstIn second secondIn equal
    rcases List.mem_cons.mp firstIn with rfl | firstOld <;> rcases List.mem_cons.mp secondIn with rfl | secondOld
    · rfl
    · exact (alone second secondOld equal.symm).symm
    · exact alone first firstOld equal
    · exact sound.claimedOnce first firstOld second secondOld equal
  · rw [claims]
    intro claim present
    rw [createdFor, created]
    rcases List.mem_cons.mp present with rfl | old
    · exact known.created
    · exact sound.owned claim old

theorem mutate_cases {α : Type} {update : ThreadSession → α × ThreadSession}
    {record : α → CourseWorld → CourseWorld} {answer : Option α}
    (mutated : world.mutate sessionKey circumstance update record = (answer, after)) :
    answer = none ∧ after = world ∨ ∃ session, world.sessions sessionKey = some session ∧
      (answer = none ∨ answer = some (update session).1) ∧
      (circumstance.fails = false ∨ circumstance.takesEffect = true) ∧
      after = record (update session).1 (world.write sessionKey (update session).2) := by
  unfold mutate at mutated
  cases found : world.sessions sessionKey with
  | none =>
    simp only [found] at mutated
    cases mutated
    exact .inl ⟨rfl, rfl⟩
  | some session =>
    simp only [found] at mutated
    cases fails : circumstance.fails with
    | false =>
      rw [fails] at mutated
      cases mutated
      exact .inr ⟨session, rfl, .inr rfl, .inl rfl, rfl⟩
    | true =>
      cases takesEffect : circumstance.takesEffect with
      | false =>
        simp only [fails, takesEffect, if_true] at mutated
        cases mutated
        exact .inl ⟨rfl, rfl⟩
      | true =>
        simp only [fails, takesEffect, if_true] at mutated
        cases mutated
        exact .inr ⟨session, rfl, .inl rfl, .inr rfl, rfl⟩

theorem pending?_of_session (found : world.sessions sessionKey = some session) :
    world.pending? sessionKey = session.pendingCourseSelection := by
  simp [pending?, found]

theorem Sound.rewritten {session next : ThreadSession} (sound : world.Sound)
    (found : world.sessions sessionKey = some session) (continues : ∀ pending ∈ next.pendingCourseSelection,
      ∃ current ∈ session.pendingCourseSelection, current.pendingId = pending.pendingId ∧
        (world.Accounted current → world.Accounted pending)) : (world.write sessionKey next).Sound := by
  refine sound.update pending?_write rfl rfl ?_
  rw [pending?_of_session found]
  exact continues

section Served

variable {pendingId ownerUserId agentId courseKey messageId : String}

/-- What every answer leaves behind. -/
structure Advances (world after : CourseWorld) : Prop where
  sound : after.Sound
  grows : Grows world after

theorem Sound.stays (sound : world.Sound) : Advances world world := ⟨sound, .refl world⟩

theorem created_advances {input : PendingInput} {answer : Option PendingCourseSelection} (sound : world.Sound)
    (served : world.serve (.createPending sessionKey input) circumstance = some (answer, after)) :
    Advances world after := by
  simp only [serve] at served
  split at served
  · cases served
  · rename_i fresh
    rw [Option.some.injEq] at served
    rcases mutate_cases served with ⟨-, rfl⟩ | ⟨session, found, -, -, rfl⟩
    · exact sound.stays
    · refine ⟨?_, ?_, ?_⟩
      · exact sound.parked fresh pending?_write rfl rfl
      · exact List.subset_cons_self _ _
      · exact List.Subset.refl _

theorem claimed_advances {answer : Option ClaimOutcome} (sound : world.Sound)
    (free : circumstance.fails = false ∨ circumstance.takesEffect = true →
      world.dispatchedElsewhere sessionKey pendingId ownerUserId agentId messageId = false)
    (served : world.serve (.claimPending sessionKey pendingId ownerUserId agentId courseKey
      messageId) circumstance = some (answer, after)) :
    Advances world after ∧ ∀ pending, answer = some (.claimed pending) →
      after.claimedBy pendingId messageId ownerUserId agentId := by
  simp only [serve, Option.some.injEq] at served
  rcases mutate_cases served with ⟨rfl, rfl⟩ | ⟨session, found, answered, effective, rfl⟩
  · exact ⟨sound.stays, by simp⟩
  · have free := free effective
    rw [dispatchedElsewhere, pending?_of_session found] at free
    rcases claimed : claimPendingCourseSelection pendingId ownerUserId agentId courseKey messageId
      circumstance.now session with ⟨outcome, next⟩
    rw [claimed] at answered
    rcases claim_cases claimed with ⟨rfl, rfl⟩ | ⟨current, stored, guard, held⟩
    · refine ⟨⟨sound.rewritten found fun pending kept => ⟨pending, kept, rfl, id⟩, ?_⟩, ?_⟩
      · exact ⟨List.Subset.refl _, List.Subset.refl _⟩
      · rintro pending rfl
        simp at answered
    · have stands : world.pending? sessionKey = some current :=
        (pending?_of_session found).trans stored
      obtain ⟨rfl, rfl, rfl⟩ := expected_iff.mp guard
      rcases held with ⟨status, holder, rfl, rfl⟩ | ⟨status, rfl, rfl⟩
      · refine ⟨⟨?_, grows_claimFor⟩, fun _ _ => List.mem_cons_self⟩
        have records : (world.write sessionKey next).pending? =
            Function.update world.pending? sessionKey (some current) := by
          rw [pending?_write, stored]
        exact sound.claimed stands (fun _ => holder) ⟨rfl, rfl, rfl⟩ ⟨by simp [status], holder⟩
          (pending?_claimFor.trans records) rfl rfl
      · refine ⟨⟨?_, grows_claimFor⟩, fun _ _ => List.mem_cons_self⟩
        let taken := current.claim courseKey messageId circumstance.now
        have same : taken.pendingId = current.pendingId ∧
            taken.ownerUserId = current.ownerUserId ∧ taken.agentId = current.agentId :=
          ⟨rfl, rfl, rfl⟩
        have holds : taken.status ≠ .pending ∧ taken.claimedMessageId = some messageId :=
          ⟨by simp [taken, PendingCourseSelection.claim], rfl⟩
        refine sound.claimed stands ?_ same holds (pending?_claimFor.trans pending?_write) rfl rfl
        intro settled
        cases was : current.status with
        | pending => exact absurd was settled
        | claimed => exact absurd was status
        | dispatched => simpa [stored, guard, was] using free

theorem cleared_advances {claimant : Option String} {answer : Option Bool} (sound : world.Sound)
    (served : world.serve (.clearPending sessionKey pendingId ownerUserId agentId claimant)
      circumstance = some (answer, after)) :
    Advances world after ∧ (answer = some true → after.createdFor pendingId ownerUserId agentId) := by
  simp only [serve, Option.some.injEq] at served
  rcases mutate_cases served with ⟨rfl, rfl⟩ | ⟨session, found, answered, -, rfl⟩
  · exact ⟨sound.stays, by simp⟩
  · rcases cleared : clearPendingCourseSelection pendingId ownerUserId agentId claimant session with ⟨done, next⟩
    rw [cleared] at answered
    rcases clear_cases cleared with ⟨rfl, rfl⟩ | ⟨current, stored, guard, rfl, rfl⟩
    · refine ⟨⟨sound.rewritten found fun pending kept => ⟨pending, kept, rfl, id⟩, ?_⟩, ?_⟩
      · exact ⟨List.Subset.refl _, List.Subset.refl _⟩
      · rintro rfl
        simp at answered
    · have stands := (pending?_of_session found).trans stored
      obtain ⟨rfl, rfl, rfl⟩ := expected_iff.mp guard
      refine ⟨⟨sound.rewritten found (by simp), List.Subset.refl _, List.Subset.refl _⟩, fun _ => ?_⟩
      exact (sound.accounted sessionKey current stands).created

theorem marked_advances {answer : Option Bool} (sound : world.Sound)
    (served : world.serve (.markDispatched sessionKey pendingId ownerUserId agentId messageId)
      circumstance = some (answer, after)) :
    Advances world after ∧ (answer = some true → after.createdFor pendingId ownerUserId agentId) := by
  simp only [serve, Option.some.injEq] at served
  rcases mutate_cases served with ⟨rfl, rfl⟩ | ⟨session, found, answered, -, rfl⟩
  · exact ⟨sound.stays, by simp⟩
  · have same : Advances world (world.write sessionKey session) :=
      ⟨sound.rewritten found fun pending kept => ⟨pending, kept, rfl, id⟩, List.Subset.refl _,
        List.Subset.refl _⟩
    rcases marked : markPendingCourseSelectionDispatched pendingId ownerUserId agentId messageId
      circumstance.now session with ⟨done, next⟩
    rw [marked] at answered
    rcases mark_cases marked with ⟨rfl, rfl⟩ | ⟨current, stored, guard, holder, rfl, written⟩
    · refine ⟨same, ?_⟩
      rintro rfl
      simp at answered
    · have stands := (pending?_of_session found).trans stored
      have known := sound.accounted sessionKey current stands
      obtain ⟨rfl, rfl, rfl⟩ := expected_iff.mp guard
      refine ⟨?_, fun _ => known.created⟩
      rcases written with rfl | ⟨status, rfl⟩
      · exact same
      · refine ⟨sound.rewritten found ?_, List.Subset.refl _, List.Subset.refl _⟩
        intro pending changed
        cases changed
        refine ⟨current, stored, rfl, fun accounted => ⟨accounted.created, ?_, fun _ => ?_⟩⟩
        · intro fresh
          cases fresh
        · exact accounted.held (by simp [status])

theorem bound_advances {binding : ActiveCourseBinding} {answer : Bool} (sound : world.Sound)
    (served : world.serve (.bindActiveCourse sessionKey binding) circumstance = some (answer, after)) :
    Advances world after := by
  simp only [serve, Option.some.injEq, Prod.mk.injEq] at served
  rcases mutated : world.mutate sessionKey circumstance
    (fun session => ((), bindActiveCourse binding session)) (fun _ written => written) with
    ⟨result, written⟩
  rw [mutated] at served
  obtain ⟨-, rfl⟩ := served
  rcases mutate_cases mutated with ⟨-, rfl⟩ | ⟨session, found, -, -, rfl⟩
  · exact sound.stays
  · exact ⟨sound.rewritten found fun pending kept => ⟨pending, kept, rfl, id⟩, List.Subset.refl _, List.Subset.refl _⟩

end Served

/-- What the history shows of the answers that messages have had. -/
def vouched (world : CourseWorld) : CourseCommand → Exchange Answer → Prop
  | .deliver _, ⟨.getSessionStrict _, some loaded⟩ =>
    ∀ pending ∈ loaded.session.bind ThreadSession.pendingCourseSelection,
      pending.status ≠ .pending → ∃ messageId, pending.claimedMessageId = some messageId ∧
        world.claimedBy pending.pendingId messageId pending.ownerUserId pending.agentId
  | .deliver _, ⟨.claimPending _ pendingId ownerUserId agentId _ messageId, some (.claimed _)⟩ =>
    world.claimedBy pendingId messageId ownerUserId agentId
  | .deliver delivery, ⟨.clearPending _ pendingId .., some true⟩ =>
    world.createdFor pendingId delivery.data.userId delivery.data.agentId
  | .deliver delivery, ⟨.markDispatched _ pendingId .., some true⟩ =>
    world.createdFor pendingId delivery.data.userId delivery.data.agentId
  | .deliver delivery, ⟨.sendToWorkerQueue payload, _⟩ =>
    ∀ pendingId, payload.parkedFrom = some pendingId →
      world.claimedBy pendingId delivery.data.messageId delivery.data.userId
        delivery.data.agentId
  | .replaceSession .., ⟨.sendToWorkerQueue _, _⟩ => False
  | _, _ => True

theorem vouched_later {command : CourseCommand} {exchange : Exchange Answer}
    (grows : Grows world after) (vouches : world.vouched command exchange) : after.vouched command exchange := by
  unfold vouched at vouches ⊢
  split
  · intro pending stored held
    obtain ⟨messageId, holder, recorded⟩ := vouches pending stored held
    exact ⟨messageId, holder, grows.claims recorded⟩
  · exact grows.claims vouches
  · exact grows.created vouches
  · exact grows.created vouches
  · exact fun pendingId parked => grows.claims (vouches pendingId parked)
  · exact vouches
  · trivial

end CourseWorld

theorem Entitled.claimed {world : CourseWorld} {delivery : CourseDelivery} {said : CourseDialogue}
    {pendingId : String} (entitled : Entitled delivery.data said pendingId)
    (told : ∀ exchange ∈ said, world.vouched (.deliver delivery) exchange) :
    world.claimedBy pendingId delivery.data.messageId delivery.data.userId delivery.data.agentId := by
  rcases entitled with ⟨sessionKey, courseKey, pending, heard⟩ |
    ⟨sessionKey, loaded, pending, heard, stored, rfl, owner, agent, status, holder⟩
  · exact told _ heard
  · obtain ⟨messageId, held, recorded⟩ := told _ heard pending stored (by simp [status])
    rw [holder] at held
    cases held
    rwa [owner, agent] at recorded

/-- What each command asks. -/
def CourseCommand.permitted : CourseCommand → CourseDialogue → CourseRequest → Prop
  | .deliver delivery, said, request => Courses.permitted delivery.data said request
  | .replaceSession sessionKey session, _, request => request = .replaceSession sessionKey session

def CourseCommand.assumed (reading : TurnReading) : CourseCommand → CourseDialogue → Exchange Answer → Prop
  | .deliver delivery, _, exchange => Courses.assumed reading delivery exchange
  | .replaceSession .., _, _ => True

section Runs

variable {platform : Platform} {reading : TurnReading}

theorem CourseCommand.behaves (command : CourseCommand) :
    (command.program platform reading).Keeps command.permitted (command.assumed reading) LeavesAny [] := by
  cases command with
  | deliver delivery => exact dispatchCourseContextBoundary_behaves
  | replaceSession sessionKey session => exact .answered rfl fun _ _ => trivial

theorem served_sound {world after : CourseWorld} {command : CourseCommand} {said : CourseDialogue}
    {request : CourseRequest} {circumstance : Circumstance} {answer : Answer request}
    (sound : world.Sound) (told : ∀ exchange ∈ said, world.vouched command exchange)
    (asks : command.permitted said request) (lawful : respectful reading world command request circumstance = true)
    (served : world.serve request circumstance = some (answer, after)) :
    CourseWorld.Advances world after ∧ command.assumed reading said ⟨request, answer⟩ ∧
      after.vouched command ⟨request, answer⟩ := by
  cases command with
  | replaceSession key session =>
    cases asks
    simp only [CourseWorld.serve] at served
    split at served
    · rename_i empty
      cases served
      refine ⟨⟨?_, List.Subset.refl _, List.Subset.refl _⟩, trivial, trivial⟩
      refine sound.update CourseWorld.pending?_replaced rfl rfl ?_
      rw [Option.isNone_iff_eq_none.mp empty]
      simp
    · cases served
  | deliver delivery =>
    cases request with
    | getSessionStrict sessionKey =>
      simp only [CourseWorld.serve] at served
      split at served
      · cases served
        exact ⟨sound.stays, trivial, trivial⟩
      · rename_i answered
        cases served
        have answered : circumstance.fails = false := by simpa using answered
        simp only [respectful, answered, Bool.false_or, Bool.not_eq_true'] at lawful
        refine ⟨sound.stays, lawful, ?_⟩
        intro pending stored held
        exact (sound.accounted sessionKey pending stored).held held
    | createPending sessionKey input =>
      exact ⟨CourseWorld.created_advances sound served, trivial, trivial⟩
    | claimPending sessionKey pendingId ownerUserId agentId courseKey messageId =>
      have free : circumstance.fails = false ∨ circumstance.takesEffect = true →
          world.dispatchedElsewhere sessionKey pendingId ownerUserId agentId messageId =
            false := by
        intro effective
        simp only [respectful, Bool.or_eq_true, Bool.and_eq_true, Bool.not_eq_true'] at lawful
        rcases lawful with unseen | free
        · rcases effective with answered | effective
          · rw [unseen.1] at answered
            cases answered
          · rw [unseen.2] at effective
            cases effective
        · exact free
      have advanced := CourseWorld.claimed_advances sound free served
      refine ⟨advanced.1, trivial, ?_⟩
      rcases answer with _ | pending | _
      · trivial
      · exact advanced.2 pending rfl
      · trivial
    | clearPending sessionKey pendingId ownerUserId agentId claimant =>
      have advanced := CourseWorld.cleared_advances sound served
      obtain ⟨rfl, rfl⟩ := asks
      refine ⟨advanced.1, trivial, ?_⟩
      rcases answer with _ | _ | _
      · trivial
      · trivial
      · exact advanced.2 rfl
    | markDispatched sessionKey pendingId ownerUserId agentId messageId =>
      have advanced := CourseWorld.marked_advances sound served
      obtain ⟨rfl, rfl⟩ := asks
      refine ⟨advanced.1, trivial, ?_⟩
      rcases answer with _ | _ | _
      · trivial
      · trivial
      · exact advanced.2 rfl
    | bindActiveCourse sessionKey binding =>
      exact ⟨CourseWorld.bound_advances sound served, trivial, trivial⟩
    | sendToWorkerQueue payload =>
      cases served
      refine ⟨sound.stays, trivial, fun pendingId parked => ?_⟩
      exact (asks.parked pendingId parked).claimed told
    | replaceSession sessionKey session => cases asks
    | _ =>
      cases served
      exact ⟨sound.stays, trivial, trivial⟩

end Runs

end Lobu.Courses
