import Lobu.Core.WorkerToken

namespace Lobu.Core

open Lobu.Foundation

/-! # What an accepted token binds

The bindings of a payload as one structure, and the payloads that are accepted.
-/

def NonEmptyText (value : Option Json) : Prop :=
  ∃ text, text ≠ "" ∧ value = some (.string text)

/-- Two fields with one text that is not empty. -/
def SharedText (first second : Option Json) : Prop :=
  ∃ text, text ≠ "" ∧ first = some (.string text) ∧ second = some (.string text)

def PositiveWhole (value : Option Json) : Prop :=
  ∃ count : Nat, 0 < count ∧ value = some (.number (.finite count))

def OneOf (value : Option Json) (allowed : List String) : Prop :=
  ∃ text ∈ allowed, value = some (.string text)

variable {value : Option Json}

theorem isText_iff {expected : String} : isText value expected = true ↔ value = some (.string expected) := by
  unfold isText
  split
  · rename_i text
    simp
  · rename_i other
    simpa using other expected

theorem nonEmptyText_iff : nonEmptyText value = true ↔ NonEmptyText value := by
  unfold nonEmptyText NonEmptyText
  split
  · rename_i text
    simp
  · rename_i other
    simpa using fun text _ => other text

theorem sharedText_iff {first second : Option Json} :
    (nonEmptyText first = true ∧ sameText first second = true) ↔ SharedText first second := by
  rw [nonEmptyText_iff]
  constructor
  · rintro ⟨⟨text, nonempty, rfl⟩, same⟩
    exact ⟨text, nonempty, rfl, isText_iff.mp same⟩
  · rintro ⟨text, nonempty, rfl, same⟩
    exact ⟨⟨text, nonempty, rfl⟩, isText_iff.mpr same⟩

theorem positiveInteger_iff : positiveInteger value = true ↔ PositiveWhole value := by
  unfold positiveInteger PositiveWhole
  split
  · rename_i number
    rw [Bool.and_eq_true, beq_iff_eq, decide_eq_true_eq]
    constructor
    · rintro ⟨integral, positive⟩
      have isWhole : ((number.num : Int) : Rat) = number := Rat.den_eq_one_iff number |>.mp integral
      have above : 0 < number.num := Rat.num_pos.mpr positive
      refine ⟨number.num.toNat, by omega, ?_⟩
      have natural : ((number.num.toNat : Nat) : Rat) = number := by
        rw [← Int.cast_natCast, Int.toNat_of_nonneg above.le, isWhole]
      rw [natural]
    · rintro ⟨count, positive, same⟩
      cases same
      exact ⟨Rat.den_natCast count, by exact_mod_cast positive⟩
  · rename_i other
    simpa using fun (count : Nat) (_ : 0 < count) => other count

theorem oneOf_iff {allowed : List String} : oneOf value allowed = true ↔ OneOf value allowed := by
  simp only [oneOf, OneOf, List.any_eq_true, isText_iff]

theorem isPlainObject_iff {json : Json} : isPlainObject json = true ↔ ∃ fields, json = .object fields := by
  cases json <;> simp [isPlainObject]

theorem nonZeroNumber_iff : nonZeroNumber value = true ↔
    ∃ number, value = some (.number number) ∧ number ≠ .finite 0 := by
  unfold nonZeroNumber
  split
  · rename_i number
    simp
  · rename_i other
    simpa using fun number read => absurd read (other number)

theorem object_of_text {json : Json} {key : String} {value : Json}
    (read : json.get? key = some value) : ∃ fields, json = .object fields := by
  cases json with
  | object fields => exact ⟨fields, rfl⟩
  | _ => contradiction

theorem rejectUnless_ok {holds : Bool} {message : Option String} {result : Unit} :
    rejectUnless holds message = .ok result ↔ holds = true := by
  cases holds <;> simp [rejectUnless]

theorem bind_ok {α β : Type} {first : Except (Option String) α} {next : α → Except (Option String) β} {result : β} :
    (first >>= next) = .ok result ↔ ∃ value, first = .ok value ∧ next value = .ok result := by
  cases first with
  | error reason => simp [bind, Except.bind]
  | ok value => simp [bind, Except.bind]

/-- The kind is a run's, and the run id is a positive whole number. -/
structure RunBound (data : Json) : Prop where
  kind : data.get? "tokenKind" = some (.string "run")
  runId : PositiveWhole (data.get? "runId")

/-- A course scope is bound to the run, the user and the agent of the token. -/
structure ScopeBound (data scope : Json) : Prop where
  run : RunBound data
  owner : SharedText (scope.get? "ownerUserId") (data.get? "userId")
  agent : SharedText (scope.get? "agentId") (data.get? "agentId")
  course : NonEmptyText (scope.get? "courseEntityId")

/-- What the scope of a course run has besides. -/
structure CourseScope (scope : Json) : Prop where
  contextPack : NonEmptyText (scope.get? "contextPackId")
  contextVersion : PositiveWhole (scope.get? "contextVersion")
  skill : scope.get? "activeSpecializedSkill" = some .null ∨
    scope.get? "activeSpecializedSkill" = some (.string "opp-coach")

section Bindings

variable (runtime : TokenRuntime)

/-- The claim expires no later than a minute and the skew after the token was minted. -/
def ClaimExpiry (data claim : Json) : Prop :=
  ∃ expiresAt, claimExpiry runtime claim = some expiresAt ∧
    JsNumber.exceeds (JsNumber.whole expiresAt)
      (JsNumber.plus (JsNumber.plus (timestamp data) (JsNumber.whole 60000))
        (some (clockSkew runtime))) = false

/-- A release claim is bound to the user and the agent of the token. -/
structure ClaimBound (data claim : Json) : Prop where
  environment : OneOf (claim.get? "environment") ["staging", "production"]
  user : SharedText (claim.get? "toolboxUserId") (data.get? "userId")
  agent : SharedText (claim.get? "agentId") (data.get? "agentId")
  release : NonEmptyText (claim.get? "releaseId")
  sequence : PositiveWhole (claim.get? "releaseSequence")
  digest : isSnapshotDigest (claim.get? "snapshotDigest") = true
  expiry : ClaimExpiry runtime data claim
  capabilities : validCapabilityIds (claim.get? "capabilityIds") = true

inductive ReleaseBound (data state : Json) : Prop where
  | legacy (status : state.get? "status" = some (.string "legacy_unenrolled"))
      (count : state.keys.length = 1)
  | inactive (status : state.get? "status" = some (.string "enrolled_inactive"))
      (count : state.keys.length = 3)
      (environment : OneOf (state.get? "environment") ["staging", "production"])
      (reason : OneOf (state.get? "reason")
        ["receipt_invalid", "snapshot_unavailable", "capability_expired"])
  | active (claim : Json) (status : state.get? "status" = some (.string "active"))
      (count : state.keys.length = 2) (carried : state.get? "claim" = some claim)
      (bound : ClaimBound runtime data claim)

structure ModeBound (data mode : Json) : Prop where
  known : OneOf (some mode) ["personal", "onboarding", "course"]
  run : RunBound data
  paired : mode = .string "course" ↔ ∃ scope, data.get? "courseToolScope" = some scope
  complete : ∀ scope, mode = .string "course" → data.get? "courseToolScope" = some scope →
    CourseScope scope

/-- All bindings of a payload, `later` being the clock that its age is taken by. -/
structure PayloadBound (later : Int) (data : Json) : Prop where
  object : ∃ fields, data = .object fields
  conversation : NonEmptyText (data.get? "conversationId")
  user : NonEmptyText (data.get? "userId")
  deployment : NonEmptyText (data.get? "deploymentName")
  stamped : ∃ number, data.get? "timestamp" = some (.number number) ∧ number ≠ .finite 0
  runId : ∀ value, data.get? "runId" = some value → PositiveWhole (some value)
  scope : ∀ scope, data.get? "courseToolScope" = some scope → ScopeBound data scope
  release : ∀ state, data.get? "releaseState" = some state →
    RunBound data ∧ ReleaseBound runtime data state
  released : data.get? "tokenKind" = some (.string "run") →
    ∃ state, data.get? "releaseState" = some state
  mode : ∀ mode, data.get? "executionMode" = some mode → ModeBound data mode
  message : ∀ value, data.get? "messageId" = some value → NonEmptyText (some value)
  processed : ∀ value, data.get? "processedMessageIds" = some value →
    ∃ ids, value = .array ids ∧ ∀ id ∈ ids, NonEmptyText (some id)
  kind : ∀ value, data.get? "tokenKind" = some value →
    OneOf (some value) ["deployment", "session", "run"]
  trusted : ∀ value, data.get? "trustedPlatformContext" = some value →
    value = .bool false ∨ value = .bool true ∧ data.get? "tokenKind" = some (.string "session")
  age : JsNumber.exceeds (tokenAge later data)
    (JsNumber.plus (some (tokenTtl runtime data)) (some (clockSkew runtime))) = false
  future : JsNumber.exceeds ((tokenAge later data).map JsNumber.negate)
    (some (clockSkew runtime)) = false

/-- The claim that a payload carries as active. -/
def ActiveClaim (data claim : Json) : Prop :=
  ∃ state, data.get? "releaseState" = some state ∧
    state.get? "status" = some (.string "active") ∧ state.get? "claim" = some claim

/-- No active claim has expired by `now`. -/
def LiveClaim (now : Int) (data : Json) : Prop :=
  ∀ claim expiresAt, ActiveClaim data claim → claimExpiry runtime claim = some expiresAt →
    now < expiresAt

/-- The payload itself, or with an inactive state for its expired claim. -/
inductive Settled (now : Int) (parsed : Json) : Json → Prop where
  | kept (live : LiveClaim runtime now parsed) : Settled now parsed parsed
  | expired (claim : Json) (expiresAt : Int) (active : ActiveClaim parsed claim)
      (expiry : claimExpiry runtime claim = some expiresAt) (past : expiresAt ≤ now) :
      Settled now parsed (parsed.set "releaseState" (expiredState claim))

end Bindings

section Checks

variable {runtime : TokenRuntime} {data : Json} {now later : Int} {result : Unit}

theorem ofRun_iff : ofRun data = true ↔ RunBound data := by
  rw [ofRun, Bool.and_eq_true, isText_iff, positiveInteger_iff]
  exact ⟨fun both => ⟨both.1, both.2⟩, fun run => ⟨run.kind, run.runId⟩⟩

theorem absent_or {check : Option Json → Bool} {holds : Json → Prop}
    (sound : ∀ present, check (some present) = true ↔ holds present) :
    (value.isNone || check value) = true ↔ ∀ present, value = some present → holds present := by
  cases value with
  | none => simp
  | some present => simp [sound]

theorem checkRequired_ok : checkRequired data = .ok result ↔
    (∃ fields, data = .object fields) ∧ NonEmptyText (data.get? "conversationId") ∧
      NonEmptyText (data.get? "userId") ∧ NonEmptyText (data.get? "deploymentName") ∧
        ∃ number, data.get? "timestamp" = some (.number number) ∧ number ≠ .finite 0 := by
  simp only [checkRequired, bind_ok, rejectUnless_ok, Bool.and_eq_true, nonEmptyText_iff,
    isPlainObject_iff, nonZeroNumber_iff, exists_const, and_assoc]

theorem checkRunId_ok : checkRunId data = .ok result ↔
    ∀ value, data.get? "runId" = some value → PositiveWhole (some value) := by
  rw [checkRunId, rejectUnless_ok]
  exact absent_or fun _ => positiveInteger_iff

theorem checkCourseToolScope_ok : checkCourseToolScope data = .ok result ↔
    ∀ scope, data.get? "courseToolScope" = some scope → ScopeBound data scope := by
  unfold checkCourseToolScope
  split
  · rename_i absent
    simp [absent]
  · rename_i scope present
    simp only [rejectUnless_ok, present, Option.some.injEq, forall_eq', Bool.and_eq_true]
    constructor
    · rintro ⟨⟨⟨⟨⟨⟨run, _⟩, owner⟩, ownerSame⟩, agent⟩, agentSame⟩, course⟩
      exact ⟨ofRun_iff.mp run, sharedText_iff.mp ⟨owner, ownerSame⟩,
        sharedText_iff.mp ⟨agent, agentSame⟩, nonEmptyText_iff.mp course⟩
    · rintro ⟨run, owner, agent, course⟩
      have ⟨_, _, read, _⟩ := owner
      obtain ⟨fields, rfl⟩ := object_of_text read
      have ownerText := sharedText_iff.mpr owner
      have agentText := sharedText_iff.mpr agent
      exact ⟨⟨⟨⟨⟨⟨ofRun_iff.mpr run, rfl⟩, ownerText.1⟩, ownerText.2⟩, agentText.1⟩, agentText.2⟩,
        nonEmptyText_iff.mpr course⟩

theorem settled_without (inactive : ∀ claim, ¬ActiveClaim data claim) {after : Json} :
    Settled runtime now data after ↔ data = after := by
  constructor
  · intro settled
    cases settled with
    | kept => rfl
    | expired claim _ active _ _ => exact absurd active (inactive claim)
  · rintro rfl
    exact .kept fun claim _ active _ => absurd active (inactive claim)

theorem settled_active {claim : Json} {expiresAt : Int} (active : ActiveClaim data claim)
    (expiry : claimExpiry runtime claim = some expiresAt) {after : Json} :
    Settled runtime now data after ↔ settle runtime now data claim = after := by
  have only : ∀ other, ActiveClaim data other → other = claim := by
    rintro other ⟨state, read, _, carried⟩
    obtain ⟨_, sameRead, _, sameCarried⟩ := active
    rw [read] at sameRead
    cases sameRead
    rw [carried] at sameCarried
    exact Option.some.inj sameCarried
  simp only [settle, expiry]
  constructor
  · intro settled
    cases settled with
    | kept live => exact if_neg (not_le.mpr (live claim expiresAt active expiry))
    | expired other otherExpiry otherActive read past =>
      obtain rfl := only other otherActive
      rw [expiry] at read
      cases read
      exact if_pos past
  · rintro rfl
    split
    · rename_i past
      exact .expired claim expiresAt active expiry past
    · rename_i future
      apply Settled.kept
      intro other otherExpiry otherActive read
      obtain rfl := only other otherActive
      rw [expiry] at read
      cases read
      exact not_le.mp future

theorem validExpiry_iff {claim : Json} : validExpiry runtime data claim = true ↔ ClaimExpiry runtime data claim := by
  unfold validExpiry ClaimExpiry
  split
  · rename_i invalid
    simp [invalid]
  · rename_i expiresAt read
    simp [read]

theorem validClaim_iff {claim : Json} : validClaim runtime data claim = true ↔ ClaimBound runtime data claim := by
  simp only [validClaim, Bool.and_eq_true, oneOf_iff, positiveInteger_iff, validExpiry_iff]
  constructor
  · rintro ⟨⟨⟨⟨⟨⟨⟨⟨⟨environment, user⟩, userSame⟩, agent⟩, agentSame⟩, release⟩, sequence⟩, digest⟩,
      expiry⟩, capabilities⟩
    exact ⟨environment, sharedText_iff.mp ⟨user, userSame⟩, sharedText_iff.mp ⟨agent, agentSame⟩,
      nonEmptyText_iff.mp release, sequence, digest, expiry, capabilities⟩
  · intro bound
    have user := sharedText_iff.mpr bound.user
    have agent := sharedText_iff.mpr bound.agent
    exact ⟨⟨⟨⟨⟨⟨⟨⟨⟨bound.environment, user.1⟩, user.2⟩, agent.1⟩, agent.2⟩,
      nonEmptyText_iff.mpr bound.release⟩, bound.sequence⟩, bound.digest⟩, bound.expiry⟩,
      bound.capabilities⟩

theorem ReleaseBound.object {state : Json} (bound : ReleaseBound runtime data state) :
    isObject state = true ∧ OneOf (state.get? "status") ["legacy_unenrolled", "enrolled_inactive", "active"] := by
  have read : OneOf (state.get? "status") ["legacy_unenrolled", "enrolled_inactive", "active"] := by
    cases bound with
    | legacy status => exact ⟨_, by simp, status⟩
    | inactive status => exact ⟨_, by simp, status⟩
    | active _ status => exact ⟨_, by simp, status⟩
  have ⟨_, _, present⟩ := read
  obtain ⟨fields, rfl⟩ := object_of_text present
  exact ⟨rfl, read⟩

theorem not_active {state : Json} {status : String} (present : data.get? "releaseState" = some state)
    (read : state.get? "status" = some (.string status)) (other : status ≠ "active") (claim : Json) :
    ¬ActiveClaim data claim := by
  rintro ⟨found, foundRead, active, _⟩
  rw [present] at foundRead
  cases foundRead
  rw [read] at active
  cases active
  exact other rfl

theorem checkReleaseState_ok {after : Json} :
    checkReleaseState runtime now data = .ok after ↔ (∀ state, data.get? "releaseState" = some state →
        RunBound data ∧ ReleaseBound runtime data state) ∧ (data.get? "tokenKind" = some (.string "run") →
        ∃ state, data.get? "releaseState" = some state) ∧ Settled runtime now data after := by
  unfold checkReleaseState
  split
  · rename_i absent
    have inactive : ∀ claim, ¬ActiveClaim data claim := by
      rintro claim ⟨state, read, _⟩
      rw [absent] at read
      contradiction
    rw [settled_without inactive]
    simp [bind_ok, rejectUnless_ok, absent, ← Bool.not_eq_true, isText_iff, pure, Except.pure]
  · rename_i state present
    simp only [present, Option.some.injEq, forall_eq', exists_eq', implies_true, true_and,
      bind_ok, rejectUnless_ok, Bool.and_eq_true, exists_const, ofRun_iff, oneOf_iff]
    constructor
    · rintro ⟨⟨⟨run, object⟩, status⟩, checked⟩
      split at checked
      · rename_i isLegacy
        have legacy := isText_iff.mp isLegacy
        simp only [bind_ok, rejectUnless_ok, beq_iff_eq, exists_const, pure, Except.pure, Except.ok.injEq] at checked
        obtain ⟨count, same⟩ := checked
        exact ⟨⟨run, .legacy legacy count⟩, (settled_without (not_active present legacy (by decide))).mpr same⟩
      · rename_i notLegacy
        split at checked
        · rename_i isInactive
          have inactive := isText_iff.mp isInactive
          simp only [bind_ok, rejectUnless_ok, beq_iff_eq, exists_const, pure, Except.pure,
            Except.ok.injEq, Bool.and_eq_true, oneOf_iff] at checked
          obtain ⟨⟨⟨count, environment⟩, reason⟩, same⟩ := checked
          exact ⟨⟨run, .inactive inactive count environment reason⟩,
            (settled_without (not_active present inactive (by decide))).mpr same⟩
        · rename_i notInactive
          have active : state.get? "status" = some (.string "active") := by
            obtain ⟨text, member, read⟩ := status
            simp only [List.mem_cons, List.not_mem_nil, or_false] at member
            rcases member with rfl | rfl | rfl
            · exact absurd (isText_iff.mpr read) notLegacy
            · exact absurd (isText_iff.mpr read) notInactive
            · exact read
          split at checked
          · contradiction
          · rename_i claim carried
            simp only [bind_ok, rejectUnless_ok, beq_iff_eq, exists_const, pure, Except.pure,
              Except.ok.injEq, Bool.and_eq_true, validClaim_iff] at checked
            obtain ⟨⟨⟨count, _⟩, bound⟩, same⟩ := checked
            obtain ⟨expiresAt, expiry, _⟩ := bound.expiry
            exact ⟨⟨run, .active claim active count carried bound⟩,
              (settled_active ⟨state, present, active, carried⟩ expiry).mpr same⟩
    · rintro ⟨⟨run, bound⟩, settled⟩
      refine ⟨⟨⟨run, bound.object.1⟩, bound.object.2⟩, ?_⟩
      cases bound with
      | legacy status count =>
        rw [settled_without (not_active present status (by decide))] at settled
        rw [if_pos (isText_iff.mpr status)]
        simp only [bind_ok, rejectUnless_ok, beq_iff_eq, exists_const, pure, Except.pure, Except.ok.injEq]
        exact ⟨count, settled⟩
      | inactive status count environment reason =>
        rw [settled_without (not_active present status (by decide))] at settled
        rw [status, if_neg (by decide), if_pos (by decide)]
        simp only [bind_ok, rejectUnless_ok, beq_iff_eq, exists_const, pure, Except.pure,
          Except.ok.injEq, Bool.and_eq_true, oneOf_iff]
        exact ⟨⟨⟨count, environment⟩, reason⟩, settled⟩
      | active claim status count carried bound =>
        obtain ⟨expiresAt, expiry, _⟩ := bound.expiry
        rw [settled_active ⟨state, present, status, carried⟩ expiry] at settled
        obtain ⟨_, _, read⟩ := bound.environment
        obtain ⟨fields, rfl⟩ := object_of_text read
        rw [status, if_neg (by decide), if_neg (by decide)]
        simp only [carried, bind_ok, rejectUnless_ok, beq_iff_eq, exists_const, pure,
          Except.pure, Except.ok.injEq, Bool.and_eq_true, validClaim_iff]
        exact ⟨⟨⟨count, rfl⟩, bound⟩, settled⟩

theorem nonEmptyTexts_iff {value : Json} : nonEmptyTexts (some value) = true ↔
    ∃ ids, value = .array ids ∧ ∀ id ∈ ids, NonEmptyText (some id) := by
  cases value with
  | array items => simp [nonEmptyTexts, nonEmptyText_iff]
  | _ => simp [nonEmptyTexts]

theorem validTrust_iff {kind : Option Json} {value : Json} :
    validTrust kind (some value) = true ↔
      value = .bool false ∨ value = .bool true ∧ kind = some (.string "session") := by
  cases value with
  | bool trusted => cases trusted <;> simp [validTrust, isText_iff]
  | _ => simp [validTrust]

theorem knownSkill_iff : knownSkill value = true ↔ value = some .null ∨ value = some (.string "opp-coach") := by
  unfold knownSkill
  split
  · simp
  · rename_i other
    rw [isText_iff]
    exact ⟨.inr, fun known => known.resolve_left other⟩

theorem checkExecutionMode_ok (scopes : ∀ scope, data.get? "courseToolScope" = some scope → ScopeBound data scope) :
    checkExecutionMode data = .ok result ↔ ∀ mode, data.get? "executionMode" = some mode → ModeBound data mode := by
  have present : Json.truthy (data.get? "courseToolScope") = true ↔
      ∃ scope, data.get? "courseToolScope" = some scope := by
    constructor
    · intro truthy
      cases read : data.get? "courseToolScope" with
      | none =>
        rw [read] at truthy
        contradiction
      | some scope => exact ⟨scope, rfl⟩
    · rintro ⟨scope, read⟩
      obtain ⟨_, _, owner, _⟩ := (scopes scope read).owner
      obtain ⟨fields, rfl⟩ := object_of_text owner
      rw [read]
      rfl
  unfold checkExecutionMode
  split
  · rename_i absent
    simp [absent]
  · rename_i mode read
    have course : isText (some mode) "course" = true ↔ mode = .string "course" := by
      rw [isText_iff, Option.some.injEq]
    have other : (!isText (some mode) "course") = true ↔ mode ≠ .string "course" := by
      rw [Bool.not_eq_true', ← Bool.not_eq_true, course]
    have pairs : isText (some mode) "course" = Json.truthy (data.get? "courseToolScope") ↔
        (mode = .string "course" ↔ ∃ scope, data.get? "courseToolScope" = some scope) := by
      rw [Bool.eq_iff_iff, course, present]
    simp only [read, Option.some.injEq, forall_eq', bind_ok, rejectUnless_ok, Bool.and_eq_true,
      exists_const, oneOf_iff, ofRun_iff, beq_iff_eq, pairs, Bool.or_eq_true, other, present,
      nonEmptyText_iff, positiveInteger_iff, knownSkill_iff]
    constructor
    · rintro ⟨⟨⟨known, run⟩, paired⟩, complete⟩
      refine ⟨known, run, paired, ?_⟩
      intro scope isCourse scopeRead
      rw [scopeRead] at complete
      obtain ⟨⟨⟨_, pack⟩, version⟩, skill⟩ := complete.resolve_left fun differs => differs isCourse
      exact ⟨pack, version, skill⟩
    · intro bound
      refine ⟨⟨⟨bound.known, bound.run⟩, bound.paired⟩, ?_⟩
      by_cases isCourse : mode = .string "course"
      · right
        obtain ⟨scope, scopeRead⟩ := bound.paired.mp isCourse
        have complete := bound.complete scope isCourse scopeRead
        rw [scopeRead]
        exact ⟨⟨⟨⟨scope, rfl⟩, complete.contextPack⟩, complete.contextVersion⟩, complete.skill⟩
      · exact .inl isCourse

theorem checkMessages_ok : checkMessages data = .ok result ↔
    (∀ value, data.get? "messageId" = some value → NonEmptyText (some value)) ∧
      ∀ value, data.get? "processedMessageIds" = some value →
        ∃ ids, value = .array ids ∧ ∀ id ∈ ids, NonEmptyText (some id) := by
  simp only [checkMessages, bind_ok, rejectUnless_ok, exists_const]
  rw [absent_or fun _ => nonEmptyText_iff, absent_or fun _ => nonEmptyTexts_iff]

theorem checkKind_ok : checkKind data = .ok result ↔ (∀ value, data.get? "tokenKind" = some value →
      OneOf (some value) ["deployment", "session", "run"]) ∧
    ∀ value, data.get? "trustedPlatformContext" = some value → value = .bool false ∨
        value = .bool true ∧ data.get? "tokenKind" = some (.string "session") := by
  simp only [checkKind, bind_ok, rejectUnless_ok, exists_const]
  rw [absent_or fun _ => validTrust_iff]
  apply and_congr_left'
  cases data.get? "tokenKind" with
  | none => simp
  | some value => simp [oneOf_iff]

theorem checkAge_ok : checkAge runtime later data = .ok result ↔ JsNumber.exceeds (tokenAge later data)
        (JsNumber.plus (some (tokenTtl runtime data)) (some (clockSkew runtime))) = false ∧
      JsNumber.exceeds ((tokenAge later data).map JsNumber.negate) (some (clockSkew runtime)) = false := by
  simp only [checkAge, bind_ok, rejectUnless_ok, exists_const, Bool.not_eq_true']

/-- Two payloads that differ in their release state only. -/
structure SameBut (parsed data : Json) : Prop where
  object : isPlainObject data = isPlainObject parsed
  fields : ∀ key, key ≠ "releaseState" → data.get? key = parsed.get? key

theorem Settled.same {parsed : Json} (settled : Settled runtime now parsed data) : SameBut parsed data := by
  cases settled with
  | kept => exact ⟨rfl, fun _ _ => rfl⟩
  | expired claim => exact ⟨by cases parsed <;> rfl, fun key other => Json.get?_set_other _ _ other⟩

section Reads

variable {parsed : Json} (same : SameBut parsed data)
include same

theorem SameBut.ofRun : ofRun data = ofRun parsed := by
  simp only [Core.ofRun, same.fields _ (show "tokenKind" ≠ "releaseState" by decide),
    same.fields _ (show "runId" ≠ "releaseState" by decide)]

theorem SameBut.runBound : RunBound data ↔ RunBound parsed := by
  rw [← ofRun_iff, ← ofRun_iff, same.ofRun]

theorem SameBut.timestamp : timestamp data = timestamp parsed := by
  rw [Core.timestamp, same.fields _ (by decide), Core.timestamp]

theorem SameBut.checks (runtime : TokenRuntime) (later : Int) :
    checkRequired data = checkRequired parsed ∧ checkRunId data = checkRunId parsed ∧
      checkCourseToolScope data = checkCourseToolScope parsed ∧ checkExecutionMode data = checkExecutionMode parsed ∧
          checkMessages data = checkMessages parsed ∧ checkKind data = checkKind parsed ∧
            checkAge runtime later data = checkAge runtime later parsed := by
  have read := same.fields
  refine ⟨?_, ?_, ?_, ?_, ?_, ?_, ?_⟩
  · simp only [checkRequired, same.object, read _ (show "conversationId" ≠ _ by decide),
      read _ (show "userId" ≠ _ by decide), read _ (show "deploymentName" ≠ _ by decide),
      read _ (show "timestamp" ≠ _ by decide)]
  · simp only [checkRunId, read _ (show "runId" ≠ _ by decide)]
  · simp only [checkCourseToolScope, same.ofRun, read _ (show "courseToolScope" ≠ _ by decide),
      read _ (show "userId" ≠ _ by decide), read _ (show "agentId" ≠ _ by decide)]
  · simp only [checkExecutionMode, same.ofRun, read _ (show "executionMode" ≠ _ by decide),
      read _ (show "courseToolScope" ≠ _ by decide)]
  · simp only [checkMessages, read _ (show "messageId" ≠ _ by decide),
      read _ (show "processedMessageIds" ≠ _ by decide)]
  · simp only [checkKind, read _ (show "tokenKind" ≠ _ by decide),
      read _ (show "trustedPlatformContext" ≠ _ by decide)]
  · simp only [checkAge, tokenAge, tokenTtl, same.timestamp, read _ (show "tokenKind" ≠ _ by decide)]

end Reads

theorem checkPayload_of_checks {parsed : Json} (required : checkRequired parsed = .ok ())
    (runId : checkRunId parsed = .ok ()) (scope : checkCourseToolScope parsed = .ok ())
    (released : checkReleaseState runtime now parsed = .ok data)
    (mode : checkExecutionMode data = .ok ()) (messages : checkMessages data = .ok ())
    (kind : checkKind data = .ok ()) (age : checkAge runtime later data = .ok ()) :
    checkPayload runtime now later parsed = .ok data := by
  simp only [checkPayload, bind_ok, pure, Except.pure, Except.ok.injEq]
  exact ⟨(), required, (), runId, (), scope, data, released, (), mode, (), messages, (), kind, (), age, rfl⟩

theorem PayloadBound.accepted {parsed first : Json} (bound : PayloadBound runtime later parsed)
    (early : SameBut parsed first) (late : SameBut parsed data)
    (released : checkReleaseState runtime now first = .ok data) :
    checkPayload runtime now later first = .ok data := by
  obtain ⟨required, runId, scope, _⟩ := early.checks runtime later
  obtain ⟨_, _, _, mode, messages, kind, age⟩ := late.checks runtime later
  apply checkPayload_of_checks _ _ _ released
  · rw [mode]
    exact (checkExecutionMode_ok bound.scope).mpr bound.mode
  · rw [messages]
    exact checkMessages_ok.mpr ⟨bound.message, bound.processed⟩
  · rw [kind]
    exact checkKind_ok.mpr ⟨bound.kind, bound.trusted⟩
  · rw [age]
    exact checkAge_ok.mpr ⟨bound.age, bound.future⟩
  · rw [required]
    exact checkRequired_ok.mpr ⟨bound.object, bound.conversation, bound.user, bound.deployment, bound.stamped⟩
  · rw [runId]
    exact checkRunId_ok.mpr bound.runId
  · rw [scope]
    exact checkCourseToolScope_ok.mpr bound.scope

theorem checkPayload_ok {parsed : Json} :
    checkPayload runtime now later parsed = .ok data ↔
      PayloadBound runtime later parsed ∧ Settled runtime now parsed data := by
  constructor
  · intro accepted
    simp only [checkPayload, bind_ok, pure, Except.pure, Except.ok.injEq] at accepted
    obtain ⟨_, required, _, runId, _, scope, after, release, _, mode, _, messages, _, kind, _, age, rfl⟩ := accepted
    obtain ⟨releases, released, settled⟩ := checkReleaseState_ok.mp release
    obtain ⟨_, _, _, modeSame, messagesSame, kindSame, ageSame⟩ :=
      settled.same.checks runtime later
    rw [modeSame] at mode
    rw [messagesSame] at messages
    rw [kindSame] at kind
    rw [ageSame] at age
    obtain ⟨object, conversation, user, deployment, stamped⟩ := checkRequired_ok.mp required
    have scopes := checkCourseToolScope_ok.mp scope
    have messagesBound := checkMessages_ok.mp messages
    have kindBound := checkKind_ok.mp kind
    have ageBound := checkAge_ok.mp age
    exact ⟨⟨object, conversation, user, deployment, stamped, checkRunId_ok.mp runId, scopes,
      releases, released, (checkExecutionMode_ok scopes).mp mode, messagesBound.1,
      messagesBound.2, kindBound.1, kindBound.2, ageBound.1, ageBound.2⟩, settled⟩
  · rintro ⟨bound, settled⟩
    exact bound.accepted ⟨rfl, fun _ _ => rfl⟩ settled.same
      (checkReleaseState_ok.mpr ⟨bound.release, bound.released, settled⟩)

theorem expiredState_bound {claim other : Json} (bound : ClaimBound runtime data claim) :
    ReleaseBound runtime other (expiredState claim) := by
  obtain ⟨environment, known, read⟩ := bound.environment
  have state : expiredState claim = .object [("status", .string "enrolled_inactive"),
      ("environment", .string environment), ("reason", .string "capability_expired")] := by
    rw [expiredState, read]
    rfl
  rw [state]
  exact .inactive rfl rfl ⟨environment, known, rfl⟩ ⟨"capability_expired", by simp, rfl⟩

theorem PayloadBound.active {claim : Json} (bound : PayloadBound runtime later data)
    (active : ActiveClaim data claim) : RunBound data ∧ ClaimBound runtime data claim := by
  obtain ⟨state, present, status, carried⟩ := active
  obtain ⟨run, release⟩ := bound.release state present
  refine ⟨run, ?_⟩
  cases release with
  | active other _ _ otherCarried claimBound =>
    rw [carried] at otherCarried
    cases otherCarried
    exact claimBound
  | legacy otherStatus =>
    rw [status] at otherStatus
    simp at otherStatus
  | inactive otherStatus =>
    rw [status] at otherStatus
    simp at otherStatus

theorem PayloadBound.settles {parsed : Json} (bound : PayloadBound runtime later parsed)
    (now : Int) : ∃ data, Settled runtime now parsed data := by
  by_cases carried : ∃ claim, ActiveClaim parsed claim
  · obtain ⟨claim, active⟩ := carried
    obtain ⟨expiresAt, expiry, _⟩ := (bound.active active).2.expiry
    exact ⟨_, (settled_active active expiry).mpr rfl⟩
  · exact ⟨parsed, (settled_without fun claim active => carried ⟨claim, active⟩).mpr rfl⟩

theorem PayloadBound.settled {parsed : Json} (bound : PayloadBound runtime later parsed)
    (settled : Settled runtime now parsed data) : PayloadBound runtime later data ∧ LiveClaim runtime now data := by
  cases settled with
  | kept live => exact ⟨bound, live⟩
  | expired claim expiresAt active expiry past =>
    have same := (Settled.expired claim expiresAt active expiry past).same
    obtain ⟨run, claimBound⟩ := bound.active active
    obtain ⟨fields, rfl⟩ := bound.object
    have replaced := Json.get?_set_same fields "releaseState" (expiredState claim)
    generalize (Json.object fields).set "releaseState" (expiredState claim) = data
      at same replaced ⊢
    have inactive : ∀ other, ¬ActiveClaim data other :=
      not_active replaced
        (show (expiredState claim).get? "status" = some (.string "enrolled_inactive") from rfl)
        (by decide)
    have released : checkReleaseState runtime now data = .ok data := by
      apply checkReleaseState_ok.mpr
      refine ⟨?_, fun _ => ⟨_, replaced⟩, (settled_without inactive).mpr rfl⟩
      intro found read
      rw [replaced] at read
      cases read
      exact ⟨same.runBound.mpr run, expiredState_bound claimBound⟩
    have accepted : checkPayload runtime now later data = .ok data :=
      bound.accepted same same released
    have whole := checkPayload_ok.mp accepted
    exact ⟨whole.1, fun other _ active _ => absurd active (inactive other)⟩

end Checks

/-- A token that is accepted has all bindings at once, carries no expired claim, and is the
authenticated payload apart from the state of an expired claim; every other token is refused. -/
theorem accepted_bindings (runtime : TokenRuntime) (now later : Int) (token : String) :
    (∀ data, verifyWorkerToken runtime now later token = some data →
      PayloadBound runtime later data ∧ LiveClaim runtime now data ∧
        ∃ parsed, runtime.plaintext token = some parsed ∧ SameBut parsed data) ∧
    (verifyWorkerToken runtime now later token = none ↔
      ∀ parsed, runtime.plaintext token = some parsed → ¬PayloadBound runtime later parsed) := by
  unfold verifyWorkerToken
  cases opened : runtime.plaintext token with
  | none => simp
  | some parsed =>
    constructor
    · intro data accepted
      cases checked : checkPayload runtime now later parsed with
      | error message => simp [checked, Except.toOption] at accepted
      | ok result =>
        have same : result = data := by simpa [checked, Except.toOption] using accepted
        subst same
        obtain ⟨bound, settled⟩ := checkPayload_ok.mp checked
        obtain ⟨after, live⟩ := bound.settled settled
        exact ⟨after, live, parsed, rfl, settled.same⟩
    · simp only [Option.some.injEq, forall_eq']
      constructor
      · intro refused bound
        obtain ⟨data, settled⟩ := bound.settles now
        have checked := checkPayload_ok.mpr ⟨bound, settled⟩
        simp [checked, Except.toOption] at refused
      · intro unbound
        cases checked : checkPayload runtime now later parsed with
        | error message => rfl
        | ok data => exact absurd (checkPayload_ok.mp checked).1 unbound

/-- A runtime without overrides whose one token is of this payload. -/
def exampleRuntime (payload : Json) : TokenRuntime where
  env _ := none
  dateParse _ := none
  plaintext token := if token = "token" then some payload else none

def courseScope : Json :=
  .object [("ownerUserId", .string "user"), ("agentId", .string "agent"),
    ("courseEntityId", .string "course:user:a"), ("contextPackId", .string "pack"),
    ("contextVersion", .number (.finite 3)), ("activeSpecializedSkill", .null)]

def courseOptions : WorkerTokenOptions where
  channelId := "channel"
  agentId := some "agent"
  runId := some (.finite 7)
  tokenKind := some "run"
  executionMode := some "course"
  courseToolScope := some courseScope

/-- The token of a course run. -/
def coursePayload : Json :=
  payloadObject "user" "conversation" "worker" courseOptions 1000 "id"

theorem fresh_age (payload : Json) (stamped : timestamp payload = JsNumber.whole 1000)
    (kind : tokenTtl (exampleRuntime payload) payload = .finite (7200000 : Int)) :
    checkAge (exampleRuntime payload) 1000 payload = .ok () := by
  have skew : some (clockSkew (exampleRuntime payload)) = JsNumber.whole 30000 := rfl
  have age : tokenAge 1000 payload = JsNumber.whole 0 := by
    rw [tokenAge, stamped, JsNumber.minus_whole (by norm_num)]
    rfl
  rw [checkAge_ok, age, kind, skew, JsNumber.whole_eq, JsNumber.plus_whole (by norm_num),
    JsNumber.negate_whole, JsNumber.exceeds_whole, JsNumber.exceeds_whole]
  decide

theorem verifyWorkerToken_example {payload : Json}
    (checked : checkPayload (exampleRuntime payload) 1000 1000 payload = .ok payload) :
    verifyWorkerToken (exampleRuntime payload) 1000 1000 "token" = some payload := by
  have opened : (exampleRuntime payload).plaintext "token" = some payload := rfl
  simp only [verifyWorkerToken, opened, checked, Except.toOption]

theorem course_token_accepted :
    generateWorkerToken "user" "conversation" "worker" courseOptions 1000 "id" = some coursePayload ∧
      PayloadBound (exampleRuntime coursePayload) 1000 coursePayload := by
  refine ⟨rfl, ?_⟩
  have accepted := verifyWorkerToken_example
    (checkPayload_of_checks rfl rfl rfl rfl rfl rfl rfl (fresh_age coursePayload rfl rfl))
  exact ((accepted_bindings (exampleRuntime coursePayload) 1000 1000 "token").1 coursePayload accepted).1

/-- A course scope with a field that names an organization. -/
def foreignScope : Json :=
  .object [("ownerUserId", .string "user"), ("agentId", .string "agent"),
    ("courseEntityId", .string "course:user:a"), ("organizationId", .string "other")]

def scopeOptions : WorkerTokenOptions where
  channelId := "channel"
  agentId := some "agent"
  organizationId := some "org"
  runId := some (.finite 7)
  tokenKind := some "run"
  courseToolScope := some foreignScope

def scopePayload : Json :=
  payloadObject "user" "conversation" "worker" scopeOptions 1000 "id"

/-- A token with a scope and no mode is accepted, and an organization in the scope is not
compared. -/
theorem scope_without_mode :
    verifyWorkerToken (exampleRuntime scopePayload) 1000 1000 "token" = some scopePayload ∧
      scopePayload.get? "courseToolScope" = some foreignScope ∧ scopePayload.get? "executionMode" = none ∧
      scopePayload.get? "organizationId" = some (.string "org") ∧
      foreignScope.get? "organizationId" = some (.string "other") :=
  ⟨verifyWorkerToken_example (checkPayload_of_checks rfl rfl rfl rfl rfl rfl rfl
    (fresh_age scopePayload rfl rfl)), rfl, rfl, rfl, rfl⟩

end Lobu.Core
