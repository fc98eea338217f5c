import Lobu.Configuration.Authority

namespace Lobu.Configuration

open Lobu.Foundation

/-! # Outcomes

Everything that a committed command can have done, one case for each way out of its
transaction.  What the authority guarantees is read off from these cases.
-/

variable {Digest : Type} [DecidableEq Digest]
variable {platform : Platform Digest} {target : Target} {now : Int}
variable {record : AgentRecord Digest} {rows after : Rows Digest} {answer : Answer Digest}

/-- The kept command with an id, if there is one. -/
def AgentRecord.command? (record : AgentRecord Digest) (commandId : String) : Option (CommandRow Digest) :=
  record.commands.find? fun row => row.commandId == commandId

section NativePatch

variable {command : NativePatchCommand Digest}

def patchField (command : NativePatchCommand Digest) (key : SettingKey) : Option Json :=
  command.patch.lookup key

/-- What lets a native patch through to its writes. -/
structure PatchAllowed (command : NativePatchCommand Digest) (record : AgentRecord Digest) :
    Prop where
  fresh : record.command? command.commandId = none
  expected : ∀ revision ∈ command.expectedConfigurationRevision,
    revision = record.configurationRevision
  policy : (decideNativeSettingsPatch record.managementMode command.patch).reason = none

inductive NativePatchOutcome (platform : Platform Digest) (target : Target)
    (command : NativePatchCommand Digest) (now : Int) (record : AgentRecord Digest) :
    Answer Digest → Rows Digest → Prop where
  | commandConflict (found : record.command? command.commandId = some prior)
      (differs : prior.commandDigest ≠ command.commandDigest) :
      NativePatchOutcome platform target command now record
        (.conflict .commandConflict record.configurationRevision) (some record.withControl)
  | replayed (found : record.command? command.commandId = some prior)
      (same : prior.commandDigest = command.commandDigest) :
      NativePatchOutcome platform target command now record
        (.alreadyApplied (stateFromCommandRow target command.commandId prior))
        (some record.withControl)
  | revisionMismatch (fresh : record.command? command.commandId = none) :
      NativePatchOutcome platform target command now record
        (.conflict .revisionMismatch record.configurationRevision) (some record.withControl)
  | rejected (reason : RejectionReason) (fresh : record.command? command.commandId = none) :
      NativePatchOutcome platform target command now record
        (.rejected reason) (some record.withControl)
  | applied (allowed : PatchAllowed command record) (row : CommandRow Digest)
      (id : row.commandId = command.commandId) (digest : row.commandDigest = command.commandDigest)
      (revision : row.resultingRevision = record.configurationRevision + 1)
      (mode : row.resultingMode = record.managementMode) (status : row.resultStatus = .applied) :
      NativePatchOutcome platform target command now record
        (.applied (stateFromCommandRow target command.commandId row))
        (some ((record.withSettings
            (patchAgentSettings platform.parameterText (patchField command)
              record.settings)).recorded
          { record.controlRow with
            configurationRevision := record.configurationRevision + 1
            lastMutation := some
              { kind := .nativePatch, commandId := command.commandId
                commandDigest := command.commandDigest } } row))
  | noChange (allowed : PatchAllowed command record) (row : CommandRow Digest)
      (id : row.commandId = command.commandId) (digest : row.commandDigest = command.commandDigest)
      (status : row.resultStatus = .noChange) :
      NativePatchOutcome platform target command now record
        (.noChange (stateFromCommandRow target command.commandId row))
        (some (record.recorded
          { record.controlRow with
            lastMutation := some
              { kind := .nativePatch, commandId := command.commandId
                commandDigest := command.commandDigest } } row))

omit [DecidableEq Digest] in
theorem commitNativePatch_ok (allowed : PatchAllowed command record)
    (ran : (commitNativePatch platform target command record record.controlRow
      record.configurationRevision now).run (some record.withControl) = .ok (answer, after)) :
    NativePatchOutcome platform target command now record answer after := by
  simp only [commitNativePatch] at ran
  split at ran
  · simp only [Transaction.run_bind, updateSettings_run, updateControl_run,
      withSettings_configurationRevision, if_true] at ran
    obtain ⟨_, between, inserted, ended⟩ := Transaction.match_run_ok.mp ran
    obtain ⟨rfl, _⟩ := insertCommand_ok inserted
    cases ended
    exact .applied allowed _ rfl rfl rfl rfl rfl
  · simp only [Transaction.run_bind, Transaction.run_pure, if_true, updateControl_run] at ran
    obtain ⟨_, between, inserted, ended⟩ := Transaction.match_run_ok.mp ran
    obtain ⟨rfl, _⟩ := insertCommand_ok inserted
    cases ended
    exact .noChange allowed _ rfl rfl rfl

/-- A patch is refused or replayed, or it is let through and committed. -/
def ReachesCommit (platform : Platform Digest) (target : Target) (command : NativePatchCommand Digest) (now : Int)
    (record : AgentRecord Digest) (answer : Answer Digest) (after : Rows Digest) : Prop :=
  (NativePatchOutcome platform target command now record answer after ∧
    ∀ state, answer ≠ .applied state ∧ answer ≠ .noChange state) ∨
  PatchAllowed command record ∧ (commitNativePatch platform target command record record.controlRow
    record.configurationRevision now).run (some record.withControl) = .ok (answer, after)

omit [DecidableEq Digest] in
theorem freshNativePatch_reaches (fresh : record.command? command.commandId = none)
    (ran : (freshNativePatch platform target command record record.controlRow now).run
      (some record.withControl) = .ok (answer, after)) :
    ReachesCommit platform target command now record answer after := by
  simp only [freshNativePatch] at ran
  split at ran
  · contradiction
  · split at ran
    · cases ran
      exact .inl ⟨.revisionMismatch fresh, by simp⟩
    · rename_i expected
      obtain ⟨legacyRejectedFields, between, read, decided⟩ := Transaction.run_bind_ok.mp ran
      cases read
      split at decided
      · cases decided
        exact .inl ⟨.rejected _ fresh, by simp⟩
      · split at decided
        · cases decided
          exact .inl ⟨.rejected _ fresh, by simp⟩
        · rename_i policy
          have current := not_not.mp expected
          rw [current] at decided
          refine .inr ⟨⟨fresh, ?_, policy⟩, decided⟩
          intro revision given
          rw [given] at current
          exact current

theorem applyNativePatch_reaches (ran : (applyNativePatchInTransaction platform target command now).run rows =
      .ok (answer, after)) :
    ∃ record, rows = some record ∧ ReachesCommit platform target command now record answer after := by
  unfold applyNativePatchInTransaction at ran
  split at ran
  · contradiction
  · cases rows with
    | none => contradiction
    | some record =>
      refine ⟨record, rfl, ?_⟩
      simp only [Transaction.run_bind, selectAgent_run, insertControl_run, selectControl_run,
        findConfigurationCommand_run] at ran
      cases found : record.withControl.commands.find? fun row => row.commandId == command.commandId with
      | some prior =>
        rw [found] at ran
        by_cases same : prior.commandDigest = command.commandDigest
        · simp only [same, ne_eq, not_true_eq_false, if_false, Transaction.run_pure] at ran
          cases ran
          exact .inl ⟨.replayed found same, by simp⟩
        · simp only [same, ne_eq, not_false_eq_true, if_true, Transaction.run_pure] at ran
          cases ran
          exact .inl ⟨.commandConflict found same, by simp⟩
      | none =>
        rw [found] at ran
        exact freshNativePatch_reaches found ran

theorem applyNativePatch_ok (ran : (applyNativePatchInTransaction platform target command now).run rows =
      .ok (answer, after)) :
    ∃ record, rows = some record ∧ NativePatchOutcome platform target command now record answer after := by
  obtain ⟨record, present, ⟨outcome, -⟩ | ⟨allowed, committed⟩⟩ := applyNativePatch_reaches ran
  · exact ⟨record, present, outcome⟩
  · exact ⟨record, present, commitNativePatch_ok allowed committed⟩

end NativePatch

section Enrollment

variable {service : ReleaseService Digest} {input : EnrollmentInput Digest} {serviceNow : Int}

inductive EnrollmentOutcome (service : ReleaseService Digest) (target : Target)
    (input : EnrollmentInput Digest) (record : AgentRecord Digest) :
    Answer Digest → Rows Digest → Prop where
  | commandConflict (found : record.command? input.commandId = some prior)
      (differs : prior.commandDigest ≠ enrollmentDigest service.platform target input) :
      EnrollmentOutcome service target input record
        (.conflict .commandConflict record.configurationRevision) (some record.withControl)
  | replayed (found : record.command? input.commandId = some prior)
      (same : prior.commandDigest = enrollmentDigest service.platform target input) :
      EnrollmentOutcome service target input record
        (.alreadyApplied (stateFromCommandRow target input.commandId prior))
        (some record.withControl)
  | alreadyManaged (fresh : record.command? input.commandId = none)
      (managed : record.managementMode = .toolboxManaged) :
      EnrollmentOutcome service target input record
        (.alreadyManaged record.configurationRevision) (some record.withControl)
  | revisionMismatch (fresh : record.command? input.commandId = none) :
      EnrollmentOutcome service target input record
        (.conflict .revisionMismatch record.configurationRevision) (some record.withControl)
  | rejected (reason : RejectionReason) (fresh : record.command? input.commandId = none) :
      EnrollmentOutcome service target input record (.rejected reason) (some record.withControl)
  | applied (fresh : record.command? input.commandId = none)
      (native : record.managementMode = .native)
      (expected : input.expectedConfigurationRevision = record.configurationRevision)
      (row : CommandRow Digest) (id : row.commandId = input.commandId)
      (digest : row.commandDigest = enrollmentDigest service.platform target input)
      (revision : row.resultingRevision = record.configurationRevision + 1)
      (mode : row.resultingMode = .toolboxManaged) (status : row.resultStatus = .applied) :
      EnrollmentOutcome service target input record
        (.applied (stateFromCommandRow target input.commandId row))
        (some (record.recorded
          { managementMode := .toolboxManaged
            configurationRevision := record.configurationRevision + 1
            lastMutation := some
              { kind := .managedEnrollment, commandId := input.commandId
                commandDigest := enrollmentDigest service.platform target input } } row))

omit [DecidableEq Digest] in
theorem enrollControl_run (expectedRevision : Nat) (commandId : String) (commandDigest : Digest) :
    (enrollControl expectedRevision commandId commandDigest).run (some record.withControl) =
      if record.managementMode = .native ∧ record.configurationRevision = expectedRevision then
        .ok (some (record.configurationRevision + 1), some (record.withControlRow
          { managementMode := .toolboxManaged
            configurationRevision := record.configurationRevision + 1
            lastMutation := some { kind := .managedEnrollment, commandId, commandDigest } }))
      else .ok (none, some record.withControl) := by
  simp only [enrollControl, Transaction.run_attempt, AgentRecord.withControl, AgentRecord.withControlRow]
  rfl

theorem enrollToolboxManaged_ok
    (ran : (enrollToolboxManagedInTransaction service target input serviceNow now).run rows =
      .ok (answer, after)) :
    ∃ record, rows = some record ∧ EnrollmentOutcome service target input record answer after := by
  unfold enrollToolboxManagedInTransaction at ran
  cases rows with
  | none => contradiction
  | some record =>
    refine ⟨record, rfl, ?_⟩
    simp only [Transaction.run_bind, selectAgent_run, insertControl_run, selectControl_run,
      findConfigurationCommand_run] at ran
    cases found : record.withControl.commands.find? fun row => row.commandId == input.commandId with
    | some prior =>
      rw [found] at ran
      by_cases same : prior.commandDigest = enrollmentDigest service.platform target input
      · simp only [same, ne_eq, not_true_eq_false, if_false, Transaction.run_pure] at ran
        cases ran
        exact .replayed found same
      · simp only [same, ne_eq, not_false_eq_true, if_true, Transaction.run_pure] at ran
        cases ran
        exact .commandConflict found same
    | none =>
      have fresh : record.command? input.commandId = none := found
      rw [found] at ran
      simp only at ran
      split at ran
      · rename_i managed
        cases ran
        exact .alreadyManaged fresh managed
      · split at ran
        · cases ran
          exact .revisionMismatch fresh
        · rename_i expected
          split at ran
          · cases ran
            exact .rejected _ fresh
          · simp only [Transaction.run_bind, enrollControl_run] at ran
            by_cases enrolled : record.managementMode = .native ∧
                record.configurationRevision = input.expectedConfigurationRevision
            · simp only [if_pos enrolled, Transaction.run_bind, readAgentConfigurationSettingsDigest_run] at ran
              obtain ⟨_, between, inserted, ended⟩ := Transaction.match_run_ok.mp ran
              obtain ⟨rfl, _⟩ := insertCommand_ok inserted
              cases ended
              exact .applied fresh enrolled.1 enrolled.2.symm _ rfl rfl rfl rfl rfl
            · simp only [if_neg enrolled, Transaction.run_pure] at ran
              cases ran
              exact .revisionMismatch fresh

end Enrollment

section Bootstrap

variable {command : MaterializedBootstrap Digest}

/-- What a bootstrap that is applied makes of an agent's rows before it is recorded. -/
structure BootstrapWrites (platform : Platform Digest) (command : MaterializedBootstrap Digest)
    (base next : AgentRecord Digest) : Prop where
  settings : next.settings =
    replaceAgentConfigurationSettings platform.parameterText
      (fun key => command.settings.lookup key) base.settings
  control : next.controlRow = base.controlRow
  commands : next.commands = base.commands
  receipt : next.receipt = base.receipt
  cursors : next.cursors = base.cursors

/-- What lets a bootstrap through to its writes. -/
structure BootstrapAllowed (command : MaterializedBootstrap Digest) (base : AgentRecord Digest) :
    Prop where
  native : base.managementMode = .native
  fresh : base.command? command.commandId = none
  expected : ∀ revision ∈ command.expectedConfigurationRevision,
    revision = base.configurationRevision

inductive BootstrapOutcome (platform : Platform Digest) (target : Target)
    (command : MaterializedBootstrap Digest) : Rows Digest → Answer Digest → Rows Digest → Prop where
  | refused (record : AgentRecord Digest) (reason : RejectionReason) :
      BootstrapOutcome platform target command (some record) (.rejected reason)
        (some record.withControl)
  | replayed (record : AgentRecord Digest) (state : AppliedState Digest) :
      BootstrapOutcome platform target command (some record) (replayed record state)
        (some record.withControl)
  | applied (earlier : Rows Digest) (base next : AgentRecord Digest) (created : Bool)
      (present : earlier.getD (freshAgent command) = base)
      (allowed : BootstrapAllowed command base)
      (writes : BootstrapWrites platform command base next)
      (row : CommandRow Digest) (id : row.commandId = command.commandId)
      (digest : row.commandDigest = command.commandDigest)
      (revision : row.resultingRevision = base.configurationRevision + 1)
      (mode : row.resultingMode = .native) (status : row.resultStatus = .applied) :
      BootstrapOutcome platform target command earlier
        (.bootstrapped .applied created false (stateFromCommandRow target command.commandId row)
          command.name command.description)
        (some (next.recorded
          { next.controlRow with
            configurationRevision := base.configurationRevision + 1
            lastMutation := some
              { kind := .bootstrap, commandId := command.commandId
                commandDigest := command.commandDigest } } row))

theorem checkRevision_ok {expected : Option Nat} {current : Nat}
    (checked : checkRevision expected current = .ok ()) : ∀ revision ∈ expected, revision = current := by
  intro revision given
  unfold checkRevision at checked
  split at checked
  · contradiction
  · rename_i same
    rw [given] at same
    simpa using same

omit [DecidableEq Digest] in
theorem grantsFor_ok {fence : Option ProvisioningFence}
    (ran : (grantsFor platform target command fence now).run (some record) = .ok ((), after)) :
    ∃ tables, after = some (record.withGrants tables) ∨
      ∃ row, after = some ((record.withGrants tables).withFence row) := by
  unfold grantsFor at ran
  cases fence with
  | none =>
    obtain ⟨tables, same⟩ := writtenGrants_ok ran
    exact ⟨tables, .inl same⟩
  | some claimed =>
    obtain ⟨_, between, synced, ended⟩ := Transaction.run_bind_ok.mp ran
    obtain ⟨tables, rfl⟩ := writtenGrants_ok synced
    cases ended
    exact ⟨tables, .inr ⟨_, rfl⟩⟩

omit [DecidableEq Digest] in
theorem commitBootstrap_ok {base next : AgentRecord Digest} {created : Bool}
    (present : rows.getD (freshAgent command) = base) (allowed : BootstrapAllowed command base)
    (writes : BootstrapWrites platform command base next)
    (ran : (commitBootstrap platform target command created base.configurationRevision now).run
      (some next.withControl) = .ok (answer, after)) :
    BootstrapOutcome platform target command rows answer after := by
  simp only [commitBootstrap, Transaction.run_bind, readAgentConfigurationSettingsDigest_run] at ran
  obtain ⟨state, between, recorded, ended⟩ := Transaction.match_run_ok.mp ran
  obtain ⟨_, _, rfl, rfl⟩ := recordConfigurationMutation_ok recorded
  cases ended
  exact .applied rows base next created present allowed writes _ rfl rfl rfl rfl rfl

omit [DecidableEq Digest] in
theorem bootstrapNew_ok (present : rows.getD (freshAgent command) = record)
    (native : record.managementMode = .native) (fresh : record.command? command.commandId = none)
    (ran : (bootstrapNew platform target command record.lockedControl now).run
      (some record.withControl) = .ok (answer, after)) :
    BootstrapOutcome platform target command rows answer after := by
  simp only [bootstrapNew, AgentRecord.lockedControl] at ran
  obtain ⟨_, _, checked, ran⟩ := Transaction.run_bind_ok.mp ran
  obtain ⟨expected, rfl⟩ := Transaction.ofExcept_ok checked
  obtain ⟨_, replaced, written, ran⟩ := Transaction.run_bind_ok.mp ran
  obtain ⟨rfl, _⟩ := replaceSettings_ok written
  refine commitBootstrap_ok present ⟨native, fresh, checkRevision_ok expected⟩ ?_ ran
  exact ⟨rfl, rfl, rfl, rfl, rfl⟩

omit [DecidableEq Digest] in
theorem bootstrapToolbox_ok {ownerUserId : String} {fence : Option ProvisioningFence}
    {created : Bool} (present : rows.getD (freshAgent command) = record)
    (native : record.managementMode = .native)
    (fresh : record.command? command.commandId = none)
    (ran : (bootstrapToolbox platform target command ownerUserId fence created record.lockedControl
      now).run (some record.withControl) = .ok (answer, after)) :
    BootstrapOutcome platform target command rows answer after := by
  simp only [bootstrapToolbox, AgentRecord.lockedControl] at ran
  obtain ⟨_, _, checked, ran⟩ := Transaction.run_bind_ok.mp ran
  obtain ⟨expected, rfl⟩ := Transaction.ofExcept_ok checked
  have allowed : BootstrapAllowed command record := ⟨native, fresh, checkRevision_ok expected⟩
  obtain ⟨_, owned, renamed, ran⟩ := Transaction.run_bind_ok.mp ran
  simp only [updateOwner, Transaction.run_write, Option.map_some, withControl_withOwner,
    Except.ok.injEq, Prod.mk.injEq, true_and] at renamed
  subst renamed
  obtain ⟨_, replaced, written, ran⟩ := Transaction.run_bind_ok.mp ran
  obtain ⟨rfl, _⟩ := replaceSettings_ok written
  obtain ⟨_, granted, given, ran⟩ := Transaction.run_bind_ok.mp ran
  obtain ⟨tables, rfl | ⟨row, rfl⟩⟩ := grantsFor_ok given
  · rw [withControl_withGrants] at ran
    refine commitBootstrap_ok present allowed ?_ ran
    exact ⟨rfl, rfl, rfl, rfl, rfl⟩
  · rw [withControl_withGrants, withControl_withFence] at ran
    refine commitBootstrap_ok present allowed ?_ ran
    exact ⟨rfl, rfl, rfl, rfl, rfl⟩

/-- What a look for an earlier bootstrap of a toolbox agent can have found. -/
inductive ToolboxReplay (record : AgentRecord Digest) (replay : Option (CommandRow Digest)) :
    Option (Answer Digest) → Prop where
  | nothing (fresh : replay = none) : ToolboxReplay record replay none
  | replayed (state : AppliedState Digest) (seen : replay ≠ none ∨ record.fence ≠ none) :
      ToolboxReplay record replay (some (replayed record state))
  | superseded (seen : replay ≠ none ∨ record.fence ≠ none) :
      ToolboxReplay record replay (some (.rejected .bootstrapOwnerSuperseded))

omit [DecidableEq Digest] in
theorem replayCommand_ok {ownerUserId : String} {replay : Option (CommandRow Digest)}
    {changedReplay : Bool} {currentRevision : Nat} {found : Option (Answer Digest)}
    (given : replayToolbox.replayCommand target command ownerUserId record replay changedReplay
      currentRevision = .ok found) : ToolboxReplay record replay found := by
  unfold replayToolbox.replayCommand at given
  split at given
  · contradiction
  · cases replay with
    | none =>
      cases given
      exact .nothing rfl
    | some row =>
      simp only at given
      split at given
      · cases given
        exact .superseded (.inl (by simp))
      · cases given
        exact .replayed _ (.inl (by simp))

theorem replayToolbox_ok {ownerUserId : String} {fence : Option ProvisioningFence}
    {locked : LockedControl Digest} {replay : Option (CommandRow Digest)}
    {found : Option (Answer Digest)}
    (given : replayToolbox platform target command ownerUserId fence locked record replay =
      .ok found) : ToolboxReplay record replay found := by
  unfold replayToolbox at given
  cases current : record.fence with
  | none =>
    simp only [current] at given
    exact replayCommand_ok given
  | some row =>
    have seen : replay ≠ none ∨ record.fence ≠ none := .inr (by simp [current])
    cases fence with
    | none => simp [current] at given
    | some claimed =>
      simp only [current] at given
      split at given
      · contradiction
      · split at given
        · split at given
          · contradiction
          · split at given
            · contradiction
            · split at given
              · cases given
                exact .superseded seen
              · cases given
                exact .replayed _ seen
        · exact replayCommand_ok given

theorem existingNative_ok {locked : LockedControl Digest} {replay : Option (CommandRow Digest)}
    (given : bootstrapExistingNative platform target command locked record replay =
      .ok answer) : ∃ state, answer = replayed record state := by
  unfold bootstrapExistingNative at given
  cases replay with
  | some row =>
    simp only at given
    split at given
    · contradiction
    · cases given
      exact ⟨_, rfl⟩
  | none =>
    simp only at given
    cases checked : checkRevision command.expectedConfigurationRevision locked.control.configurationRevision with
    | error failure =>
      rw [checked] at given
      contradiction
    | ok checked' =>
      rw [checked] at given
      cases given
      exact ⟨_, rfl⟩

theorem bootstrapExisting_ok (ran : (bootstrapLocked platform target command false record.lockedControl now).run
      (some record.withControl) = .ok (answer, after)) :
    BootstrapOutcome platform target command (some record) answer after := by
  simp only [bootstrapLocked] at ran
  split at ran
  · cases ran
    exact .refused record _
  · rename_i mode
    simp only [Transaction.run_bind, selectAgent_run, findConfigurationCommand_run] at ran
    split at ran
    · simp only [Bool.false_eq_true, if_false] at ran
      obtain ⟨given, rfl⟩ := Transaction.ofExcept_ok ran
      obtain ⟨state, rfl⟩ := existingNative_ok given
      exact .replayed record state
    · split at ran
      · cases ran
        exact .refused record _
      · obtain ⟨found, between, looked, ran⟩ := Transaction.run_bind_ok.mp ran
        obtain ⟨given, rfl⟩ := Transaction.ofExcept_ok looked
        cases replayToolbox_ok given with
        | nothing fresh =>
          exact bootstrapToolbox_ok rfl (ManagementMode.native_of_ne mode) fresh ran
        | replayed state seen =>
          cases ran
          exact .replayed record state
        | superseded seen =>
          cases ran
          exact .refused record _

theorem bootstrapCreated_ok (ran : (bootstrapLocked platform target command true (freshAgent command).lockedControl
      now).run (some (freshAgent command).withControl) = .ok (answer, after)) :
    BootstrapOutcome platform target command none answer after := by
  have native : (freshAgent command).managementMode = .native := rfl
  have mode : (freshAgent command).lockedControl.control.managementMode ≠ .toolboxManaged := by
    change (freshAgent command).managementMode ≠ _
    simp [native]
  simp only [bootstrapLocked, if_neg mode, Transaction.run_bind, selectAgent_run,
    findConfigurationCommand_run] at ran
  split at ran
  · exact bootstrapNew_ok rfl native rfl ran
  · have unsealed : ((freshAgent command).withControl.receipt.any fun row =>
        row.status == .applied) = false := rfl
    simp only [unsealed, Bool.false_eq_true, if_false] at ran
    obtain ⟨found, between, looked, ran⟩ := Transaction.run_bind_ok.mp ran
    obtain ⟨given, rfl⟩ := Transaction.ofExcept_ok looked
    cases replayToolbox_ok given with
    | nothing fresh => exact bootstrapToolbox_ok rfl native rfl ran
    | replayed state seen => rcases seen with seen | seen <;> exact absurd rfl seen
    | superseded seen => rcases seen with seen | seen <;> exact absurd rfl seen

theorem bootstrap_ok (ran : (bootstrapInTransaction platform target command now).run rows = .ok (answer, after)) :
    BootstrapOutcome platform target command rows answer after := by
  cases rows with
  | none =>
    simp only [bootstrapInTransaction, insertAgent, Transaction.run_bind,
      Transaction.run_attempt, lockAgentAndConfigurationControl_run] at ran
    exact bootstrapCreated_ok ran
  | some record =>
    simp only [bootstrapInTransaction, insertAgent, Transaction.run_bind,
      Transaction.run_attempt, lockAgentAndConfigurationControl_run] at ran
    exact bootstrapExisting_ok ran

end Bootstrap

section Release

variable {service : ReleaseService Digest} {prepared : PreparedApply Digest}
variable {configurationRevision : Nat} {result : ReleaseResult Digest}

/-- The settings that a release's command makes of an agent's. -/
def releasedSettings (service : ReleaseService Digest) (command : ApplyCommand Digest)
    (settings : Settings) : Settings :=
  match command.personal with
  | none =>
    applyLegacyManagedSettings service.platform.parameterText
      (fun key => command.signedManifest.managedSettings.lookup key) settings
  | some personal =>
    replaceReleaseOwnedSettings service.platform.parameterText
      (fun key => (Json.object personal.settings).get? key.name) settings

/-- The cursor of the channel that a command's feed is published on. -/
def feedCursor (prepared : PreparedApply Digest) (record : AgentRecord Digest) : Option (FeedCursorRow Digest) :=
  record.cursors.find? (cursorFor prepared.command.signedManifest.environment
    prepared.command.signedFeed.channel)

/-- The cursors once the feed of a command has been seen. -/
def cursorsAfter (prepared : PreparedApply Digest) (record : AgentRecord Digest) : List (FeedCursorRow Digest) :=
  let feed := prepared.command.signedFeed
  if (feedCursor prepared record).any fun row =>
      row.highestFeedSequence == feed.feedSequence &&
        row.highestFeedDigest == prepared.feedDigest then
    record.cursors
  else
    putCursor
      { environment := feed.environment, channel := feed.channel
        highestFeedSequence := feed.feedSequence, highestFeedDigest := prepared.feedDigest }
      record.cursors

/-- What every command that is let through has passed. -/
structure ReleaseAccepted (prepared : PreparedApply Digest) (record : AgentRecord Digest) :
    Prop where
  owner : record.ownerUserId = some prepared.command.assignment.toolboxUserId
  environment : ∀ row ∈ record.receipt,
    row.environment = prepared.command.signedManifest.environment
  feed : checkFeedOrder prepared (feedCursor prepared record) = .ok ()

/-- What a command of the sequence that is applied already has passed. -/
structure ReleaseRetried (service : ReleaseService Digest) (prepared : PreparedApply Digest)
    (record : AgentRecord Digest) (current : ReceiptRow Digest) : Prop where
  held : record.receipt = some current
  sequence : current.appliedReleaseSequence = prepared.command.signedManifest.releaseSequence
  manifest : current.manifestDigest = prepared.publication.manifestDigest
  releaseId : current.appliedReleaseId = prepared.command.signedManifest.releaseId
  retry : assertRetryMatchesReceipt service current prepared.command = .ok ()

/-- The receipt's break-glass provenance, if it has one, is in order. -/
def Proven (service : ReleaseService Digest) (row : ReceiptRow Digest) : Prop :=
  ∃ given, baselineOverrideFromReceipt service row = .ok given

inductive ReleaseOutcome (service : ReleaseService Digest) (now : Int)
    (prepared : PreparedApply Digest) (record : AgentRecord Digest) :
    ReleaseResult Digest → AgentRecord Digest → Prop where
  | kept (retried : ReleaseRetried service prepared record current)
      (intact : settingsHashFromAgent service record.settings current.personalBaseline =
        current.settingsHash)
      (moved : receipt = current ∨ receipt = advancedReceipt prepared current)
      (expected : assertExpectedSettingsHash prepared.command current.settingsHash = .ok ())
      (proven : Proven service current) (evidence : ReleaseEvidence Digest) :
      ReleaseOutcome service now prepared record
        { evidence, idempotent := true, repaired := false }
        ((record.withCursors (cursorsAfter prepared record)).withReceipt receipt)
  | repaired (retried : ReleaseRetried service prepared record current)
      (drifted : settingsHashFromAgent service record.settings current.personalBaseline ≠
        current.settingsHash)
      (restored : settingsHashFromAgent service
        (releasedSettings service prepared.command record.settings) prepared.command.personal =
          current.settingsHash)
      (expected : assertExpectedSettingsHash prepared.command current.settingsHash = .ok ())
      (proven : Proven service current) (tables : GrantTables) (evidence : ReleaseEvidence Digest) :
      ReleaseOutcome service now prepared record
        { evidence, idempotent := false, repaired := true }
        ((((record.withSettings (releasedSettings service prepared.command
          record.settings)).withGrants tables).withCursors (cursorsAfter prepared record)).withReceipt
            (advancedReceipt prepared current))
  | replaced
      (other : ∀ row ∈ record.receipt,
        row.appliedReleaseSequence ≠ prepared.command.signedManifest.releaseSequence)
      (order : checkPublicationOrder prepared record.receipt = .ok ())
      (hash : assertExpectedSettingsHash prepared.command (settingsHashFromAgent service
        (releasedSettings service prepared.command record.settings) prepared.command.personal) =
          .ok ())
      (proven : Proven service (receiptFor service now prepared (settingsHashFromAgent service
        (releasedSettings service prepared.command record.settings) prepared.command.personal)))
      (tables : GrantTables) (evidence : ReleaseEvidence Digest) :
      ReleaseOutcome service now prepared record
        { evidence, idempotent := false, repaired := false }
        ((((record.withCursors (cursorsAfter prepared record)).withSettings
          (releasedSettings service prepared.command record.settings)).withGrants tables).withReceipt
            (receiptFor service now prepared (settingsHashFromAgent service
              (releasedSettings service prepared.command record.settings)
              prepared.command.personal)))

omit [DecidableEq Digest] in
theorem releaseStep_ok {α : Type} {given : Except ReleaseError α} {value : α}
    (ran : (releaseStep given : Tx Digest α).run rows = .ok (value, after)) :
    given = .ok value ∧ after = rows := by
  cases given with
  | error error => contradiction
  | ok result =>
    cases ran
    exact ⟨rfl, rfl⟩

omit [DecidableEq Digest] in
theorem applyCommandSettings_ok {command : ApplyCommand Digest} {settings : Settings}
    (ran : (applyCommandSettings service target now command configurationRevision).run
      (some record.withControl) = .ok (settings, after)) :
    settings = releasedSettings service command record.settings ∧
      ∃ tables, after = some ((record.withSettings settings).withGrants tables).withControl := by
  unfold applyCommandSettings at ran
  cases personal : command.personal with
  | none =>
    simp only [personal] at ran
    obtain ⟨_, replaced, written, ran⟩ := Transaction.run_bind_ok.mp ran
    obtain ⟨rfl, _⟩ := replaceSettings_ok written
    cases ran
    refine ⟨by simp only [releasedSettings, personal]; rfl, record.grantTables, rfl⟩
  | some baseline =>
    simp only [personal] at ran
    obtain ⟨_, replaced, written, ran⟩ := Transaction.run_bind_ok.mp ran
    obtain ⟨rfl, _⟩ := replaceSettings_ok written
    obtain ⟨_, synced, granted, ran⟩ := Transaction.run_bind_ok.mp ran
    obtain ⟨tables, rfl⟩ := writtenGrants_ok granted
    cases ran
    refine ⟨by simp only [releasedSettings, personal]; rfl, tables, rfl⟩

theorem writeFeedCursor_ok {earlier : AgentRecord Digest} (cursors : record.cursors = earlier.cursors)
    (ran : (writeFeedCursor prepared (feedCursor prepared earlier)).run (some record.withControl) =
      .ok ((), after)) : after = some (record.withCursors (cursorsAfter prepared earlier)).withControl := by
  simp only [writeFeedCursor] at ran
  simp only [cursorsAfter]
  split at ran
  · rename_i seen
    rw [if_pos seen, ← cursors]
    cases ran
    rfl
  · rename_i unseen
    rw [if_neg unseen, ← cursors]
    cases ran
    rfl

omit [DecidableEq Digest] in
theorem repairedHash_ok {repaired : Bool} {command : ApplyCommand Digest} {current hash : Digest}
    (ran : (repairedHash service target now command configurationRevision repaired current).run
      (some record.withControl) = .ok (hash, after)) :
    (repaired = false ∧ hash = current ∧ after = some record.withControl) ∨ (repaired = true ∧
        hash = settingsHashFromAgent service (releasedSettings service command record.settings) command.personal ∧
        ∃ tables, after = some ((record.withSettings
          (releasedSettings service command record.settings)).withGrants tables).withControl) := by
  cases repaired with
  | false =>
    cases ran
    exact .inl ⟨rfl, rfl, rfl⟩
  | true =>
    rw [repairedHash, if_pos rfl] at ran
    obtain ⟨settings, between, applied, ended⟩ := Transaction.run_bind_ok.mp ran
    obtain ⟨rfl, tables, rfl⟩ := applyCommandSettings_ok applied
    cases ended
    exact .inr ⟨rfl, rfl, tables, rfl⟩

theorem evidenceFromReceipt_proven {agentId : String} {row : ReceiptRow Digest} {evidence : ReleaseEvidence Digest}
    (given : evidenceFromReceipt service agentId row = .ok evidence) : Proven service row := by
  obtain ⟨baselineOverride, read, _⟩ := Transaction.except_bind_ok.mp given
  exact ⟨baselineOverride, read⟩

theorem advanceReceipt_ok {current : ReceiptRow Digest} {repaired : Bool}
    (ran : (advanceReceipt service target prepared current repaired).run (some record.withControl) =
      .ok (result, after)) :
    Proven service current ∧ ((repaired = false ∧ (∃ evidence, result = { evidence, idempotent := true, repaired := false }) ∧
      after = some record.withControl) ∨ ((∃ evidence, result = { evidence, idempotent := !repaired, repaired }) ∧
        after = some (record.withReceipt (advancedReceipt prepared current)).withControl)) := by
  simp only [advanceReceipt] at ran
  split at ran
  · obtain ⟨_, written, wrote, ran⟩ := Transaction.run_bind_ok.mp ran
    cases wrote
    obtain ⟨evidence, _, given, ended⟩ := Transaction.run_bind_ok.mp ran
    obtain ⟨read, rfl⟩ := releaseStep_ok given
    cases ended
    have proven : Proven service (advancedReceipt prepared current) :=
      evidenceFromReceipt_proven read
    exact ⟨proven, .inr ⟨⟨evidence, rfl⟩, rfl⟩⟩
  · rename_i same
    obtain ⟨evidence, _, given, ended⟩ := Transaction.run_bind_ok.mp ran
    obtain ⟨read, rfl⟩ := releaseStep_ok given
    cases ended
    exact ⟨evidenceFromReceipt_proven read, .inl ⟨by simpa using (not_or.mp same).1, ⟨evidence, rfl⟩, rfl⟩⟩

theorem retryRelease_ok {current : ReceiptRow Digest} (held : record.receipt = some current)
    (sequence : current.appliedReleaseSequence = prepared.command.signedManifest.releaseSequence)
    (ran : (retryRelease service target now prepared configurationRevision record.withControl current
      (feedCursor prepared record)).run (some record.withControl) = .ok (result, after)) :
    ∃ next, after = some next.withControl ∧ ReleaseOutcome service now prepared record result next := by
  simp only [retryRelease] at ran
  split at ran
  · contradiction
  · split at ran
    · contradiction
    · rename_i same
      have matching := not_or.mp same
      obtain ⟨_, _, checked, repairing⟩ := Transaction.run_bind_ok.mp ran
      obtain ⟨retry, rfl⟩ := releaseStep_ok checked
      have retried : ReleaseRetried service prepared record current :=
        ⟨held, sequence, not_not.mp matching.1, not_not.mp matching.2, retry⟩
      obtain ⟨hash, between, repair, hashing⟩ := Transaction.run_bind_ok.mp repairing
      obtain ⟨_, _, matched, feeding⟩ := Transaction.run_bind_ok.mp hashing
      obtain ⟨expected, rfl⟩ := releaseStep_ok matched
      rcases repairedHash_ok repair with ⟨intact, rfl, rfl⟩ | ⟨drifted, rfl, tables, rfl⟩
      · simp only [intact, Bool.false_eq_true, false_and, if_false] at feeding
        obtain ⟨_, seen, fed, ending⟩ := Transaction.run_bind_ok.mp feeding
        obtain rfl := writeFeedCursor_ok rfl fed
        have whole : settingsHashFromAgent service record.settings current.personalBaseline =
            current.settingsHash := not_not.mp (of_decide_eq_false intact)
        obtain ⟨proven, advanced⟩ := advanceReceipt_ok ending
        rcases advanced with ⟨_, ⟨evidence, rfl⟩, rfl⟩ | ⟨⟨evidence, rfl⟩, rfl⟩
        · have receipt : record.withCursors (cursorsAfter prepared record) =
              (record.withCursors (cursorsAfter prepared record)).withReceipt current := by
            simp only [AgentRecord.withCursors, AgentRecord.withReceipt, held]
          exact ⟨_, rfl, receipt ▸ .kept retried whole (.inl rfl) expected proven evidence⟩
        · exact ⟨_, rfl, .kept retried whole (.inr rfl) expected proven evidence⟩
      · simp only [drifted, true_and] at feeding
        split at feeding
        · contradiction
        · rename_i restored
          obtain ⟨_, seen, fed, ending⟩ := Transaction.run_bind_ok.mp feeding
          have cursors : ((record.withSettings (releasedSettings service prepared.command
              record.settings)).withGrants tables).cursors = record.cursors := rfl
          obtain rfl := writeFeedCursor_ok cursors fed
          have whole := not_not.mp restored
          rw [whole] at expected
          obtain ⟨proven, advanced⟩ := advanceReceipt_ok ending
          rcases advanced with ⟨kept, _, _⟩ | ⟨⟨evidence, rfl⟩, rfl⟩
          · contradiction
          · exact ⟨_, rfl, .repaired retried (of_decide_eq_true drifted) whole expected proven tables evidence⟩

theorem replaceRelease_ok (other : ∀ row ∈ record.receipt,
      row.appliedReleaseSequence ≠ prepared.command.signedManifest.releaseSequence)
    (ran : (replaceRelease service target now prepared configurationRevision record.receipt
      (feedCursor prepared record)).run (some record.withControl) = .ok (result, after)) :
    ∃ next, after = some next.withControl ∧ ReleaseOutcome service now prepared record result next := by
  simp only [replaceRelease] at ran
  split at ran
  · contradiction
  · obtain ⟨_, _, checked, feeding⟩ := Transaction.run_bind_ok.mp ran
    obtain ⟨order, rfl⟩ := releaseStep_ok checked
    obtain ⟨_, seen, fed, applying⟩ := Transaction.run_bind_ok.mp feeding
    obtain rfl := writeFeedCursor_ok rfl fed
    obtain ⟨settings, written, applied, hashing⟩ := Transaction.run_bind_ok.mp applying
    obtain ⟨rfl, tables, rfl⟩ := applyCommandSettings_ok applied
    obtain ⟨_, _, matched, receiving⟩ := Transaction.run_bind_ok.mp hashing
    obtain ⟨hash, rfl⟩ := releaseStep_ok matched
    obtain ⟨_, received, wrote, proving⟩ := Transaction.run_bind_ok.mp receiving
    cases wrote
    obtain ⟨evidence, _, given, ended⟩ := Transaction.run_bind_ok.mp proving
    obtain ⟨read, rfl⟩ := releaseStep_ok given
    cases ended
    exact ⟨_, rfl, .replaced other order hash (evidenceFromReceipt_proven read) tables evidence⟩

theorem applyPrepared_ok (ran : (applyPreparedAgentRelease service target now prepared configurationRevision).run
      (some record.withControl) = .ok (result, after)) :
    ReleaseAccepted prepared record ∧ ∃ next, after = some next.withControl ∧
      ReleaseOutcome service now prepared record result next := by
  simp only [applyPreparedAgentRelease] at ran
  obtain ⟨found, _, read, ran⟩ := Transaction.run_bind_ok.mp ran
  cases read
  simp only [id_eq] at ran
  split at ran
  · contradiction
  · rename_i owner
    split at ran
    · contradiction
    · rename_i environment
      obtain ⟨_, _, checked, applying⟩ := Transaction.run_bind_ok.mp ran
      obtain ⟨feed, rfl⟩ := releaseStep_ok checked
      have accepted : ReleaseAccepted prepared record := by
        refine ⟨not_not.mp owner, ?_, feed⟩
        intro row held
        by_contra differs
        apply environment
        rw [show record.withControl.receipt = record.receipt from rfl, held]
        simpa using differs
      refine ⟨accepted, ?_⟩
      cases same : record.withControl.receipt.filter fun row =>
          row.appliedReleaseSequence = prepared.command.signedManifest.releaseSequence with
      | some current =>
        obtain ⟨held, sequence⟩ := Option.filter_eq_some_iff.mp same
        rw [same] at applying
        exact retryRelease_ok held (of_decide_eq_true sequence) applying
      | none =>
        rw [same] at applying
        refine replaceRelease_ok ?_ applying
        intro row held
        simpa using Option.filter_eq_none_iff.mp same row held

end Release

section ManagedRelease

variable {authority : Authority Digest} {prepared : PreparedApply Digest}

/-- A managed release keeps the rows' revision with all else but the receipt and the cursors,
or it is a command of its own. -/
inductive ManagedReleaseOutcome (authority : Authority Digest) (prepared : PreparedApply Digest)
    (now : Int) (record : AgentRecord Digest) : Answer Digest → Rows Digest → Prop where
  | unchanged (accepted : ReleaseAccepted prepared record) (next : AgentRecord Digest)
      (released : ReleaseOutcome authority.service now prepared record result next)
      (idempotent : result.idempotent = true) (unrepaired : result.repaired = false)
      (state : AppliedState Digest) :
      ManagedReleaseOutcome authority prepared now record (.released result state)
        (some next.withControl)
  | recorded (accepted : ReleaseAccepted prepared record) (next : AgentRecord Digest)
      (released : ReleaseOutcome authority.service now prepared record result next)
      (changed : ¬(result.idempotent = true ∧ result.repaired = false))
      (expected : ∀ revision ∈ prepared.command.expectedConfigurationRevision,
        revision = record.configurationRevision)
      (state : AppliedState Digest) (last : LastMutation Digest) (row : CommandRow Digest)
      (revision : row.resultingRevision = record.configurationRevision + 1)
      (mode : row.resultingMode = record.managementMode) (status : row.resultStatus = .applied) :
      ManagedReleaseOutcome authority prepared now record (.released result state)
        (some (next.recorded
          { next.controlRow with
            configurationRevision := record.configurationRevision + 1
            lastMutation := some last } row))

omit [DecidableEq Digest] in
@[simp] theorem withCursors_controlRow (cursors : List (FeedCursorRow Digest)) :
    (record.withCursors cursors).controlRow = record.controlRow := rfl

omit [DecidableEq Digest] in
@[simp] theorem withReceipt_controlRow (receipt : ReceiptRow Digest) :
    (record.withReceipt receipt).controlRow = record.controlRow := rfl

variable {service : ReleaseService Digest} {result : ReleaseResult Digest}
variable {next : AgentRecord Digest}

theorem ReleaseOutcome.controlRow (released : ReleaseOutcome service now prepared record result next) :
    next.controlRow = record.controlRow := by
  cases released <;> rfl

theorem ReleaseOutcome.commands (released : ReleaseOutcome service now prepared record result next) :
    next.commands = record.commands := by
  cases released <;> rfl

theorem evidenceFromReceipt_ok {agentId : String} {row : ReceiptRow Digest} {evidence : ReleaseEvidence Digest}
    (given : evidenceFromReceipt service agentId row = .ok evidence) :
    evidence.releaseId = row.appliedReleaseId ∧ evidence.releaseSequence = row.appliedReleaseSequence ∧
      evidence.manifestDigest = row.manifestDigest := by
  obtain ⟨baselineOverride, _, ended⟩ := Transaction.except_bind_ok.mp given
  cases ended
  exact ⟨rfl, rfl, rfl⟩

/-- The evidence names the receipt's release, and it is not drifted only where the live
settings have the receipt's digest. -/
theorem getEvidence_ok {agentId : String} {evidence : ReleaseEvidence Digest}
    (given : getEvidence service agentId record = .ok (some evidence)) :
    ∃ row, record.receipt = some row ∧ evidence.releaseId = row.appliedReleaseId ∧
      evidence.releaseSequence = row.appliedReleaseSequence ∧ evidence.manifestDigest = row.manifestDigest ∧
      (evidence.drifted = false →
        settingsHashFromAgent service record.settings row.personalBaseline = row.settingsHash) := by
  obtain ⟨expectedEnvironment, _, given⟩ := Transaction.except_bind_ok.mp given
  cases held : record.receipt with
  | none =>
    rw [held] at given
    cases given
  | some row =>
    refine ⟨row, rfl, ?_⟩
    simp only [held] at given
    split at given
    · contradiction
    · obtain ⟨found, read, given⟩ := Transaction.except_bind_ok.mp given
      obtain ⟨releaseId, sequence, manifest⟩ := evidenceFromReceipt_ok read
      split at given
      · rename_i same
        cases given
        exact ⟨releaseId, sequence, manifest, fun _ => same⟩
      · cases given
        exact ⟨releaseId, sequence, manifest, nofun⟩

theorem requiresMutation_ok {agentId : String}
    (ran : (preparedReleaseRequiresConfigurationMutation service agentId prepared).run
      (some record) = .ok (false, after)) :
    after = some record ∧ ∃ row, record.receipt = some row ∧
      row.appliedReleaseSequence = prepared.command.signedManifest.releaseSequence ∧
      settingsHashFromAgent service record.settings row.personalBaseline = row.settingsHash := by
  simp only [preparedReleaseRequiresConfigurationMutation, getEvidenceInTransaction] at ran
  obtain ⟨evidence, between, read, ran⟩ := Transaction.run_bind_ok.mp ran
  obtain ⟨_, _, selected, stepped⟩ := Transaction.run_bind_ok.mp read
  cases selected
  simp only [id_eq] at stepped
  obtain ⟨given, rfl⟩ := releaseStep_ok stepped
  cases evidence with
  | none => simp at ran
  | some evidence =>
    obtain ⟨row, held, releaseId, sequence, manifest, same⟩ := getEvidence_ok given
    simp only [Transaction.run_pure, Except.ok.injEq, Prod.mk.injEq, decide_eq_false_iff_not,
      not_or, not_not] at ran
    refine ⟨ran.2.symm, row, held, ?_, same ?_⟩
    · rw [← sequence]
      exact ran.1.2.1
    · simpa using ran.1.2.2.2

theorem checkReleaseRevision_ok {replay : Option (CommandRow Digest)} {currentRevision : Nat}
    (ran : (checkReleaseRevision authority prepared currentRevision replay).run (some record) = .ok ((), after)) :
    after = some record ∧ ((∀ revision ∈ prepared.command.expectedConfigurationRevision,
          revision = currentRevision) ∨ ∃ row, record.receipt = some row ∧
          row.appliedReleaseSequence = prepared.command.signedManifest.releaseSequence ∧
          settingsHashFromAgent authority.service record.settings row.personalBaseline = row.settingsHash) := by
  simp only [checkReleaseRevision] at ran
  split at ran
  · split at ran
    · obtain ⟨mutates, between, asked, ran⟩ := Transaction.run_bind_ok.mp ran
      cases mutates with
      | true => contradiction
      | false =>
        cases ran
        obtain ⟨rfl, row, held⟩ := requiresMutation_ok asked
        exact ⟨rfl, .inr ⟨row, held⟩⟩
    · contradiction
  · rename_i same
    cases ran
    refine ⟨rfl, .inl fun revision given => ?_⟩
    rw [given] at same
    simpa using same

theorem ReleaseOutcome.seen {row : ReceiptRow Digest}
    (released : ReleaseOutcome service now prepared record result next) (held : record.receipt = some row)
    (sequence : row.appliedReleaseSequence = prepared.command.signedManifest.releaseSequence)
    (same : settingsHashFromAgent service record.settings row.personalBaseline =
      row.settingsHash) : result.idempotent = true ∧ result.repaired = false := by
  cases released with
  | kept => exact ⟨rfl, rfl⟩
  | repaired retried drifted =>
    obtain rfl := Option.some.inj (held.symm.trans retried.held)
    exact absurd same drifted
  | replaced other => exact absurd sequence (other row held)

theorem applyManagedRelease_ok (ran : (applyManagedReleaseInTransaction authority prepared now).run rows =
      .ok (answer, after)) :
    ∃ record, rows = some record ∧ ManagedReleaseOutcome authority prepared now record answer after := by
  simp only [applyManagedReleaseInTransaction] at ran
  obtain ⟨present, _, read, locking⟩ := Transaction.run_bind_ok.mp ran
  cases read
  cases rows with
  | none => contradiction
  | some record =>
    refine ⟨record, rfl, ?_⟩
    simp only [Option.isSome_some, id_eq] at locking
    obtain ⟨locked, _, lockedRun, checking⟩ := Transaction.run_bind_ok.mp locking
    rw [lockAgentAndConfigurationControl_run] at lockedRun
    cases lockedRun
    split at checking
    · contradiction
    · obtain ⟨replay, _, found, checking⟩ := Transaction.run_bind_ok.mp checking
      cases found
      split at checking
      · contradiction
      · obtain ⟨_, _, revised, applying⟩ := Transaction.run_bind_ok.mp checking
        obtain ⟨rfl, expected⟩ := checkReleaseRevision_ok revised
        obtain ⟨result, _, applied, digesting⟩ := Transaction.run_bind_ok.mp applying
        obtain ⟨accepted, next, rfl, released⟩ := applyPrepared_ok applied
        obtain ⟨digest, _, hashed, ending⟩ := Transaction.run_bind_ok.mp digesting
        cases hashed
        split at ending
        · rename_i unchanged
          cases ending
          exact .unchanged accepted next released unchanged.1 unchanged.2 _
        · rename_i changed
          obtain ⟨state, _, recorded, ended⟩ := Transaction.run_bind_ok.mp ending
          obtain ⟨_, _, rfl, rfl⟩ := recordConfigurationMutation_ok recorded
          cases ended
          have matching : ∀ revision ∈ prepared.command.expectedConfigurationRevision,
              revision = record.configurationRevision := by
            rcases expected with matching | ⟨row, held, sequence, same⟩
            · exact matching
            · exact absurd (released.seen held sequence same) changed
          exact .recorded accepted next released changed matching _ _ _ rfl rfl rfl

end ManagedRelease

section Calls

variable {authority : Authority Digest} {call : Call Digest} {schema : SettingKey → Json → Bool}

omit [DecidableEq Digest] in
theorem materialize_ok {input : BootstrapInput} {command : MaterializedBootstrap Digest}
    (given : materialize platform target schema input = .ok command) :
    command.commandId = input.commandId ∧
      command.expectedConfigurationRevision = input.expectedConfigurationRevision ∧
      command.profile = input.profile ∧ command.requestDigest = input.requestDigest := by
  unfold materialize at given
  split at given
  · contradiction
  · split at given
    · contradiction
    · obtain ⟨parsed, _, ended⟩ := Transaction.except_bind_ok.mp given
      cases ended
      exact ⟨rfl, rfl, rfl, rfl⟩

omit [DecidableEq Digest] in
theorem materializeNativePatch_ok {input : NativePatchInput} {command : NativePatchCommand Digest}
    (given : materializeNativePatchCommand platform target schema input = .ok command) :
    command.commandId = input.commandId ∧
      command.expectedConfigurationRevision = input.expectedConfigurationRevision := by
  obtain ⟨parsed, _, again⟩ := Transaction.except_bind_ok.mp given
  obtain ⟨patch, _, ended⟩ := Transaction.except_bind_ok.mp again
  cases ended
  exact ⟨rfl, rfl⟩

/-- What a release's command has passed before its transaction begins. -/
structure ReleasePrepared (authority : Authority Digest) (command : ApplyCommand Digest)
    (serviceNow : Int) (prepared : PreparedApply Digest) : Prop where
  carries : prepared.command = command
  expected : authority.service.expectedEnvironment = .ok command.signedManifest.environment
  environment : command.signedFeed.environment = command.signedManifest.environment
  manifestSignature :
    authority.service.signature command.signedManifest.document = .valid
  feedSignature : authority.service.signature command.signedFeed.document = .valid
  publication : validatePublication authority.service command serviceNow =
    .ok prepared.publication
  feedDigest : prepared.feedDigest = digestValue authority.service command.signedFeed.document
  personal : validatePersonalBaselineCommand authority.service command serviceNow = .ok ()
  ownership : assertManagedReleaseSettingsOwnership prepared = .ok ()

omit [DecidableEq Digest] in
theorem verifySignedValue_ok {service : ReleaseService Digest} {document : Json}
    {invalidCode : String} (given : verifySignedValue service document invalidCode = .ok ()) :
    service.signature document = .valid := by
  unfold verifySignedValue at given
  split at given
  · assumption
  · contradiction
  · contradiction

omit [DecidableEq Digest] in
theorem validateApplyEnvelope_ok {agentId : String} {command : ApplyCommand Digest}
    {expectedEnvironment : ReleaseEnvironment}
    (given : validateApplyEnvelope agentId command expectedEnvironment = .ok ()) :
    command.signedManifest.environment = expectedEnvironment ∧
      command.signedFeed.environment = expectedEnvironment := by
  unfold validateApplyEnvelope at given
  split at given
  · contradiction
  · split at given
    · contradiction
    · rename_i environments
      simp only [not_or, not_not] at environments
      exact environments.2

theorem prepareManagedRelease_ok {command : ApplyCommand Digest} {serviceNow : Int}
    {prepared : PreparedApply Digest} (given : prepareManagedRelease authority command serviceNow = .ok prepared) :
    ReleasePrepared authority command serviceNow prepared := by
  obtain ⟨checked, preparing, owning⟩ := Transaction.except_bind_ok.mp given
  obtain ⟨_, owned, ended⟩ := Transaction.except_bind_ok.mp owning
  cases ended
  obtain ⟨_, _, preparing⟩ := Transaction.except_bind_ok.mp preparing
  obtain ⟨expectedEnvironment, expected, preparing⟩ := Transaction.except_bind_ok.mp preparing
  obtain ⟨_, envelope, preparing⟩ := Transaction.except_bind_ok.mp preparing
  obtain ⟨manifestEnvironment, feedEnvironment⟩ := validateApplyEnvelope_ok envelope
  obtain ⟨_, manifest, preparing⟩ := Transaction.except_bind_ok.mp preparing
  obtain ⟨_, feed, preparing⟩ := Transaction.except_bind_ok.mp preparing
  obtain ⟨_, _, preparing⟩ := Transaction.except_bind_ok.mp preparing
  obtain ⟨publication, published, preparing⟩ := Transaction.except_bind_ok.mp preparing
  simp only at preparing
  split at preparing
  · contradiction
  · obtain ⟨_, personal, preparing⟩ := Transaction.except_bind_ok.mp preparing
    have same : prepared = ⟨command, publication, digestValue authority.service command.signedFeed.document⟩ := by
      split at preparing
      · obtain ⟨_, _, ended⟩ := Transaction.except_bind_ok.mp preparing
        cases ended
        rfl
      · cases preparing
        rfl
    subst same
    exact ⟨rfl, manifestEnvironment ▸ expected, feedEnvironment.trans manifestEnvironment.symm,
      verifySignedValue_ok manifest, verifySignedValue_ok feed, published, rfl, personal, owned⟩

inductive CallOutcome (authority : Authority Digest) (call : Call Digest) :
    Rows Digest → Answer Digest → Rows Digest → Prop where
  | bootstrap (asked : call.request = .bootstrap input)
      (materialized : materialize authority.platform authority.target authority.schema input =
        .ok command)
      (outcome : BootstrapOutcome authority.platform authority.target command earlier given later) :
      CallOutcome authority call earlier given later
  | nativePatch (asked : call.request = .apply input)
      (materialized : materializeNativePatchCommand authority.platform authority.target
        authority.schema input = .ok command)
      (outcome : NativePatchOutcome authority.platform authority.target command call.now agent
        given later) :
      CallOutcome authority call (some agent) given later
  | enrollment (asked : call.request = .enrollToolboxManaged input)
      (outcome : EnrollmentOutcome authority.service authority.target input agent given later) :
      CallOutcome authority call (some agent) given later
  | managedRelease (asked : call.request = .applyManagedRelease command)
      (preparation : prepareManagedRelease authority command call.serviceNow = .ok prepared)
      (outcome : ManagedReleaseOutcome authority prepared call.now agent given later) :
      CallOutcome authority call (some agent) given later

theorem program_ok (ran : (program authority call).run rows = .ok (answer, after)) :
    CallOutcome authority call rows answer after := by
  unfold program at ran
  split at ran
  · rename_i input asked
    obtain ⟨command, _, given, bootstrapped⟩ := Transaction.run_bind_ok.mp ran
    obtain ⟨materialized, rfl⟩ := Transaction.ofExcept_ok given
    exact .bootstrap asked materialized (bootstrap_ok bootstrapped)
  · rename_i input asked
    obtain ⟨command, _, given, patched⟩ := Transaction.run_bind_ok.mp ran
    obtain ⟨materialized, rfl⟩ := Transaction.ofExcept_ok given
    obtain ⟨record, rfl, outcome⟩ := applyNativePatch_ok patched
    exact .nativePatch asked materialized outcome
  · rename_i input asked
    obtain ⟨record, rfl, outcome⟩ := enrollToolboxManaged_ok ran
    exact .enrollment asked outcome
  · rename_i command asked
    obtain ⟨prepared, _, given, applied⟩ := Transaction.run_bind_ok.mp ran
    obtain ⟨preparation, rfl⟩ := releaseStep_ok given
    obtain ⟨record, rfl, outcome⟩ := applyManagedRelease_ok applied
    exact .managedRelease asked preparation outcome

end Calls

end Lobu.Configuration
