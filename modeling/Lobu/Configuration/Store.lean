import Lobu.Configuration.Settings
import Lobu.Foundation.Transaction
import Lobu.Proxy.GrantStore

namespace Lobu.Configuration

open Lobu.Foundation Lobu.Proxy

/-! # The rows of one agent

Every row that the configuration authority reads or writes for one agent of one
organization.  All of them go with the agent's row, so an agent that does not
exist has none.  A transaction locks the agent's row before it reads the others.
-/

inductive ConfigurationErrorCode where
  | agentConfigurationNotFound
  | invalidRevisionPrecondition
  | agentConfigurationRevisionRequired
  | agentConfigurationRevisionMismatch
  | agentConfigurationCommandConflict
  | missingIdempotencyKey
  | invalidNativeSettingsPatch
deriving DecidableEq

def ConfigurationErrorCode.message : ConfigurationErrorCode → String
  | .agentConfigurationNotFound => "Agent configuration target was not found"
  | .invalidRevisionPrecondition => "Agent configuration revision precondition is invalid"
  | .agentConfigurationRevisionRequired => "Managed configuration requires a revision precondition"
  | .agentConfigurationRevisionMismatch =>
    "Agent configuration revision precondition does not match"
  | .agentConfigurationCommandConflict => "Agent configuration command identity was reused"
  | .missingIdempotencyKey => "A non-empty Idempotency-Key is required"
  | .invalidNativeSettingsPatch => "Native settings patch is not supported"

inductive FenceErrorCode where
  | provisioningFenceStale
  | provisioningFenceConflict
deriving DecidableEq

structure ReleaseError where
  code : String
  status : Nat
  message : String
deriving DecidableEq

inductive Failure where
  | configuration (code : ConfigurationErrorCode) (currentRevision : Option Nat)
  | field (error : FieldError)
  | fence (code : FenceErrorCode)
  | settingsManagedByFencedProvisioning
  | release (error : ReleaseError)
  | database (text : String)
  | typeError
deriving DecidableEq

inductive MutationKind where
  | bootstrap
  | nativePatch
  | managedRelease
  | managedEnrollment

inductive ResultStatus where
  | applied
  | noChange

inductive ReleaseEnvironment where
  | local
  | staging
  | production
deriving DecidableEq

inductive ReleaseChannel where
  | candidate
  | stable
deriving DecidableEq

inductive ReceiptStatus where
  | applying
  | applied
  | failed
deriving DecidableEq

section Rows

variable (Digest : Type)

structure LastMutation where
  kind : MutationKind
  commandId : String
  commandDigest : Digest

structure ControlRow where
  managementMode : ManagementMode
  configurationRevision : Nat
  lastMutation : Option (LastMutation Digest)

structure CommandRow where
  commandId : String
  commandDigest : Digest
  mutationKind : MutationKind
  resultingRevision : Nat
  resultingMode : ManagementMode
  resultingSettingsDigest : Digest
  resultStatus : ResultStatus
  appliedAt : Int

structure FenceRow where
  targetId : String
  claimGeneration : Nat
  claimToken : String
  baselineVersionId : String
  effectiveSettingsDigest : String
  requestDigest : String

/-- The break-glass provenance of a baseline, with the JSON it was read from. -/
structure BaselineOverride where
  document : Json
  approvedAt : Int
  expiresAt : Int
  anchoredReleaseId : String
  anchoredReleaseSequence : Nat
  anchoredFeedSequence : Nat
  anchoredFeedDigest : Digest
  anchoredManifestDigest : Digest
  anchoredBaselineVersionId : String
  anchoredBaselineVersion : Nat
  anchoredEffectiveSettingsDigest : Digest
  overrideBaselineVersionId : String
  overrideBaselineVersion : Nat
  overrideEffectiveSettingsDigest : Digest

/-- The three baseline columns, which are all null or all set. -/
structure PersonalBaseline where
  versionId : String
  effectiveSettingsDigest : Digest
  settings : List (String × Json)

structure ReceiptRow where
  environment : ReleaseEnvironment
  desiredReleaseId : String
  desiredReleaseSequence : Nat
  desiredFeedSequence : Nat
  appliedReleaseId : String
  appliedReleaseSequence : Nat
  appliedFeedSequence : Nat
  appliedChannel : ReleaseChannel
  appliedFeedDigest : Digest
  rollbackToReleaseId : Option String
  rollbackToSequence : Option Nat
  manifestDigest : Digest
  status : ReceiptStatus
  settingsHash : Digest
  personalBaseline : Option (PersonalBaseline Digest)
  baselineOverride : Option (BaselineOverride Digest × Digest)
  appliedAt : Int

structure FeedCursorRow where
  environment : ReleaseEnvironment
  channel : ReleaseChannel
  highestFeedSequence : Nat
  highestFeedDigest : Digest

structure AgentRecord where
  name : String
  description : Option String
  ownerPlatform : Option String
  ownerUserId : Option String
  settings : Settings
  control : Option (ControlRow Digest)
  commands : List (CommandRow Digest)
  fence : Option FenceRow
  receipt : Option (ReceiptRow Digest)
  cursors : List (FeedCursorRow Digest)
  grants : List GrantRow
  /-- The grants that provisioning owns, by kind and pattern. -/
  provisioningGrants : List (GrantKind × List Char)

abbrev Rows := Option (AgentRecord Digest)

abbrev Tx (α : Type) := Transaction (Rows Digest) Failure α

end Rows

structure Target where
  organizationId : String
  agentId : String

/-- The hash, the driver and the host names that the code is run with. -/
structure Platform (Digest : Type) where
  /-- SHA-256 of the text of a canonical JSON value. -/
  sha256 : Json → Digest
  digestText : Digest → String
  parameterText : Json → String
  names : DomainNames

variable {Digest : Type}

def sha256Canonical (platform : Platform Digest) (value : Json) : Digest :=
  platform.sha256 value.canonicalize

namespace AgentRecord

section

variable (record : AgentRecord Digest)
include record

/-- The control row, or what its columns default to. -/
def controlRow : ControlRow Digest :=
  record.control.getD
    { managementMode := .native, configurationRevision := 0, lastMutation := none }

def managementMode : ManagementMode :=
  record.controlRow.managementMode

def configurationRevision : Nat :=
  record.controlRow.configurationRevision

def withControlRow (control : ControlRow Digest) : AgentRecord Digest :=
  { record with control := some control }

/-- The record once its control row is there. -/
def withControl : AgentRecord Digest :=
  record.withControlRow record.controlRow

def withSettings (settings : Settings) : AgentRecord Digest :=
  { record with settings }

def withCommand (row : CommandRow Digest) : AgentRecord Digest :=
  { record with commands := record.commands ++ [row] }

def withOwner (name : String) (description : Option String)
    (ownerPlatform ownerUserId : Option String) : AgentRecord Digest :=
  { record with name, description, ownerPlatform, ownerUserId }

def withFence (fence : FenceRow) : AgentRecord Digest :=
  { record with fence := some fence }

def withReceipt (receipt : ReceiptRow Digest) : AgentRecord Digest :=
  { record with receipt := some receipt }

def withCursors (cursors : List (FeedCursorRow Digest)) : AgentRecord Digest :=
  { record with cursors }

end

end AgentRecord

structure LastApplied where
  kind : MutationKind
  commandId : String
  appliedAt : Int

structure AppliedState (Digest : Type) where
  organizationId : String
  agentId : String
  managementMode : ManagementMode
  configurationRevision : Nat
  settingsDigest : Digest
  lastMutation : Option LastApplied

/-- `SELECT … FROM agents … FOR UPDATE`. -/
def selectAgent : Tx Digest (AgentRecord Digest) := do
  match ← Transaction.read id with
  | some record => pure record
  | none => .fail (.configuration .agentConfigurationNotFound none)

/-- `INSERT INTO agent_configuration_controls … ON CONFLICT DO NOTHING`. -/
def insertControl : Tx Digest Unit :=
  Transaction.write (Option.map AgentRecord.withControl)

def selectControl : Tx Digest (ControlRow Digest) := do
  match ← Transaction.read fun rows => rows.bind AgentRecord.control with
  | some control => pure control
  | none => .fail (.configuration .agentConfigurationNotFound none)

def findConfigurationCommand (commandId : String) : Tx Digest (Option (CommandRow Digest)) :=
  Transaction.read fun rows => rows.bind fun record =>
    record.commands.find? fun row => row.commandId == commandId

structure LockedControl (Digest : Type) where
  control : ControlRow Digest
  lastAppliedAt : Option Int

def lockAgentAndConfigurationControl : Tx Digest (LockedControl Digest) := do
  let _ ← selectAgent
  insertControl
  let control ← selectControl
  match control.lastMutation with
  | none => pure { control, lastAppliedAt := none }
  | some last =>
    let row ← findConfigurationCommand last.commandId
    pure { control, lastAppliedAt := row.map CommandRow.appliedAt }

/-- `UPDATE agents SET … WHERE EXISTS` a control of this revision; answers whether there
was a row. -/
def updateSettings (expectedRevision : Nat) (change : Settings → Settings) : Tx Digest Bool :=
  Transaction.attempt fun rows =>
    match rows with
    | some record =>
      if record.control.any fun control => control.configurationRevision == expectedRevision then
        .ok (true, some (record.withSettings (change record.settings)))
      else .ok (false, rows)
    | none => .ok (false, rows)

def updateControl (expectedRevision : Nat) (change : ControlRow Digest → ControlRow Digest) : Tx Digest Bool :=
  Transaction.attempt fun rows =>
    match rows with
    | some record =>
      match record.control with
      | some control =>
        if control.configurationRevision = expectedRevision then
          .ok (true, some (record.withControlRow (change control)))
        else .ok (false, rows)
      | none => .ok (false, rows)
    | none => .ok (false, rows)

/-- `INSERT INTO agent_configuration_commands`, under the key and the check of its id. -/
def insertCommand (row : CommandRow Digest) : Tx Digest Unit :=
  Transaction.attempt fun rows =>
    match rows with
    | some record =>
      if record.commands.any fun other => other.commandId == row.commandId then
        .error (.database "agent_configuration_commands_pkey")
      else if row.commandId.toList.all fun char => char == ' ' then
        .error (.database "agent_configuration_commands_id_check")
      else .ok ((), some (record.withCommand row))
    | none => .error (.database "agent_configuration_commands_agent_fkey")

def settingsDigest (platform : Platform Digest) (settings : Settings) : Digest :=
  sha256Canonical platform (projectAgentConfigurationSettings settings).toJson

def readAgentConfigurationSettingsDigest (platform : Platform Digest) : Tx Digest Digest := do
  let record ← selectAgent
  pure (settingsDigest platform record.settings)

def revisionMismatch (currentRevision : Nat) : Failure :=
  .configuration .agentConfigurationRevisionMismatch (some currentRevision)

def replaceSettings (expectedRevision : Nat) (change : Settings → Settings) : Tx Digest Unit := do
  if ← updateSettings expectedRevision change then pure ()
  else .fail (revisionMismatch expectedRevision)

section Recording

variable (target : Target)

def stateFromCommandRow (commandId : String) (row : CommandRow Digest) : AppliedState Digest :=
  { organizationId := target.organizationId
    agentId := target.agentId
    managementMode := row.resultingMode
    configurationRevision := row.resultingRevision
    settingsDigest := row.resultingSettingsDigest
    lastMutation := some { kind := row.mutationKind, commandId, appliedAt := row.appliedAt } }

/-- Moves the control to the next revision and keeps the command. -/
def recordConfigurationMutation (kind : MutationKind) (mode : ManagementMode) (commandId : String)
    (commandDigest : Digest) (currentRevision : Nat) (settingsDigest : Digest) (now : Int) :
    Tx Digest (AppliedState Digest) := do
  let resultingRevision := currentRevision + 1
  let updated ← updateControl currentRevision fun control =>
    { control with
      configurationRevision := resultingRevision
      lastMutation := some { kind, commandId, commandDigest } }
  if updated then
    let row : CommandRow Digest :=
      { commandId, commandDigest, mutationKind := kind, resultingRevision, resultingMode := mode
        resultingSettingsDigest := settingsDigest, resultStatus := .applied, appliedAt := now }
    insertCommand row
    pure (stateFromCommandRow target commandId row)
  else .fail (revisionMismatch currentRevision)

def recordManagedReleaseConfigurationMutation :
    ManagementMode → String → Digest → Nat → Digest → Int → Tx Digest (AppliedState Digest) :=
  recordConfigurationMutation target .managedRelease

def recordBootstrapConfigurationMutation : String → Digest → Nat → Digest → Int → Tx Digest (AppliedState Digest) :=
  recordConfigurationMutation target .bootstrap .native

end Recording

/-- The items that a spread gives; a string spreads into its characters. -/
def spread : Option Json → Except Failure (List Json)
  | none => .ok []
  | some .null => .ok []
  | some (.array items) => .ok items
  | some (.string text) => .ok (text.toList.map fun char => .string (String.singleton char))
  | some _ => .error .typeError

def rawPatterns : List Json → Except Failure (List (List Char))
  | [] => .ok []
  | .string text :: items =>
    match rawPatterns items with
    | .ok patterns => .ok (text.toList :: patterns)
    | .error failure => .error failure
  | _ :: _ => .error .typeError

/-- The allowed domains and the pre-approved tools, as grants. -/
def desiredGrants (platform : Platform Digest) (field : SettingKey → Option Json) :
    Except Failure (List (GrantKind × List Char)) := do
  let domains ← spread ((field .networkConfig).bind fun config => config.get? "allowedDomains")
  let tools ← spread (field .preApprovedTools)
  let patterns ← rawPatterns (domains ++ tools)
  pure (patterns.map fun raw =>
    let pattern := normalizeDomainPattern platform.names raw
    (inferGrantKind pattern, pattern))

section Grants

variable (target : Target) (now : Int)

def freshGrant (key : GrantKind × List Char) : GrantRow :=
  { organizationId := target.organizationId, agentId := target.agentId, kind := key.1
    pattern := key.2, expiresAt := none, grantedAt := now, denied := false }

def grantKey (row : GrantRow) : GrantKind × List Char := (row.kind, row.pattern)

def reactivate (key : GrantKind × List Char) (grants : List GrantRow) : List GrantRow :=
  grants.map fun row =>
    if grantKey row = key then { row with expiresAt := none, grantedAt := now, denied := false }
    else row

/-- `INSERT … ON CONFLICT DO UPDATE`. -/
def addGrant (key : GrantKind × List Char) (grants : List GrantRow) : List GrantRow :=
  if grants.any fun row => grantKey row == key then reactivate now key grants
  else grants ++ [freshGrant target now key]

/-- An agent's grants, and which of them provisioning owns. -/
structure GrantTables where
  grants : List GrantRow
  provisioningGrants : List (GrantKind × List Char)

def AgentRecord.grantTables (record : AgentRecord Digest) : GrantTables :=
  { grants := record.grants, provisioningGrants := record.provisioningGrants }

def AgentRecord.withGrants (record : AgentRecord Digest) (tables : GrantTables) : AgentRecord Digest :=
  { record with grants := tables.grants, provisioningGrants := tables.provisioningGrants }

/-- One wanted grant: an existing row is made active again, a new one becomes provisioning's. -/
def syncGrant (tables : GrantTables) (key : GrantKind × List Char) : GrantTables :=
  if tables.grants.any fun row => grantKey row == key then
    { tables with grants := reactivate now key tables.grants }
  else
    { grants := tables.grants ++ [freshGrant target now key]
      provisioningGrants := tables.provisioningGrants ++ [key] }

/-- Provisioning's grants that are no longer wanted go, with their rows. -/
def dropUnwanted (desired : List (GrantKind × List Char)) (tables : GrantTables) : GrantTables :=
  let unwanted := tables.provisioningGrants.filter fun key => !desired.contains key
  { grants := tables.grants.filter fun row => !unwanted.contains (grantKey row)
    provisioningGrants := tables.provisioningGrants.filter fun key => !unwanted.contains key }

def syncedGrants (desired : List (GrantKind × List Char)) (tables : GrantTables) : GrantTables :=
  desired.eraseDups.foldl (syncGrant target now) (dropUnwanted desired tables)

def addedGrants (desired : List (GrantKind × List Char)) (tables : GrantTables) : GrantTables :=
  { tables with
    grants := desired.foldl (fun grants key => addGrant target now key grants) tables.grants }

def syncProvisioningGrants (platform : Platform Digest) (field : SettingKey → Option Json) :
    Tx Digest Unit := do
  let desired ← Transaction.ofExcept (desiredGrants platform field)
  Transaction.write (Option.map fun record =>
    record.withGrants (syncedGrants target now desired record.grantTables))

def addProvisioningGrants (platform : Platform Digest) (field : SettingKey → Option Json) :
    Tx Digest Unit := do
  let desired ← Transaction.ofExcept (desiredGrants platform field)
  Transaction.write (Option.map fun record =>
    record.withGrants (addedGrants target now desired record.grantTables))

end Grants

section Runs

variable {record : AgentRecord Digest} {rows after : Rows Digest} {expectedRevision : Nat}

@[simp] theorem withControl_controlRow : record.withControl.controlRow = record.controlRow := rfl

@[simp] theorem withSettings_controlRow (settings : Settings) :
    (record.withSettings settings).controlRow = record.controlRow := rfl

@[simp] theorem withSettings_configurationRevision (settings : Settings) :
    (record.withSettings settings).configurationRevision = record.configurationRevision := rfl

@[simp] theorem withControl_withOwner (name : String)
    (description ownerPlatform ownerUserId : Option String) :
    record.withControl.withOwner name description ownerPlatform ownerUserId =
      (record.withOwner name description ownerPlatform ownerUserId).withControl := rfl

@[simp] theorem withControl_withGrants (tables : GrantTables) :
    record.withControl.withGrants tables = (record.withGrants tables).withControl := rfl

@[simp] theorem withControl_withFence (fence : FenceRow) :
    record.withControl.withFence fence = (record.withFence fence).withControl := rfl

@[simp] theorem withControl_withReceipt (receipt : ReceiptRow Digest) :
    record.withControl.withReceipt receipt = (record.withReceipt receipt).withControl := rfl

@[simp] theorem withControl_withCursors (cursors : List (FeedCursorRow Digest)) :
    record.withControl.withCursors cursors = (record.withCursors cursors).withControl := rfl

@[simp] theorem withGrants_controlRow (tables : GrantTables) :
    (record.withGrants tables).controlRow = record.controlRow := rfl

@[simp] theorem withGrants_configurationRevision (tables : GrantTables) :
    (record.withGrants tables).configurationRevision = record.configurationRevision := rfl

@[simp] theorem selectAgent_run :
    (selectAgent : Tx Digest _).run (some record) = .ok (record, some record) := rfl

@[simp] theorem selectAgent_run_none :
    (selectAgent : Tx Digest _).run none =
      .error (.configuration .agentConfigurationNotFound none) := rfl

@[simp] theorem insertControl_run :
    (insertControl : Tx Digest _).run (some record) = .ok ((), some record.withControl) := rfl

@[simp] theorem selectControl_run :
    (selectControl : Tx Digest _).run (some record.withControl) =
      .ok (record.controlRow, some record.withControl) := rfl

@[simp] theorem findConfigurationCommand_run (commandId : String) :
    (findConfigurationCommand commandId).run (some record) =
      .ok (record.commands.find? fun row => row.commandId == commandId, some record) := rfl

/-- What the lock reads of a control row. -/
def AgentRecord.lockedControl (record : AgentRecord Digest) : LockedControl Digest :=
  { control := record.controlRow
    lastAppliedAt := record.controlRow.lastMutation.bind fun last =>
      (record.commands.find? fun row => row.commandId == last.commandId).map
        CommandRow.appliedAt }

@[simp] theorem lockAgentAndConfigurationControl_run :
    (lockAgentAndConfigurationControl : Tx Digest _).run (some record) =
      .ok (record.lockedControl, some record.withControl) := by
  cases last : record.controlRow.lastMutation with
  | none => simp [lockAgentAndConfigurationControl, AgentRecord.lockedControl, last]
  | some mutation =>
    simp [lockAgentAndConfigurationControl, AgentRecord.lockedControl, last]
    rfl

@[simp] theorem lockAgentAndConfigurationControl_run_none :
    (lockAgentAndConfigurationControl : Tx Digest _).run none =
      .error (.configuration .agentConfigurationNotFound none) := rfl

@[simp] theorem updateSettings_run (change : Settings → Settings) :
    (updateSettings expectedRevision change).run (some record.withControl) =
      if record.configurationRevision = expectedRevision then
        .ok (true, some (record.withSettings (change record.settings)).withControl)
      else .ok (false, some record.withControl) := by
  simp only [updateSettings, Transaction.run_attempt, AgentRecord.withControl,
    AgentRecord.withControlRow, Option.any_some, beq_iff_eq]
  rfl

@[simp] theorem updateControl_run (change : ControlRow Digest → ControlRow Digest) :
    (updateControl expectedRevision change).run (some record.withControl) =
      if record.configurationRevision = expectedRevision then
        .ok (true, some (record.withControlRow (change record.controlRow)))
      else .ok (false, some record.withControl) := by
  simp only [updateControl, Transaction.run_attempt, AgentRecord.withControl, AgentRecord.withControlRow]
  rfl

theorem insertCommand_ok {row : CommandRow Digest} (ran : (insertCommand row).run (some record) = .ok ((), after)) :
    after = some (record.withCommand row) ∧ ∀ other ∈ record.commands, other.commandId ≠ row.commandId := by
  simp only [insertCommand, Transaction.run_attempt] at ran
  split at ran
  · contradiction
  · rename_i fresh
    split at ran
    · contradiction
    · cases ran
      refine ⟨rfl, ?_⟩
      simpa using fresh

@[simp] theorem readAgentConfigurationSettingsDigest_run (platform : Platform Digest) :
    (readAgentConfigurationSettingsDigest platform).run (some record) =
      .ok (settingsDigest platform record.settings, some record) := rfl

theorem replaceSettings_ok {change : Settings → Settings}
    (ran : (replaceSettings expectedRevision change).run (some record.withControl) = .ok ((), after)) :
    after = some (record.withSettings (change record.settings)).withControl ∧
      record.configurationRevision = expectedRevision := by
  simp only [replaceSettings, Transaction.run_bind, updateSettings_run] at ran
  by_cases current : record.configurationRevision = expectedRevision
  · simp only [current, if_true, Transaction.run_pure, Except.ok.injEq, Prod.mk.injEq, true_and] at ran
    exact ⟨ran.symm, current⟩
  · simp [current] at ran

/-- The record of an agent after a command that was kept. -/
def AgentRecord.recorded (record : AgentRecord Digest) (control : ControlRow Digest)
    (row : CommandRow Digest) : AgentRecord Digest :=
  (record.withControlRow control).withCommand row

theorem recordConfigurationMutation_ok {target : Target} {kind : MutationKind}
    {mode : ManagementMode} {commandId : String} {commandDigest digest : Digest}
    {currentRevision : Nat} {now : Int} {state : AppliedState Digest}
    (ran : (recordConfigurationMutation target kind mode commandId commandDigest currentRevision
      digest now).run (some record.withControl) = .ok (state, after)) : let row : CommandRow Digest :=
      { commandId, commandDigest, mutationKind := kind, resultingRevision := currentRevision + 1
        resultingMode := mode, resultingSettingsDigest := digest, resultStatus := .applied
        appliedAt := now }
    record.configurationRevision = currentRevision ∧
      (∀ other ∈ record.commands, other.commandId ≠ commandId) ∧
      state = stateFromCommandRow target commandId row ∧
      after = some (record.recorded
        { record.controlRow with
          configurationRevision := currentRevision + 1
          lastMutation := some { kind, commandId, commandDigest } } row) := by
  intro row
  simp only [recordConfigurationMutation, Transaction.run_bind, updateControl_run] at ran
  by_cases current : record.configurationRevision = currentRevision
  · rw [if_pos current] at ran
    obtain ⟨_, between, inserted, ended⟩ := Transaction.run_bind_ok.mp ran
    obtain ⟨rfl, fresh⟩ := insertCommand_ok inserted
    cases ended
    exact ⟨current, fresh, rfl, rfl⟩
  · rw [if_neg current] at ran
    contradiction

@[simp] theorem withGrants_grantTables (record : AgentRecord Digest) :
    record.withGrants record.grantTables = record := rfl

theorem writtenGrants_ok {δ : Type} {wanted : Except Failure δ} {grants : δ → GrantTables → GrantTables}
    (ran : (do
      let desired ← Transaction.ofExcept wanted
      Transaction.write (Option.map fun record => record.withGrants (grants desired record.grantTables)) :
        Tx Digest Unit).run (some record) = .ok ((), after)) :
    ∃ tables, after = some (record.withGrants tables) := by
  simp only [Transaction.run_bind, Transaction.run_ofExcept] at ran
  cases wanted with
  | error failure => simp [Except.map] at ran
  | ok desired =>
    simp only [Except.map, Transaction.run_write, Except.ok.injEq, Prod.mk.injEq, true_and] at ran
    exact ⟨_, ran.symm⟩

end Runs

end Lobu.Configuration
