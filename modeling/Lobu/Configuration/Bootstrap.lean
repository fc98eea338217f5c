import Lobu.Configuration.Release

namespace Lobu.Configuration

open Lobu.Foundation

/-! # Bootstraps

Creates an agent with its first settings, or hands a toolbox agent new ones under a
fence.  The rows of users and members that it also makes sure of are left out here.
-/

variable {Digest : Type} [DecidableEq Digest]

structure ProvisioningFence where
  targetId : String
  claimGeneration : Nat
  claimToken : String
  baselineVersionId : String
  effectiveSettingsDigest : String

inductive BootstrapProfile where
  | toolboxPersonal (ownerUserId patUserId membershipId ownerEmail : String)
      (fence : Option ProvisioningFence)
  | native (ownerPlatform : String) (ownerUserId : Option String)

namespace BootstrapProfile

def ownerPlatform : BootstrapProfile → String
  | .toolboxPersonal .. => "toolbox"
  | .native ownerPlatform _ => ownerPlatform

def ownerUserId : BootstrapProfile → Option String
  | .toolboxPersonal ownerUserId .. => some ownerUserId
  | .native _ ownerUserId => ownerUserId

end BootstrapProfile

structure BootstrapInput where
  commandId : String
  expectedConfigurationRevision : Option Nat
  actorKind : String
  profile : BootstrapProfile
  name : String
  description : Option String
  settings : Json
  requestDigest : String

structure MaterializedBootstrap (Digest : Type) where
  commandId : String
  expectedConfigurationRevision : Option Nat
  profile : BootstrapProfile
  name : String
  description : Option String
  settings : SettingsPatch
  requestDigest : String
  commandDigest : Digest

def isSha256 (text : String) : Bool :=
  let digits := text.toList.drop 7
  "sha256:".toList.isPrefixOf text.toList && digits.length == 64 &&
    digits.all "0123456789abcdef".toList.contains

def optionJson : Option String → Json
  | some text => .string text
  | none => .null

def fenceJson : Option ProvisioningFence → Json
  | none => .null
  | some fence =>
    .object
      [("targetId", .string fence.targetId),
        ("claimGeneration", .number (.finite (fence.claimGeneration : Rat))),
        ("claimToken", .string fence.claimToken),
        ("baselineVersionId", .string fence.baselineVersionId),
        ("effectiveSettingsDigest", .string fence.effectiveSettingsDigest)]

def profileFields : BootstrapProfile → List (String × Json)
  | .toolboxPersonal ownerUserId patUserId membershipId ownerEmail fence =>
    [("profile", .string "toolbox_personal"), ("ownerUserId", .string ownerUserId),
      ("patUserId", .string patUserId), ("membershipId", .string membershipId),
      ("ownerEmail", .string ownerEmail), ("fence", fenceJson fence)]
  | .native ownerPlatform ownerUserId =>
    [("profile", .string "native"), ("ownerPlatform", .string ownerPlatform),
      ("ownerUserId", optionJson ownerUserId)]

def durableEffects (target : Target) (input : BootstrapInput) (snapshot : Json) : Json :=
  .object
    ([("kind", .string "bootstrap"), ("organizationId", .string target.organizationId),
      ("agentId", .string target.agentId), ("commandId", .string input.commandId),
      ("actor", .object [("kind", .string input.actorKind)]), ("name", .string input.name),
      ("description", optionJson input.description), ("settings", snapshot),
      ("requestDigest", .string input.requestDigest)] ++
    (match input.expectedConfigurationRevision with
      | some revision => [("expectedConfigurationRevision", .string (toString revision))]
      | none => []) ++
    profileFields input.profile)

section Bootstrap

variable (platform : Platform Digest) (target : Target)

def materialize (schema : SettingKey → Json → Bool) (input : BootstrapInput) :
    Except Failure (MaterializedBootstrap Digest) :=
  if trim input.commandId.toList = [] then
    .error (.configuration .invalidRevisionPrecondition none)
  else if isSha256 input.requestDigest = false then
    .error (.configuration .invalidNativeSettingsPatch none)
  else do
    let parsed ← parsedPatch schema input.settings
    let settings := (normalizeNativeSettingsPatchForPersistence parsed).map fun field =>
      (field.1, field.2.canonicalize)
    pure
      { commandId := input.commandId
        expectedConfigurationRevision := input.expectedConfigurationRevision
        profile := input.profile
        name := input.name
        description := input.description
        settings
        requestDigest := input.requestDigest
        commandDigest := sha256Canonical platform
          (durableEffects target input (SettingsPatch.toJson settings).canonicalize) }

def exactFenceReplay (current : FenceRow) (fence : ProvisioningFence) (requestDigest : String) : Bool :=
  fence.targetId == current.targetId && fence.claimGeneration == current.claimGeneration &&
    fence.claimToken == current.claimToken &&
    fence.baselineVersionId == current.baselineVersionId &&
    fence.effectiveSettingsDigest == current.effectiveSettingsDigest &&
    requestDigest == current.requestDigest

def stateFromControl (locked : LockedControl Digest) (settingsDigest : Digest) : AppliedState Digest :=
  { organizationId := target.organizationId
    agentId := target.agentId
    managementMode := locked.control.managementMode
    configurationRevision := locked.control.configurationRevision
    settingsDigest
    lastMutation :=
      match locked.control.lastMutation, locked.lastAppliedAt with
      | some last, some appliedAt =>
        some { kind := last.kind, commandId := last.commandId, appliedAt }
      | _, _ => none }

/-- A new agent's row, the other columns at their defaults. -/
def freshAgent (command : MaterializedBootstrap Digest) : AgentRecord Digest :=
  { name := command.name
    description := command.description
    ownerPlatform := some command.profile.ownerPlatform
    ownerUserId := command.profile.ownerUserId
    settings := Settings.initial
    control := none
    commands := []
    fence := none
    receipt := none
    cursors := []
    grants := []
    provisioningGrants := [] }

/-- `INSERT INTO agents … ON CONFLICT DO NOTHING`; answers whether the row is new. -/
def insertAgent (command : MaterializedBootstrap Digest) : Tx Digest Bool :=
  Transaction.attempt fun rows =>
    match rows with
    | some _ => .ok (false, rows)
    | none => .ok (true, some (freshAgent command))

def commandConflict (currentRevision : Nat) : Failure :=
  .configuration .agentConfigurationCommandConflict (some currentRevision)

def checkRevision (expected : Option Nat) (current : Nat) : Except Failure Unit :=
  if expected.any fun revision => revision != current then .error (revisionMismatch current)
  else .ok ()

def replayed (record : AgentRecord Digest) (state : AppliedState Digest) : Answer Digest :=
  .bootstrapped .alreadyApplied false true state record.name record.description

/-- The answer to a native bootstrap of an agent that exists. -/
def bootstrapExistingNative (command : MaterializedBootstrap Digest) (locked : LockedControl Digest)
    (existing : AgentRecord Digest) (replay : Option (CommandRow Digest)) : Except Failure (Answer Digest) :=
  match replay with
  | some row =>
    if row.commandDigest ≠ command.commandDigest then
      .error (commandConflict locked.control.configurationRevision)
    else .ok (replayed existing (stateFromCommandRow target command.commandId row))
  | none => do
      checkRevision command.expectedConfigurationRevision locked.control.configurationRevision
      pure (replayed existing
        (stateFromControl target locked (settingsDigest platform existing.settings)))

/-- The end of a bootstrap that is applied. -/
def commitBootstrap (command : MaterializedBootstrap Digest) (created : Bool) (revision : Nat)
    (now : Int) : Tx Digest (Answer Digest) := do
  let digest ← readAgentConfigurationSettingsDigest platform
  let state ← recordBootstrapConfigurationMutation target command.commandId command.commandDigest
    revision digest now
  pure (.bootstrapped .applied created false state command.name command.description)

def bootstrapNew (command : MaterializedBootstrap Digest) (locked : LockedControl Digest)
    (now : Int) : Tx Digest (Answer Digest) := do
  let revision := locked.control.configurationRevision
  Transaction.ofExcept (checkRevision command.expectedConfigurationRevision revision)
  replaceSettings revision
    (replaceAgentConfigurationSettings platform.parameterText fun key =>
      command.settings.lookup key)
  commitBootstrap platform target command true revision now

def ownedBy (existing : AgentRecord Digest) (ownerUserId : String) : Bool :=
  existing.ownerPlatform == some "toolbox" && existing.ownerUserId == some ownerUserId

/-- The answer where the fence or the command has been seen before, if it has. -/
def replayToolbox (command : MaterializedBootstrap Digest) (ownerUserId : String)
    (fence : Option ProvisioningFence) (locked : LockedControl Digest)
    (existing : AgentRecord Digest) (replay : Option (CommandRow Digest)) : Except Failure (Option (Answer Digest)) :=
  let currentRevision := locked.control.configurationRevision
  let changedReplay := replay.any fun row => row.commandDigest != command.commandDigest
  match fence, existing.fence with
  | none, some _ => .error .settingsManagedByFencedProvisioning
  | some claimed, some current =>
    if claimed.claimGeneration < current.claimGeneration then
      .error (.fence .provisioningFenceStale)
    else if claimed.claimGeneration = current.claimGeneration then
      if exactFenceReplay current claimed command.requestDigest = false then
        .error (.fence .provisioningFenceConflict)
      else if changedReplay then .error (commandConflict currentRevision)
      else if ownedBy existing ownerUserId = false then
        .ok (some (.rejected .bootstrapOwnerSuperseded))
      else
        .ok (some (replayed existing
          (match replay with
            | some row => stateFromCommandRow target command.commandId row
            | none =>
              stateFromControl target locked (settingsDigest platform existing.settings))))
    else replayCommand changedReplay currentRevision
  | _, none => replayCommand changedReplay currentRevision
where
  replayCommand (changedReplay : Bool) (currentRevision : Nat) :
      Except Failure (Option (Answer Digest)) :=
    if changedReplay then .error (commandConflict currentRevision)
    else
      match replay with
      | none => .ok none
      | some row =>
        if ownedBy existing ownerUserId = false then
          .ok (some (.rejected .bootstrapOwnerSuperseded))
        else .ok (some (replayed existing (stateFromCommandRow target command.commandId row)))

/-- `UPDATE agents SET name, description, owner_platform, owner_user_id`. -/
def updateOwner (command : MaterializedBootstrap Digest) (ownerUserId : String) : Tx Digest Unit :=
  Transaction.write (Option.map fun record =>
    record.withOwner command.name command.description (some "toolbox") (some ownerUserId))

def putFence (fence : ProvisioningFence) (requestDigest : String) : Tx Digest Unit :=
  Transaction.write (Option.map fun record =>
    record.withFence
      { targetId := fence.targetId
        claimGeneration := fence.claimGeneration
        claimToken := fence.claimToken
        baselineVersionId := fence.baselineVersionId
        effectiveSettingsDigest := fence.effectiveSettingsDigest
        requestDigest })

def grantsFor (command : MaterializedBootstrap Digest) (fence : Option ProvisioningFence)
    (now : Int) : Tx Digest Unit := do
  let field := fun key : SettingKey => command.settings.lookup key
  match fence with
  | some claimed =>
    syncProvisioningGrants target now platform field
    putFence claimed command.requestDigest
  | none => addProvisioningGrants target now platform field

def bootstrapToolbox (command : MaterializedBootstrap Digest) (ownerUserId : String)
    (fence : Option ProvisioningFence) (created : Bool) (locked : LockedControl Digest) (now : Int) :
    Tx Digest (Answer Digest) := do
  let revision := locked.control.configurationRevision
  Transaction.ofExcept (checkRevision command.expectedConfigurationRevision revision)
  updateOwner command ownerUserId
  replaceSettings revision
    (replaceAgentConfigurationSettings platform.parameterText fun key =>
      command.settings.lookup key)
  grantsFor platform target command fence now
  commitBootstrap platform target command created revision now

/-- What a bootstrap does once it holds the lock. -/
def bootstrapLocked (command : MaterializedBootstrap Digest) (created : Bool)
    (locked : LockedControl Digest) (now : Int) : Tx Digest (Answer Digest) := do
  if locked.control.managementMode = .toolboxManaged then
    pure (.rejected .managedConfigurationSealed)
  else
    let existing ← selectAgent
    let replay ← findConfigurationCommand command.commandId
    match command.profile with
    | .native .. =>
      if created then bootstrapNew platform target command locked now
      else
        Transaction.ofExcept (bootstrapExistingNative platform target command locked existing replay)
    | .toolboxPersonal ownerUserId _ _ _ fence =>
      if existing.receipt.any fun row => row.status == .applied then
        pure (.rejected .managedConfigurationSealed)
      else
        match ← Transaction.ofExcept
            (replayToolbox platform target command ownerUserId fence locked existing replay) with
        | some answer => pure answer
        | none => bootstrapToolbox platform target command ownerUserId fence created locked now

/-- The body of `createAgentConfigurationBootstrap(…).apply`. -/
def bootstrapInTransaction (command : MaterializedBootstrap Digest) (now : Int) :
    Tx Digest (Answer Digest) := do
  let created ← insertAgent command
  let locked ← lockAgentAndConfigurationControl
  bootstrapLocked platform target command created locked now

end Bootstrap

end Lobu.Configuration
