import Lobu.Configuration.Bootstrap
import Lobu.Configuration.Enrollment

namespace Lobu.Configuration

open Lobu.Foundation

/-! # The configuration authority

The four operations that change an agent's configuration, each one transaction
under the lock of the agent's row, and the sessions in which they meet.
-/

variable {Digest : Type} [DecidableEq Digest]

inductive Request (Digest : Type) where
  | bootstrap (input : BootstrapInput)
  | apply (input : NativePatchInput)
  | enrollToolboxManaged (input : EnrollmentInput Digest)
  | applyManagedRelease (command : ApplyCommand Digest)

/-- A request with the service's clock and the database's. -/
structure Call (Digest : Type) where
  request : Request Digest
  serviceNow : Int
  now : Int

structure Authority (Digest : Type) where
  service : ReleaseService Digest
  target : Target
  schema : SettingKey → Json → Bool

structure ReleaseCommandIdentity (Digest : Type) where
  commandId : String
  commandDigest : Digest

def orNull (value : Option Json) : Json := value.getD .null

section Release

variable (authority : Authority Digest)

def Authority.platform : Platform Digest := authority.service.platform

/-- The settings that a release writes, as JSON. -/
def releaseSettings (command : ApplyCommand Digest) : Json :=
  match command.personal with
  | some personal => .object personal.settings
  | none => command.signedManifest.managedSettings.toJson

def stableIdentity (prepared : PreparedApply Digest) : List (String × Json) :=
  let manifest := prepared.command.signedManifest
  let rollback := prepared.publication.rollback
  [("kind", .string "managed_release"), ("environment", .string manifest.environment.name),
    ("agentId", .string authority.target.agentId), ("releaseId", .string manifest.releaseId),
    ("releaseSequence", natJson manifest.releaseSequence),
    ("expectedConfigurationRevision",
      revisionJson prepared.command.expectedConfigurationRevision),
    ("publication", .object
      [("kind", .string (if rollback.isSome then "rollback" else "release")),
        ("fromReleaseSequence",
          orNull (rollback.map fun given => natJson given.fromReleaseSequence)),
        ("toReleaseSequence", orNull (rollback.map fun given => natJson given.toReleaseSequence)),
        ("toReleaseId", orNull (rollback.map fun given => .string given.toReleaseId))])]

def materializeManagedReleaseCommand (prepared : PreparedApply Digest) : ReleaseCommandIdentity Digest :=
  let platform := authority.platform
  let digestText := fun value => platform.digestText (sha256Canonical platform value)
  let identity := stableIdentity authority prepared
  { commandId := "managed-release:" ++ digestText (.object identity)
    commandDigest := sha256Canonical platform (.object (identity ++
      [("manifestDigest", .string (digestText prepared.command.signedManifest.document)),
        ("settingsDigest", .string (digestText (releaseSettings prepared.command)))])) }

def baselineMetadataKeys : List String := ["templateKey", "scope", "baselinePrompt", "runtimeConfig"]

def assertManagedReleaseSettingsOwnership (prepared : PreparedApply Digest) : Except ReleaseError Unit :=
  let owned :=
    match prepared.command.personal with
    | some personal => personal.settings.all fun field =>
      (personalBaselineReleaseSettingKeys.any fun key => key.name == field.1) ||
        baselineMetadataKeys.contains field.1
    | none => prepared.command.signedManifest.managedSettings.all fun field =>
      legacyManagedReleaseSettingKeys.contains field.1
  if owned then .ok ()
  else
    .error
      { code := "agent_release_invalid_managed_settings", status := 400
        message := "Agent release settings contain a field outside release ownership" }

def stateForUnchangedManagedRelease (identity : ReleaseCommandIdentity Digest)
    (locked : LockedControl Digest) (settingsDigest : Digest) (releaseAppliedAt : Int) : AppliedState Digest :=
  let last := locked.control.lastMutation
  { organizationId := authority.target.organizationId
    agentId := authority.target.agentId
    managementMode := locked.control.managementMode
    configurationRevision := locked.control.configurationRevision
    settingsDigest
    lastMutation := some
      { kind := (last.map LastMutation.kind).getD .managedRelease
        commandId := (last.map LastMutation.commandId).getD identity.commandId
        appliedAt := locked.lastAppliedAt.getD releaseAppliedAt } }

/-- A revision that does not match is let through only for an exact replay without drift. -/
def checkReleaseRevision (prepared : PreparedApply Digest) (currentRevision : Nat)
    (replay : Option (CommandRow Digest)) : Tx Digest Unit := do
  if prepared.command.expectedConfigurationRevision.any fun revision =>
      revision != currentRevision then
    let mutates ←
      if replay.isSome then
        preparedReleaseRequiresConfigurationMutation authority.service authority.target.agentId
          prepared
      else pure true
    if mutates then .fail (revisionMismatch currentRevision) else pure ()
  else pure ()

def applyManagedReleaseInTransaction (prepared : PreparedApply Digest) (now : Int) :
    Tx Digest (Answer Digest) := do
  let identity := materializeManagedReleaseCommand authority prepared
  match ← Transaction.read Option.isSome with
  | false =>
    refuse "agent_release_agent_not_found" 404
      "Agent release target does not exist in the authenticated organization"
  | true =>
    let locked ← lockAgentAndConfigurationControl
    let currentRevision := locked.control.configurationRevision
    if locked.control.managementMode = .toolboxManaged ∧
        prepared.command.expectedConfigurationRevision = none then
      .fail (.configuration .agentConfigurationRevisionRequired (some currentRevision))
    else
      let replay ← findConfigurationCommand identity.commandId
      if replay.any fun row => row.commandDigest != identity.commandDigest then
        .fail (commandConflict currentRevision)
      else
        checkReleaseRevision authority prepared currentRevision replay
        let result ← applyPreparedAgentRelease authority.service authority.target now prepared
          currentRevision
        let settingsDigest ← readAgentConfigurationSettingsDigest authority.platform
        if result.idempotent = true ∧ result.repaired = false then
          pure (.released result (stateForUnchangedManagedRelease authority identity locked
            settingsDigest result.evidence.appliedAt))
        else
          let commandId :=
            if replay.isSome then
              identity.commandId ++ ":repair:" ++ toString currentRevision
            else identity.commandId
          let state ← recordManagedReleaseConfigurationMutation authority.target
            locked.control.managementMode commandId identity.commandDigest currentRevision
            settingsDigest now
          pure (.released result state)

def prepareManagedRelease (command : ApplyCommand Digest) (serviceNow : Int) :
    Except ReleaseError (PreparedApply Digest) := do
  let prepared ← prepareAgentReleaseApply authority.service authority.target.agentId command
    serviceNow
  assertManagedReleaseSettingsOwnership prepared
  pure prepared

end Release

section Programs

variable (authority : Authority Digest)

def program (call : Call Digest) : Tx Digest (Answer Digest) :=
  match call.request with
  | .bootstrap input => do
      let command ← Transaction.ofExcept
        (materialize authority.platform authority.target authority.schema input)
      bootstrapInTransaction authority.platform authority.target command call.now
  | .apply input => do
      let command ← Transaction.ofExcept
        (materializeNativePatchCommand authority.platform authority.target authority.schema input)
      applyNativePatchInTransaction authority.platform authority.target command call.now
  | .enrollToolboxManaged input =>
    enrollToolboxManagedInTransaction authority.service authority.target input call.serviceNow
      call.now
  | .applyManagedRelease command => do
      let prepared ← releaseStep (prepareManagedRelease authority command call.serviceNow)
      applyManagedReleaseInTransaction authority prepared call.now

abbrev AgentSession (Digest : Type) := Session (Call Digest) (Rows Digest) Failure (Answer Digest)

/-- All runs of the authority on one agent, from any rows. -/
def agentSessions : Machine (AgentSession Digest) (SessionEvent (Call Digest)) :=
  Session.sessions (program authority) fun _ => True

end Programs

end Lobu.Configuration
