import Lobu.Configuration.Release

namespace Lobu.Configuration

open Lobu.Foundation

/-! # Enrollment

Hands an agent over to managed releases, once its receipt and a runtime snapshot
agree that it runs one.
-/

variable {Digest : Type} [DecidableEq Digest]

/-- A runtime's snapshot; `document` is the snapshot without its digest.  `expiresAt` is what
`Date.parse` makes of its text, and `canonicalExpiry` says that `toISOString` gives it back. -/
structure RuntimeCapabilitySnapshot (Digest : Type) where
  document : Json
  schemaVersion : Nat
  environment : ReleaseEnvironment
  toolboxUserId : String
  agentId : String
  capabilities : List String
  appliedReleaseId : String
  appliedReleaseSequence : Nat
  expiresAt : Option Int
  canonicalExpiry : Bool
  snapshotDigest : Digest

def releaseIdStart (char : Char) : Bool := char.isAlphanum

def releaseIdRest (char : Char) : Bool :=
  char.isAlphanum || "._:/-".toList.contains char

def safeReleaseId (value : String) : Bool :=
  match value.toList with
  | [] => false
  | first :: rest => value.length ≤ 200 && releaseIdStart first && rest.all releaseIdRest

def validateRuntimeCapabilitySnapshot (platform : Platform Digest)
    (snapshot : RuntimeCapabilitySnapshot Digest) (environment : ReleaseEnvironment)
    (toolboxUserId agentId : String) (now : Int) : Bool :=
  snapshot.schemaVersion == 1 && snapshot.environment == environment &&
    snapshot.toolboxUserId == toolboxUserId && snapshot.agentId == agentId &&
    safeReleaseId snapshot.appliedReleaseId && 0 < snapshot.appliedReleaseSequence &&
    snapshot.canonicalExpiry &&
    (snapshot.expiresAt.any fun expiry => now < expiry && expiry ≤ now + 60000) &&
    1 ≤ snapshot.capabilities.length && snapshot.capabilities.length ≤ 64 &&
    (snapshot.capabilities.all fun id => id != "" && id.length ≤ 200) &&
    snapshot.snapshotDigest == sha256Canonical platform snapshot.document

inductive CapabilityState where
  | legacyUnenrolled
  | enrolledInactive
  | active
deriving DecidableEq

def classifyAgentReleaseCapabilityState (service : ReleaseService Digest) (settings : Settings)
    (ownerUserId : String) (receipt : Option (ReceiptRow Digest)) (agentId : String)
    (environment : ReleaseEnvironment) (snapshot : Option (RuntimeCapabilitySnapshot Digest)) : CapabilityState :=
  match receipt, snapshot with
  | none, _ => .legacyUnenrolled
  | some _, none => .enrolledInactive
  | some row, some snapshot =>
    if row.environment ≠ environment ∨ row.status ≠ .applied ∨
        row.settingsHash ≠ settingsHashFromAgent service settings row.personalBaseline ∨
        row.desiredReleaseId ≠ row.appliedReleaseId ∨
        row.desiredReleaseSequence ≠ row.appliedReleaseSequence ∨
        row.desiredFeedSequence ≠ row.appliedFeedSequence ∨
        snapshot.environment ≠ environment ∨ snapshot.toolboxUserId ≠ ownerUserId ∨
        snapshot.agentId ≠ agentId ∨ snapshot.appliedReleaseId ≠ row.appliedReleaseId ∨
        snapshot.appliedReleaseSequence ≠ row.appliedReleaseSequence then .enrolledInactive
    else .active

def ReleaseEnvironment.name : ReleaseEnvironment → String
  | .local => "local"
  | .staging => "staging"
  | .production => "production"

structure EnrollmentInput (Digest : Type) where
  commandId : String
  expectedConfigurationRevision : Nat
  toolboxUserId : String
  environment : ReleaseEnvironment
  runtimeEnvironment : ReleaseEnvironment
  snapshot : RuntimeCapabilitySnapshot Digest

def natJson (value : Nat) : Json := .number (.finite (value : Rat))

def enrollmentDigest (platform : Platform Digest) (target : Target) (input : EnrollmentInput Digest) : Digest :=
  let snapshot := input.snapshot
  sha256Canonical platform (.object
    [("kind", .string "managed_enrollment"), ("agentId", .string target.agentId),
      ("toolboxUserId", .string input.toolboxUserId),
      ("environment", .string input.environment.name),
      ("runtimeEnvironment", .string input.runtimeEnvironment.name),
      ("expectedRevision", .string (toString input.expectedConfigurationRevision)),
      ("claim", .object
        [("schemaVersion", natJson snapshot.schemaVersion),
          ("environment", .string snapshot.environment.name),
          ("toolboxUserId", .string snapshot.toolboxUserId),
          ("agentId", .string snapshot.agentId),
          ("capabilities",
            .array ((snapshot.capabilities.insertionSort sortsBefore).map Json.string)),
          ("appliedReleaseId", .string snapshot.appliedReleaseId),
          ("appliedReleaseSequence", natJson snapshot.appliedReleaseSequence)])])

def managedEnrollmentCapabilityId : String := "agent_configuration_authority.v1"

section Enrollment

variable (service : ReleaseService Digest) (target : Target)

/-- Why the claim of a command is not good enough for the agent, if it is not. -/
def enrollmentRejection (input : EnrollmentInput Digest) (agent : AgentRecord Digest)
    (serviceNow : Int) : Option RejectionReason :=
  let snapshot := input.snapshot
  if input.environment ≠ input.runtimeEnvironment then some .environmentMismatch
  else if agent.ownerUserId ≠ some input.toolboxUserId then some .invalidRelease
  else if snapshot.environment ≠ input.environment then some .environmentMismatch
  else if snapshot.toolboxUserId ≠ input.toolboxUserId ∨ snapshot.agentId ≠ target.agentId then
    some .invalidRelease
  else if (snapshot.expiresAt.all fun expiry => expiry ≤ serviceNow) then some .staleRelease
  else if validateRuntimeCapabilitySnapshot service.platform snapshot snapshot.environment
      snapshot.toolboxUserId snapshot.agentId serviceNow = false then some .invalidRelease
  else
    match agent.receipt with
    | none => some .invalidRelease
    | some receipt =>
      if receipt.environment ≠ input.environment then some .environmentMismatch
      else if receipt.status ≠ .applied ∨
          receipt.desiredReleaseId ≠ receipt.appliedReleaseId ∨
          receipt.desiredReleaseSequence ≠ receipt.appliedReleaseSequence ∨
          receipt.desiredFeedSequence ≠ receipt.appliedFeedSequence then some .staleRelease
      else if snapshot.appliedReleaseId ≠ receipt.appliedReleaseId ∨
          snapshot.appliedReleaseSequence ≠ receipt.appliedReleaseSequence then
        some .staleRelease
      else if !snapshot.capabilities.contains managedEnrollmentCapabilityId then
        some .capabilityInactive
      else if receipt.personalBaseline.any fun personal =>
          personal.effectiveSettingsDigest != receipt.settingsHash then some .enrollmentDrifted
      else if classifyAgentReleaseCapabilityState service agent.settings input.toolboxUserId
          (some receipt) target.agentId input.environment (some snapshot) ≠ .active then
        some .enrollmentDrifted
      else none

/-- `UPDATE` of the control to the managed mode, for a native one of this revision. -/
def enrollControl (expectedRevision : Nat) (commandId : String) (commandDigest : Digest) : Tx Digest (Option Nat) :=
  Transaction.attempt fun rows =>
    match rows with
    | some record =>
      match record.control with
      | some control =>
        if control.managementMode = .native ∧
            control.configurationRevision = expectedRevision then
          .ok (some (control.configurationRevision + 1),
            some (record.withControlRow
              { managementMode := .toolboxManaged
                configurationRevision := control.configurationRevision + 1
                lastMutation := some
                  { kind := .managedEnrollment, commandId, commandDigest } }))
        else .ok (none, rows)
      | none => .ok (none, rows)
    | none => .ok (none, rows)

def enrollToolboxManagedInTransaction (input : EnrollmentInput Digest) (serviceNow now : Int) :
    Tx Digest (Answer Digest) := do
  let commandDigest := enrollmentDigest service.platform target input
  let agent ← selectAgent
  insertControl
  let control ← selectControl
  match ← findConfigurationCommand input.commandId with
  | some prior =>
    if prior.commandDigest ≠ commandDigest then
      pure (.conflict .commandConflict control.configurationRevision)
    else pure (.alreadyApplied (stateFromCommandRow target input.commandId prior))
  | none =>
    if control.managementMode = .toolboxManaged then
      pure (.alreadyManaged control.configurationRevision)
    else if input.expectedConfigurationRevision ≠ control.configurationRevision then
      pure (.conflict .revisionMismatch control.configurationRevision)
    else
      match enrollmentRejection service target input agent serviceNow with
      | some reason => pure (.rejected reason)
      | none =>
        match ← enrollControl input.expectedConfigurationRevision input.commandId
            commandDigest with
        | none => pure (.conflict .revisionMismatch control.configurationRevision)
        | some resultingRevision =>
          let settingsDigest ← readAgentConfigurationSettingsDigest service.platform
          let row : CommandRow Digest :=
            { commandId := input.commandId, commandDigest
              mutationKind := .managedEnrollment, resultingRevision
              resultingMode := .toolboxManaged
              resultingSettingsDigest := settingsDigest
              resultStatus := .applied, appliedAt := now }
          insertCommand row
          pure (.applied (stateFromCommandRow target input.commandId row))

end Enrollment

end Lobu.Configuration
