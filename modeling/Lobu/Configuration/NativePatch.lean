import Lobu.Configuration.Store

namespace Lobu.Configuration

open Lobu.Foundation

/-! # Native patches

A patch of single settings that a user or an operator asks for.
-/

variable {Digest : Type} [DecidableEq Digest]

inductive Conflict where
  | revisionMismatch
  | commandConflict

inductive AppliedStatus where
  | applied
  | alreadyApplied

/-- The evidence of a release, as its receipt gives it. -/
structure ReleaseEvidence (Digest : Type) where
  agentId : String
  releaseId : String
  releaseSequence : Nat
  feedSequence : Nat
  channel : ReleaseChannel
  feedDigest : Digest
  manifestDigest : Digest
  drifted : Bool
  settingsHash : Digest
  personalBaseline : Option (String × Digest)
  baselineOverride : Option (BaselineOverride Digest)
  liveSettingsHash : Option Digest
  appliedAt : Int

structure ReleaseResult (Digest : Type) where
  evidence : ReleaseEvidence Digest
  idempotent : Bool
  repaired : Bool

/-- What the authority answers its callers. -/
inductive Answer (Digest : Type) where
  | applied (state : AppliedState Digest)
  | alreadyApplied (state : AppliedState Digest)
  | noChange (state : AppliedState Digest)
  | conflict (conflict : Conflict) (currentRevision : Nat)
  | rejected (reason : RejectionReason)
  | alreadyManaged (configurationRevision : Nat)
  | bootstrapped (status : AppliedStatus) (created replayed : Bool) (state : AppliedState Digest)
      (name : String) (description : Option String)
  | released (result : ReleaseResult Digest) (state : AppliedState Digest)

structure NativePatchInput where
  commandId : String
  expectedConfigurationRevision : Option Nat
  patch : Json

structure NativePatchCommand (Digest : Type) where
  commandId : String
  commandDigest : Digest
  expectedConfigurationRevision : Option Nat
  patch : SettingsPatch

def revisionJson : Option Nat → Json
  | some revision => .string (toString revision)
  | none => .null

def parsedPatch (schema : SettingKey → Json → Bool) (value : Json) : Except Failure SettingsPatch :=
  match parseNativeSettingsPatch schema value with
  | .ok patch => .ok patch
  | .error error => .error (.field error)

section Patch

variable (platform : Platform Digest) (target : Target)

def materializeNativePatchCommand (schema : SettingKey → Json → Bool) (input : NativePatchInput) :
    Except Failure (NativePatchCommand Digest) := do
  let parsed ← parsedPatch schema input.patch
  let patch ← parsedPatch schema parsed.toJson.canonicalize
  pure
    { commandId := input.commandId
      commandDigest := sha256Canonical platform (.object
        [("kind", .string "native_patch"), ("agentId", .string target.agentId),
          ("expectedRevision", revisionJson input.expectedConfigurationRevision),
          ("patch", (normalizeNativeSettingsPatchForPersistence patch).toJson)])
      expectedConfigurationRevision := input.expectedConfigurationRevision
      patch }

/-- The release-owned fields of the patch, where an applied release's receipt is there. -/
def legacyReleasePredicateRejectedFields (patch : SettingsPatch) : Tx Digest (List SettingKey) :=
  Transaction.read fun rows =>
    match rows.bind AgentRecord.receipt with
    | none => []
    | some receipt =>
      if receipt.status ≠ .applied then []
      else
        let owned :=
          if receipt.personalBaseline.isSome then personalBaselineReleaseSettingKeys
          else legacyManagedReleaseSettingKeys
        (patch.map Prod.fst).filter owned.contains

/-- Writes the patched settings and the control, and keeps the command. -/
def commitNativePatch (command : NativePatchCommand Digest) (agent : AgentRecord Digest)
    (control : ControlRow Digest) (expectedRevision : Nat) (now : Int) :
    Tx Digest (Answer Digest) := do
  let resultingSettings := (projectedSettingsAfterPatch agent.settings command.patch).toJson
  let changed : Bool :=
    (projectAgentConfigurationSettings agent.settings).toJson.canonicalize ≠
      resultingSettings.canonicalize
  let resultingRevision :=
    if changed then control.configurationRevision + 1 else control.configurationRevision
  let updatedAgent ←
    if changed then
      updateSettings expectedRevision
        (patchAgentSettings platform.parameterText fun key => command.patch.lookup key)
    else pure true
  if updatedAgent then
    let updatedControl ← updateControl expectedRevision fun control =>
      { control with
        configurationRevision := resultingRevision
        lastMutation := some
          { kind := .nativePatch, commandId := command.commandId
            commandDigest := command.commandDigest } }
    if updatedControl then
      let row : CommandRow Digest :=
        { commandId := command.commandId, commandDigest := command.commandDigest
          mutationKind := .nativePatch, resultingRevision
          resultingMode := control.managementMode
          resultingSettingsDigest := sha256Canonical platform resultingSettings
          resultStatus := if changed then .applied else .noChange, appliedAt := now }
      insertCommand row
      let state := stateFromCommandRow target command.commandId row
      pure (if changed then .applied state else .noChange state)
    else .fail (revisionMismatch control.configurationRevision)
  else pure (.conflict .revisionMismatch control.configurationRevision)

/-- The checks of a patch whose command has not been seen, and then its writes. -/
def freshNativePatch (command : NativePatchCommand Digest) (agent : AgentRecord Digest)
    (control : ControlRow Digest) (now : Int) : Tx Digest (Answer Digest) := do
  let currentRevision := control.configurationRevision
  if control.managementMode = .toolboxManaged ∧ command.expectedConfigurationRevision = none then
    .fail (.configuration .agentConfigurationRevisionRequired (some currentRevision))
  else
    let expectedRevision := command.expectedConfigurationRevision.getD currentRevision
    if expectedRevision ≠ currentRevision then pure (.conflict .revisionMismatch currentRevision)
    else
      let legacyRejectedFields ← legacyReleasePredicateRejectedFields command.patch
      let policyDecision := decideNativeSettingsPatch control.managementMode command.patch
      if control.managementMode = .native ∧ legacyRejectedFields ≠ [] then
        pure (.rejected .managedConfigurationSealed)
      else
        match policyDecision.reason with
        | some reason => pure (.rejected reason)
        | none => commitNativePatch platform target command agent control expectedRevision now

def applyNativePatchInTransaction (command : NativePatchCommand Digest) (now : Int) :
    Tx Digest (Answer Digest) := do
  if trim command.commandId.toList = [] then
    .fail (.configuration .invalidNativeSettingsPatch none)
  else
    let agent ← selectAgent
    insertControl
    let control ← selectControl
    match ← findConfigurationCommand command.commandId with
    | some prior =>
      if prior.commandDigest ≠ command.commandDigest then
        pure (.conflict .commandConflict control.configurationRevision)
      else pure (.alreadyApplied (stateFromCommandRow target command.commandId prior))
    | none => freshNativePatch platform target command agent control now

end Patch

end Lobu.Configuration
