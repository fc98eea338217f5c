import Lobu.Configuration.NativePatch

namespace Lobu.Configuration

open Lobu.Foundation

/-! # Agent releases

Signed manifests that a signed feed publishes: which commands are prepared, what
applying one writes, and the evidence that its receipt gives afterwards.
-/

variable {Digest : Type} [DecidableEq Digest]

section Documents

variable (Digest : Type)

structure PersonalBaselineContract where
  baselineVersionId : String
  baselineVersion : Nat
  effectiveSettingsDigest : Digest

/-- A policy has exactly one of the two baseline contracts. -/
inductive ControlPlanePolicy where
  | baseline (settingsHash : Digest)
  | personal (contract : PersonalBaselineContract Digest)

structure RollbackTarget where
  releaseId : String
  releaseSequence : Nat

inductive ReleaseKind where
  | capabilityActivation
  | runtimeCarrier
deriving DecidableEq

/-- What is read from a manifest, with the JSON it was read from. -/
structure SignedManifest where
  document : Json
  releaseId : String
  releaseSequence : Nat
  environment : ReleaseEnvironment
  releaseKind : ReleaseKind
  managedSettings : SettingsPatch
  controlPlanePolicy : Option (ControlPlanePolicy Digest)
  rollbackTo : Option RollbackTarget

/-- The fields that only a rollback publication has. -/
structure RollbackPublication where
  fromReleaseSequence : Nat
  toReleaseSequence : Nat
  toReleaseId : String
  expiresAt : Int

structure FeedPublication where
  releaseId : String
  releaseSequence : Nat
  manifestDigest : Digest
  manifest : Json
  rollback : Option RollbackPublication

inductive ActivationMode where
  | perAgent
  | sharedCarrier
deriving DecidableEq

structure FeedActivation where
  activationMode : ActivationMode
  paused : Bool

structure SignedFeed where
  document : Json
  feedSequence : Nat
  environment : ReleaseEnvironment
  channel : ReleaseChannel
  publications : List (FeedPublication Digest)
  activation : Option FeedActivation

structure ReleaseAssignment where
  environment : ReleaseEnvironment
  targetId : String
  toolboxUserId : String
  agentId : String

/-- `document` is the command without its digest; a current command names its attempt. -/
structure ApplyCommand where
  document : Json
  signedManifest : SignedManifest Digest
  signedFeed : SignedFeed Digest
  assignment : ReleaseAssignment
  current : Bool
  expectedCurrentReleaseSequence : Option Nat
  expectedConfigurationRevision : Option Nat
  personal : Option (PersonalBaseline Digest)
  baselineOverride : Option (Nat × BaselineOverride Digest)
  commandDigest : Digest

structure PreparedApply where
  command : ApplyCommand Digest
  publication : FeedPublication Digest
  feedDigest : Digest

inductive SignatureCheck where
  | valid
  | unknownKey
  | invalid

/-- What the service is configured with; `signature` checks a document against the keyring. -/
structure ReleaseService where
  platform : Platform Digest
  keyringError : Option ReleaseError
  expectedEnvironment : Except ReleaseError ReleaseEnvironment
  evidenceSignerError : Option ReleaseError
  signature : Json → SignatureCheck
  isUuid : String → Bool

end Documents

def invalidRequest (message : String) : ReleaseError :=
  { code := "agent_release_invalid_request", status := 400, message }

section Preparation

variable (service : ReleaseService Digest)

def digestValue (value : Json) : Digest := sha256Canonical service.platform value

def validateApplyEnvelope (agentId : String) (command : ApplyCommand Digest)
    (expectedEnvironment : ReleaseEnvironment) : Except ReleaseError Unit :=
  if command.assignment.agentId ≠ agentId then
    .error
      { code := "agent_release_assignment_scope_mismatch", status := 400
        message := "Agent release assignment does not match path, manifest, and feed scope" }
  else if command.assignment.environment ≠ expectedEnvironment ∨
      command.signedManifest.environment ≠ expectedEnvironment ∨
      command.signedFeed.environment ≠ expectedEnvironment then
    .error
      { code := "agent_release_environment_mismatch", status := 400
        message :=
          "Agent release manifest, feed, and assignment must match the runtime environment" }
  else .ok ()

def verifySignedValue (document : Json) (invalidCode : String) : Except ReleaseError Unit :=
  match service.signature document with
  | .valid => .ok ()
  | .unknownKey =>
    .error
      { code := "agent_release_signing_key_unknown", status := 403
        message := "Agent release signature uses an unknown trusted key id" }
  | .invalid =>
    .error { code := invalidCode, status := 403, message := "Agent release signature is invalid" }

def validateCurrentContract (command : ApplyCommand Digest) : Except ReleaseError Unit :=
  if command.current = false ∧ command.signedManifest.controlPlanePolicy = none ∧
      command.signedFeed.activation = none then .ok ()
  else
    match command.current, command.signedManifest.controlPlanePolicy,
        command.signedFeed.activation with
    | true, some _, some activation =>
      if service.isUuid command.assignment.targetId = false then
        .error (invalidRequest "Current agent release targetId must be a UUID")
      else if activation.paused then
        .error (invalidRequest "Paused agent release feeds cannot be applied")
      else if command.signedFeed.publications.length ≠ 1 then
        .error (invalidRequest "Current agent release feed must contain exactly one publication")
      else if command.signedManifest.releaseKind ≠ .capabilityActivation ∨
          activation.activationMode ≠ .perAgent then
        .error (invalidRequest
          "Managed settings only accept per-agent capability activation releases")
      else .ok ()
    | _, _, _ =>
      .error (invalidRequest
        "Current agent release command requires policy, feed activation, and apply attempt subjects")

def publicationIdentityMismatch (message : String) : ReleaseError :=
  { code := "agent_release_publication_identity_mismatch", status := 400, message }

def rollbackTargetMismatch (message : String) : ReleaseError :=
  { code := "agent_release_rollback_target_mismatch", status := 409, message }

def validatePublication (command : ApplyCommand Digest) (now : Int) : Except ReleaseError (FeedPublication Digest) :=
  let manifest := command.signedManifest
  match command.signedFeed.publications.filter fun publication =>
      publication.releaseId == manifest.releaseId &&
        publication.releaseSequence == manifest.releaseSequence with
  | [publication] =>
    if publication.manifest.canonicalize ≠ manifest.document.canonicalize then
      .error (publicationIdentityMismatch
        "Agent release publication embeds a different signed manifest")
    else if publication.manifestDigest ≠ digestValue service manifest.document then
      .error
        { code := "agent_release_publication_digest_mismatch", status := 400
          message := "Agent release publication digest does not match the signed manifest" }
    else
      match publication.rollback with
      | none => .ok publication
      | some rollback =>
        if rollback.toReleaseSequence ≠ manifest.releaseSequence ∨
            rollback.toReleaseId ≠ manifest.releaseId then
          .error (rollbackTargetMismatch
            "Signed rollback target does not match the immutable manifest")
        else if rollback.expiresAt ≤ now then
          .error
            { code := "agent_release_rollback_expired", status := 400
              message := "Signed rollback publication has expired" }
        else .ok publication
  | _ =>
    if command.signedFeed.publications.any fun publication =>
        publication.releaseSequence == manifest.releaseSequence then
      .error (publicationIdentityMismatch
        "Agent release publication identity does not match the signed manifest")
    else
      .error
        { code := "agent_release_publication_not_found", status := 400
          message := "Signed agent release feed does not publish the requested manifest" }

def personalContract (command : ApplyCommand Digest) : Option (PersonalBaselineContract Digest) :=
  match command.signedManifest.controlPlanePolicy with
  | some (.personal contract) => some contract
  | _ => none

def anchorMismatch (message : String) : ReleaseError :=
  { code := "agent_release_baseline_override_anchor_mismatch", status := 409, message }

def validateBaselineOverride (command : ApplyCommand Digest)
    (signed : PersonalBaselineContract Digest) (personal : PersonalBaseline Digest)
    (baselineVersion : Nat) (baselineOverride : BaselineOverride Digest) (now : Int) : Except ReleaseError Unit :=
  let manifest := command.signedManifest
  let feed := command.signedFeed
  if manifest.environment ≠ .production ∨ feed.channel ≠ .stable then
    .error (anchorMismatch
      "Break-glass baseline overrides must anchor a production stable release")
  else if baselineOverride.approvedAt > now then
    .error
      { code := "agent_release_baseline_override_not_approved", status := 409
        message := "Break-glass baseline override approval is not active yet" }
  else if baselineOverride.expiresAt ≤ now then
    .error
      { code := "agent_release_baseline_override_expired", status := 409
        message := "Break-glass baseline override has expired" }
  else if baselineOverride.anchoredReleaseId ≠ manifest.releaseId ∨
      baselineOverride.anchoredReleaseSequence ≠ manifest.releaseSequence ∨
      baselineOverride.anchoredFeedSequence ≠ feed.feedSequence ∨
      baselineOverride.anchoredFeedDigest ≠ digestValue service feed.document ∨
      baselineOverride.anchoredManifestDigest ≠ digestValue service manifest.document ∨
      baselineOverride.anchoredBaselineVersionId ≠ signed.baselineVersionId ∨
      baselineOverride.anchoredBaselineVersion ≠ signed.baselineVersion ∨
      baselineOverride.anchoredEffectiveSettingsDigest ≠ signed.effectiveSettingsDigest then
    .error (anchorMismatch
      "Break-glass baseline override does not match its signed stable anchor")
  else if personal.versionId ≠ baselineOverride.overrideBaselineVersionId ∨
      baselineVersion ≠ baselineOverride.overrideBaselineVersion ∨
      personal.effectiveSettingsDigest ≠ baselineOverride.overrideEffectiveSettingsDigest then
    .error
      { code := "agent_release_baseline_override_identity_mismatch", status := 409
        message := "Break-glass baseline override does not match the requested baseline identity" }
  else if baselineOverride.overrideBaselineVersionId = signed.baselineVersionId ∧
      baselineOverride.overrideBaselineVersion = signed.baselineVersion ∧
      baselineOverride.overrideEffectiveSettingsDigest = signed.effectiveSettingsDigest then
    .error
      { code := "agent_release_baseline_override_not_distinct", status := 409
        message :=
          "Break-glass baseline override cannot masquerade as the signed manifest baseline" }
  else .ok ()

/-- The identity that the baseline must have, and the digest that its settings must have. -/
def validateBaselineIdentity (command : ApplyCommand Digest)
    (signed : PersonalBaselineContract Digest) (personal : PersonalBaseline Digest) (now : Int) :
    Except ReleaseError Digest :=
  match command.baselineOverride with
  | some (baselineVersion, baselineOverride) => do
      validateBaselineOverride service command signed personal baselineVersion baselineOverride now
      pure baselineOverride.overrideEffectiveSettingsDigest
  | none =>
    if personal.versionId ≠ signed.baselineVersionId then
      .error
        { code := "agent_release_personal_baseline_id_mismatch", status := 409
          message := "Personal baseline version does not match the signed manifest" }
    else if personal.effectiveSettingsDigest ≠ signed.effectiveSettingsDigest then
      .error
        { code := "agent_release_personal_baseline_digest_mismatch", status := 409
          message := "Personal baseline digest does not match the signed manifest" }
    else .ok signed.effectiveSettingsDigest

def validatePersonalBaselineCommand (command : ApplyCommand Digest) (now : Int) : Except ReleaseError Unit :=
  match personalContract command, command.personal with
  | none, none => .ok ()
  | some signed, some personal =>
    if command.signedManifest.managedSettings ≠ [] then
      .error (invalidRequest
        "Personal baseline releases cannot embed mutable managed settings in the manifest")
    else do
      let expectedDigest ← validateBaselineIdentity service command signed personal now
      if digestValue service (.object personal.settings) ≠ expectedDigest then
        .error
          { code := "agent_release_personal_baseline_settings_digest_mismatch", status := 409
            message := "Resolved personal baseline settings do not match the signed digest" }
      else .ok ()
  | _, _ =>
    .error (invalidRequest
      "Personal baseline releases require exact resolved settings and identity")

def orFault : Option ReleaseError → Except ReleaseError Unit
  | some error => .error error
  | none => .ok ()

def prepareAgentReleaseApply (agentId : String) (command : ApplyCommand Digest) (now : Int) :
    Except ReleaseError (PreparedApply Digest) := do
  orFault service.keyringError
  let expectedEnvironment ← service.expectedEnvironment
  validateApplyEnvelope agentId command expectedEnvironment
  verifySignedValue service command.signedManifest.document
    "agent_release_manifest_signature_invalid"
  verifySignedValue service command.signedFeed.document "agent_release_feed_signature_invalid"
  validateCurrentContract service command
  let publication ← validatePublication service command now
  let feedDigest := digestValue service command.signedFeed.document
  if command.commandDigest ≠ digestValue service command.document then
    .error
      { code := "agent_release_command_digest_mismatch", status := 400
        message := "Agent release command digest does not match its canonical payload" }
  else
    validatePersonalBaselineCommand service command now
    if command.current then orFault service.evidenceSignerError
    pure { command, publication, feedDigest }

end Preparation

section Evidence

variable (service : ReleaseService Digest)

def settingsHashFromAgent (settings : Settings) (personal : Option (PersonalBaseline Digest)) : Digest :=
  digestValue service (settingsFromAgent settings (personal.map PersonalBaseline.settings))

def baselineOverrideFromReceipt (row : ReceiptRow Digest) : Except ReleaseError (Option (BaselineOverride Digest)) :=
  match row.baselineOverride with
  | none => .ok none
  | some (baselineOverride, digest) =>
    if digestValue service baselineOverride.document = digest ∧
        row.personalBaseline.any fun personal =>
          personal.versionId == baselineOverride.overrideBaselineVersionId &&
            personal.effectiveSettingsDigest ==
              baselineOverride.overrideEffectiveSettingsDigest then
      .ok (some baselineOverride)
    else
      .error
        { code := "agent_release_baseline_override_receipt_invalid", status := 409
          message := "Break-glass baseline override receipt provenance is invalid" }

def evidenceFromReceipt (agentId : String) (row : ReceiptRow Digest) :
    Except ReleaseError (ReleaseEvidence Digest) := do
  let baselineOverride ← baselineOverrideFromReceipt service row
  pure
    { agentId
      releaseId := row.appliedReleaseId
      releaseSequence := row.appliedReleaseSequence
      feedSequence := row.appliedFeedSequence
      channel := row.appliedChannel
      feedDigest := row.appliedFeedDigest
      manifestDigest := row.manifestDigest
      drifted := row.personalBaseline.any fun personal =>
        personal.effectiveSettingsDigest != row.settingsHash
      settingsHash := row.settingsHash
      personalBaseline := row.personalBaseline.map fun personal =>
        (personal.versionId, personal.effectiveSettingsDigest)
      baselineOverride
      liveSettingsHash := none
      appliedAt := row.appliedAt }

def receiptEnvironmentMismatch (message : String) : ReleaseError :=
  { code := "agent_release_receipt_environment_mismatch", status := 409, message }

/-- The evidence of the receipt against the live settings. -/
def getEvidence (agentId : String) (record : AgentRecord Digest) :
    Except ReleaseError (Option (ReleaseEvidence Digest)) := do
  let expectedEnvironment ← service.expectedEnvironment
  match record.receipt with
  | none => pure none
  | some row =>
    if row.environment ≠ expectedEnvironment then
      .error (receiptEnvironmentMismatch
        "Agent release evidence belongs to another runtime environment")
    else
      let evidence ← evidenceFromReceipt service agentId row
      let liveSettingsHash := settingsHashFromAgent service record.settings row.personalBaseline
      if liveSettingsHash = row.settingsHash then pure (some evidence)
      else pure (some { evidence with drifted := true, liveSettingsHash := some liveSettingsHash })

def releaseStep {α : Type} : Except ReleaseError α → Tx Digest α
  | .ok result => pure result
  | .error error => .fail (.release error)

def refuse {α : Type} (code : String) (status : Nat) (message : String) : Tx Digest α :=
  .fail (.release { code, status, message })

def getEvidenceInTransaction (agentId : String) : Tx Digest (Option (ReleaseEvidence Digest)) := do
  match ← Transaction.read id with
  | none => pure none
  | some record => releaseStep (getEvidence service agentId record)

def preparedReleaseRequiresConfigurationMutation (agentId : String)
    (prepared : PreparedApply Digest) : Tx Digest Bool := do
  match ← getEvidenceInTransaction service agentId with
  | none => pure true
  | some evidence =>
    pure (evidence.releaseId ≠ prepared.command.signedManifest.releaseId ∨
      evidence.releaseSequence ≠ prepared.command.signedManifest.releaseSequence ∨
      evidence.manifestDigest ≠ prepared.publication.manifestDigest ∨
      evidence.drifted = true)

end Evidence

section Applying

variable (service : ReleaseService Digest) (target : Target) (now : Int)

def assertExpectedSettingsHash (command : ApplyCommand Digest) (settingsHash : Digest) : Except ReleaseError Unit :=
  let signed :=
    match command.signedManifest.controlPlanePolicy with
    | some (.personal contract) => some contract.effectiveSettingsDigest
    | some (.baseline hash) => some hash
    | none => none
  let expected :=
    (command.baselineOverride.map fun given => given.2.overrideEffectiveSettingsDigest).or signed
  if expected.any fun digest => digest != settingsHash then
    .error
      { code := "agent_release_settings_hash_mismatch", status := 409
        message := "Applied managed settings do not match the signed baseline hash" }
  else .ok ()

def assertRetryMatchesReceipt (current : ReceiptRow Digest) (command : ApplyCommand Digest) :
    Except ReleaseError Unit := do
  let identity := fun personal : PersonalBaseline Digest =>
    (personal.versionId, personal.effectiveSettingsDigest)
  if current.personalBaseline.map identity ≠ command.personal.map identity then
    .error
      { code := "agent_release_personal_baseline_retry_identity_mismatch", status := 409
        message := "Agent release retry must use the originally persisted baseline identity" }
  else
    let persisted ← baselineOverrideFromReceipt service current
    let document := fun given : BaselineOverride Digest => given.document.canonicalize
    if persisted.map document ≠ command.baselineOverride.map fun given => document given.2 then
      .error
        { code := "agent_release_baseline_override_retry_mismatch", status := 409
          message := "Agent release retry must use the originally persisted break-glass provenance" }
    else pure ()

/-- Writes the command's settings and answers the settings that the row then has. -/
def applyCommandSettings (command : ApplyCommand Digest) (configurationRevision : Nat) :
    Tx Digest Settings := do
  match command.personal with
  | none =>
    replaceSettings configurationRevision
      (applyLegacyManagedSettings service.platform.parameterText fun key =>
        command.signedManifest.managedSettings.lookup key)
  | some personal =>
    let field := fun key : SettingKey => (Json.object personal.settings).get? key.name
    replaceSettings configurationRevision
      (replaceReleaseOwnedSettings service.platform.parameterText field)
    syncProvisioningGrants target now service.platform field
  match ← Transaction.read id with
  | some record => pure record.settings
  | none =>
    refuse "agent_release_agent_not_found" 404 "Agent release target disappeared during apply"

def cursorFor (environment : ReleaseEnvironment) (channel : ReleaseChannel) (row : FeedCursorRow Digest) : Bool :=
  row.environment == environment && row.channel == channel

/-- `INSERT … ON CONFLICT DO UPDATE`. -/
def putCursor (row : FeedCursorRow Digest) (cursors : List (FeedCursorRow Digest)) : List (FeedCursorRow Digest) :=
  if cursors.any (cursorFor row.environment row.channel) then
    cursors.map fun other => if cursorFor row.environment row.channel other then row else other
  else cursors ++ [row]

def writeFeedCursor (prepared : PreparedApply Digest) (cursor : Option (FeedCursorRow Digest)) : Tx Digest Unit :=
  let feed := prepared.command.signedFeed
  if cursor.any fun row =>
      row.highestFeedSequence == feed.feedSequence &&
        row.highestFeedDigest == prepared.feedDigest then
    pure ()
  else
    Transaction.write (Option.map fun record =>
      record.withCursors (putCursor
        { environment := feed.environment, channel := feed.channel
          highestFeedSequence := feed.feedSequence, highestFeedDigest := prepared.feedDigest }
        record.cursors))

def writeReceipt (row : ReceiptRow Digest) : Tx Digest Unit :=
  Transaction.write (Option.map fun record => record.withReceipt row)

def expectedCurrentMismatch {α : Type} : Tx Digest α :=
  refuse "agent_release_expected_current_mismatch" 409
    "Agent release compare-and-set precondition does not match"

/-- The digest of the settings once they are repaired, or of the settings as they are. -/
def repairedHash (command : ApplyCommand Digest) (configurationRevision : Nat) (repaired : Bool)
    (settingsHash : Digest) : Tx Digest Digest :=
  if repaired then do
    let settings ← applyCommandSettings service target now command configurationRevision
    pure (settingsHashFromAgent service settings command.personal)
  else pure settingsHash

section

variable (prepared : PreparedApply Digest)
include prepared

/-- The receipt of the same release once a later feed has been seen. -/
def advancedReceipt (current : ReceiptRow Digest) : ReceiptRow Digest :=
  let feed := prepared.command.signedFeed
  { current with
    desiredFeedSequence := feed.feedSequence
    appliedFeedSequence := feed.feedSequence
    appliedChannel := feed.channel
    appliedFeedDigest := prepared.feedDigest }

def advanceReceipt (current : ReceiptRow Digest)
    (repaired : Bool) : Tx Digest (ReleaseResult Digest) := do
  let feed := prepared.command.signedFeed
  if repaired = true ∨ feed.feedSequence ≠ current.appliedFeedSequence ∨
      feed.channel ≠ current.appliedChannel ∨ prepared.feedDigest ≠ current.appliedFeedDigest then
    writeReceipt (advancedReceipt prepared current)
    let evidence ← releaseStep
      (evidenceFromReceipt service target.agentId (advancedReceipt prepared current))
    pure { evidence, idempotent := !repaired, repaired }
  else
    let evidence ← releaseStep (evidenceFromReceipt service target.agentId current)
    pure { evidence, idempotent := true, repaired := false }

/-- The branch for the sequence that is applied already: repairs drift and moves the feed on. -/
def retryRelease (configurationRevision : Nat)
    (agent : AgentRecord Digest) (current : ReceiptRow Digest)
    (cursor : Option (FeedCursorRow Digest)) : Tx Digest (ReleaseResult Digest) := do
  let command := prepared.command
  if command.current = true ∧
      command.expectedCurrentReleaseSequence ≠ some current.appliedReleaseSequence then
    expectedCurrentMismatch
  else if current.manifestDigest ≠ prepared.publication.manifestDigest ∨
      current.appliedReleaseId ≠ command.signedManifest.releaseId then
    refuse "agent_release_sequence_conflict" 409
      "Agent release sequence was already applied with another manifest"
  else
    releaseStep (assertRetryMatchesReceipt service current command)
    let liveSettingsHash := settingsHashFromAgent service agent.settings current.personalBaseline
    let repaired : Bool := liveSettingsHash ≠ current.settingsHash
    let repairedSettingsHash ←
      repairedHash service target now command configurationRevision repaired current.settingsHash
    releaseStep (assertExpectedSettingsHash command repairedSettingsHash)
    if repaired = true ∧ repairedSettingsHash ≠ current.settingsHash then
      refuse "agent_release_settings_drift_unrepairable" 409
        "Signed managed settings cannot restore the complete expected projection"
    else
      writeFeedCursor prepared cursor
      advanceReceipt service target prepared current repaired

/-- Whether a publication may take the place of the current receipt. -/
def checkPublicationOrder (current : Option (ReceiptRow Digest)) : Except ReleaseError Unit :=
  let older := current.filter fun row =>
    prepared.command.signedManifest.releaseSequence < row.appliedReleaseSequence
  match older, prepared.publication.rollback with
  | some _, none =>
    .error
      { code := "agent_release_stale", status := 409
        message := "An older ordinary agent release cannot replace a newer applied release" }
  | some row, some rollback =>
    if rollback.fromReleaseSequence ≠ row.appliedReleaseSequence ∨
        rollback.fromReleaseSequence ≠ row.desiredReleaseSequence then
      .error (rollbackTargetMismatch "Signed rollback source does not match the current receipt")
    else if row.rollbackToReleaseId = none ∨ row.rollbackToSequence = none then
      .error
        { code := "agent_release_rollback_not_authorized", status := 409
          message := "The applied manifest did not pre-authorize a rollback target" }
    else if some rollback.toReleaseId ≠ row.rollbackToReleaseId ∨
        some rollback.toReleaseSequence ≠ row.rollbackToSequence then
      .error (rollbackTargetMismatch
        "Signed rollback target does not match the applied manifest authorization")
    else .ok ()
  | none, some _ =>
    .error
      { code := "agent_release_invalid_rollback", status := 400
        message :=
          "A rollback publication must target an older release from the current sequence" }
  | none, none => .ok ()

def receiptFor (settingsHash : Digest) : ReceiptRow Digest :=
  let command := prepared.command
  let manifest := command.signedManifest
  let feed := command.signedFeed
  { environment := manifest.environment
    desiredReleaseId := manifest.releaseId
    desiredReleaseSequence := manifest.releaseSequence
    desiredFeedSequence := feed.feedSequence
    appliedReleaseId := manifest.releaseId
    appliedReleaseSequence := manifest.releaseSequence
    appliedFeedSequence := feed.feedSequence
    appliedChannel := feed.channel
    appliedFeedDigest := prepared.feedDigest
    rollbackToReleaseId := manifest.rollbackTo.map RollbackTarget.releaseId
    rollbackToSequence := manifest.rollbackTo.map RollbackTarget.releaseSequence
    manifestDigest := prepared.publication.manifestDigest
    status := .applied
    settingsHash
    personalBaseline := command.personal
    baselineOverride := command.baselineOverride.map fun given =>
      (given.2, digestValue service given.2.document)
    appliedAt := now }

/-- The branch for another sequence: a new receipt takes the place of the current one. -/
def replaceRelease (configurationRevision : Nat)
    (current : Option (ReceiptRow Digest)) (cursor : Option (FeedCursorRow Digest)) :
    Tx Digest (ReleaseResult Digest) := do
  let command := prepared.command
  if command.expectedCurrentReleaseSequence ≠ current.map ReceiptRow.appliedReleaseSequence then
    expectedCurrentMismatch
  else
    releaseStep (checkPublicationOrder prepared current)
    writeFeedCursor prepared cursor
    let updated ← applyCommandSettings service target now command configurationRevision
    let settingsHash := settingsHashFromAgent service updated command.personal
    releaseStep (assertExpectedSettingsHash command settingsHash)
    let row := receiptFor service now prepared settingsHash
    writeReceipt row
    let evidence ← releaseStep (evidenceFromReceipt service target.agentId row)
    pure { evidence, idempotent := false, repaired := false }

/-- The faults of a feed against the cursor of its channel. -/
def checkFeedOrder (cursor : Option (FeedCursorRow Digest)) : Except ReleaseError Unit :=
  let feed := prepared.command.signedFeed
  if cursor.any fun row => feed.feedSequence < row.highestFeedSequence then
    .error
      { code := "agent_release_feed_replay", status := 409
        message := "Agent release feed sequence is older than the channel cursor" }
  else if cursor.any fun row =>
      feed.feedSequence == row.highestFeedSequence &&
        row.highestFeedDigest != prepared.feedDigest then
    .error
      { code := "agent_release_feed_sequence_conflict", status := 409
        message :=
          "Agent release feed sequence was already observed with different signed bytes" }
  else .ok ()

def applyPreparedAgentRelease (configurationRevision : Nat) :
    Tx Digest (ReleaseResult Digest) := do
  let command := prepared.command
  let manifest := command.signedManifest
  match ← Transaction.read id with
  | none =>
    refuse "agent_release_agent_not_found" 404
      "Agent release target does not exist in the authenticated organization"
  | some agent =>
    if agent.ownerUserId ≠ some command.assignment.toolboxUserId then
      refuse "agent_release_assignment_target_mismatch" 404
        "Agent release assignment does not match the Lobu agent owner"
    else if agent.receipt.any fun row => row.environment != manifest.environment then
      .fail (.release (receiptEnvironmentMismatch
        "Agent release receipt belongs to another runtime environment"))
    else
      let cursor := agent.cursors.find?
        (cursorFor manifest.environment command.signedFeed.channel)
      releaseStep (checkFeedOrder prepared cursor)
      match agent.receipt.filter fun row =>
          row.appliedReleaseSequence = manifest.releaseSequence with
      | some current =>
        retryRelease service target now prepared configurationRevision agent current cursor
      | none =>
        replaceRelease service target now prepared configurationRevision agent.receipt cursor

end

end Applying

end Lobu.Configuration
