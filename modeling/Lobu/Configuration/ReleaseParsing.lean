import Lobu.Configuration.Bootstrap
import Lobu.Configuration.ReleaseFormats
import Lobu.Foundation.Members

namespace Lobu.Configuration

open Lobu.Foundation Lobu.Foundation.Json

/-! # Parsing a release's command

The parsers check a command part by part.  Most of them build what they return anew,
member by member; a policy, a rollout, an override and the personal settings are
returned as they came.
-/

abbrev Members := List (String × Json)

def invalidManagedSettings (message : String) : ReleaseError :=
  { code := "agent_release_invalid_managed_settings", status := 400, message }

def invalidRollback (message : String) : ReleaseError :=
  { code := "agent_release_invalid_rollback", status := 400, message }

mutual

/-- The checks of I-JSON that a parsed value can fail: its numbers must be finite. -/
def assertJsonValue (path : String) : Json → Except String Unit
  | .number (.infinite _) => .error (path ++ " must contain a finite number")
  | .array items => assertJsonItems path 0 items
  | .object fields => assertJsonFields path fields
  | _ => .ok ()

def assertJsonItems (path : String) (index : Nat) : List Json → Except String Unit
  | [] => .ok ()
  | item :: items =>
    match assertJsonValue (path ++ "[" ++ toString index ++ "]") item with
    | .ok () => assertJsonItems path (index + 1) items
    | .error message => .error message

def assertJsonFields (path : String) : List (String × Json) → Except String Unit
  | [] => .ok ()
  | (name, value) :: fields =>
    match assertJsonValue (path ++ "." ++ name) value with
    | .ok () => assertJsonFields path fields
    | .error message => .error message

end

def assertAgentReleaseJsonValue (value : Json) : Except ReleaseError Unit :=
  match assertJsonValue "$" value with
  | .ok () => .ok ()
  | .error message => .error { code := "agent_release_invalid_json", status := 400, message }

def ensure (condition : Bool) (error : ReleaseError) : Except ReleaseError Unit :=
  if condition then .ok () else .error error

def onlyIf (condition : Bool) (check : Except ReleaseError Unit) : Except ReleaseError Unit :=
  if condition then check else .ok ()

/-- The check of a loop over keys; the first key that fails gives the error. -/
def ensureAll (keys : List String) (holds : String → Bool) (error : String → ReleaseError) :
    Except ReleaseError Unit :=
  match keys.find? fun key => !holds key with
  | some key => .error (error key)
  | none => .ok ()

def recordOr (error : ReleaseError) : Option Json → Except ReleaseError Members
  | some (.object fields) => .ok fields
  | _ => .error error

def requireRecord (value : Option Json) (label : String) : Except ReleaseError Members :=
  recordOr (invalidRequest ("Agent release " ++ label ++ " must be an object")) value

def hasOwn (fields : Members) (key : String) : Bool := (fields.lookup key).isSome

def assertExactKeys (fields : Members) (allowed : List String) (label : String) : Except ReleaseError Unit :=
  ensureAll (fields.map Prod.fst) allowed.contains fun key =>
    invalidRequest ("Unknown agent release " ++ label ++ " key: " ++ key)

def assertRequiredExactKeys (fields : Members) (required optional : List String) (label : String) :
    Except ReleaseError Unit := do
  assertExactKeys fields (required ++ optional) label
  ensureAll required (hasOwn fields) fun key =>
    invalidRequest ("Missing agent release " ++ label ++ " key: " ++ key)

/-- A member that is parsed where it is there. -/
def parseOwn (fields : Members) (key : String)
    (parse : Option Json → Except ReleaseError Json) : Except ReleaseError (Option Json) :=
  match fields.lookup key with
  | some value => some <$> parse (some value)
  | none => .ok none

def isOneOf (texts : List String) : Option Json → Bool := isTextWhere texts.contains

def isTrue (value : Option Json) : Bool := decide (value = some (.bool true))

def isBool : Option Json → Bool
  | some (.bool _) => true
  | _ => false

def parseEnvironment (value : Option Json) (label : String) : Except ReleaseError (Option Json) := do
  ensure (isOneOf ["local", "staging", "production"] value)
    (invalidRequest ("Agent release " ++ label ++ " environment is invalid"))
  pure value

def parseStringArray (value : Option Json) (label : String) (minimum : Nat) :
    Except ReleaseError (List String) := do
  ensure (isStringArray minimum value) (invalidRequest ("Agent release " ++ label ++ " is invalid"))
  pure (stringsOf value)

def parseSigningMetadata (value : Option Json) (label : String) : Except ReleaseError Json := do
  let fields ← recordOr
    (invalidRequest ("Agent release " ++ label ++ " signing metadata is invalid")) value
  assertExactKeys fields ["algorithm", "keyId", "signature"] (label ++ " signing")
  ensure (isOneOf ["Ed25519"] (fields.lookup "algorithm"))
    (invalidRequest ("Agent release " ++ label ++ " signing algorithm must be Ed25519"))
  ensure (isFilled (fields.lookup "keyId"))
    (invalidRequest ("Agent release " ++ label ++ " signing key id is required"))
  ensure (isTextWhere isCanonicalBase64 (fields.lookup "signature"))
    (invalidRequest ("Agent release " ++ label ++ " signature must be canonical base64"))
  pure (ofMembers
    [("algorithm", some (.string "Ed25519")), ("keyId", fields.lookup "keyId"),
      ("signature", fields.lookup "signature")])

def cohortAlgorithm : String := "hmac-sha256-toolbox-user-v1"

def parseSignedRollout (value : Option Json) : Except ReleaseError Json := do
  let rollout ← requireRecord value "signed rollout"
  assertRequiredExactKeys rollout ["percentage", "paused", "cohortAlgorithmVersion"] []
    "signed rollout"
  ensure (isIntegerWithin 0 100 (rollout.lookup "percentage") && isBool (rollout.lookup "paused") &&
      isOneOf [cohortAlgorithm] (rollout.lookup "cohortAlgorithmVersion"))
    (invalidRequest "Agent release signed rollout is invalid")
  pure (.object rollout)

def assertManagedNestedKeys (label : String) (fields : Members) (allowed : List String) : Except ReleaseError Unit :=
  ensureAll (fields.map Prod.fst) allowed.contains fun key =>
    invalidManagedSettings ("Agent release refused unmanaged " ++ label ++ " key: " ++ key)

def parseModelSelection (value : Option Json) : Except ReleaseError Json := do
  let fields ← recordOr
    (invalidManagedSettings "Agent release modelSelection must be an object") value
  assertManagedNestedKeys "modelSelection" fields ["mode", "pinnedModel"]
  ensure (isOneOf ["auto", "pinned"] (fields.lookup "mode"))
    (invalidManagedSettings "Agent release modelSelection mode must be auto or pinned")
  if fields.lookup "mode" = some (.string "auto") then
    ensure (!hasOwn fields "pinnedModel")
      (invalidManagedSettings "Agent release auto model selection cannot include pinnedModel")
    pure (ofMembers [("mode", some (.string "auto"))])
  else
    ensure (isFilled (fields.lookup "pinnedModel"))
      (invalidManagedSettings "Agent release pinned model selection requires pinnedModel")
    pure (ofMembers
      [("mode", some (.string "pinned")), ("pinnedModel", fields.lookup "pinnedModel")])

def isTextArray : Option Json → Bool
  | some (.array items) => items.all fun item => isTextWhere (fun _ => true) (some item)
  | _ => false

def parseToolsConfig (value : Option Json) : Except ReleaseError Json := do
  let fields ← recordOr (invalidManagedSettings "Agent release toolsConfig must be an object") value
  assertManagedNestedKeys "toolsConfig" fields
    ["allowedTools", "deniedTools", "strictMode", "mcpExposure"]
  ensureAll ["allowedTools", "deniedTools"]
    (fun key => !hasOwn fields key || isTextArray (fields.lookup key)) fun key =>
      invalidManagedSettings
        ("Agent release toolsConfig " ++ key ++ " must be an array of strings")
  ensure (!hasOwn fields "strictMode" || isBool (fields.lookup "strictMode"))
    (invalidManagedSettings "Agent release toolsConfig strictMode must be a boolean")
  ensure (!hasOwn fields "mcpExposure" ||
      isOneOf ["tools", "cli"] (fields.lookup "mcpExposure"))
    (invalidManagedSettings "Agent release toolsConfig mcpExposure must be tools or cli")
  pure (ofMembers
    [("allowedTools", fields.lookup "allowedTools"), ("deniedTools", fields.lookup "deniedTools"),
      ("strictMode", fields.lookup "strictMode"), ("mcpExposure", fields.lookup "mcpExposure")])

def managedSettingNames : List String := legacyManagedReleaseSettingKeys.map SettingKey.name

def parseManagedSettings (value : Option Json) : Except ReleaseError Json := do
  let fields ← recordOr
    (invalidManagedSettings "Agent release managed settings must be an object") value
  ensureAll (fields.map Prod.fst) managedSettingNames.contains fun key =>
    invalidManagedSettings ("Agent release refused unmanaged setting key: " ++ key)
  ensureAll ["identityMd", "soulMd", "userMd"]
    (fun key => !hasOwn fields key || isTextWhere (fun _ => true) (fields.lookup key)) fun key =>
      invalidManagedSettings ("Agent release managed setting " ++ key ++ " must be a string")
  let modelSelection ← parseOwn fields "modelSelection" parseModelSelection
  let toolsConfig ← parseOwn fields "toolsConfig" parseToolsConfig
  pure (ofMembers
    [("identityMd", fields.lookup "identityMd"), ("soulMd", fields.lookup "soulMd"),
      ("userMd", fields.lookup "userMd"), ("modelSelection", modelSelection),
      ("toolsConfig", toolsConfig)])

section Policy

variable (runtime : Runtime)

def parseEligibility (value : Option Json) : Except ReleaseError Unit := do
  let eligibility ← requireRecord value "eligibility"
  assertRequiredExactKeys eligibility
    ["minimumSourceSequence", "maximumSourceSequence", "freshInstallAllowed",
      "requiredAppliedCapabilities", "requiredIntermediateSequences", "cohortAlgorithmVersion"]
    [] "eligibility"
  ensureAll ["minimumSourceSequence", "maximumSourceSequence"]
    (fun key => decide (eligibility.lookup key = some .null) ||
      isPositiveSafeInteger (eligibility.lookup key))
    fun key => invalidRequest ("Agent release eligibility " ++ key ++ " is invalid")
  ensure (isBool (eligibility.lookup "freshInstallAllowed") &&
      isOneOf [cohortAlgorithm] (eligibility.lookup "cohortAlgorithmVersion"))
    (invalidRequest "Agent release eligibility is invalid")
  let minimum := safeInteger? (eligibility.lookup "minimumSourceSequence")
  let maximum := safeInteger? (eligibility.lookup "maximumSourceSequence")
  ensure (minimum.all fun lower => maximum.all fun upper => decide (lower ≤ upper))
    (invalidRequest "Agent release eligibility source range is invalid")
  let _ ← parseStringArray (eligibility.lookup "requiredAppliedCapabilities")
    "requiredAppliedCapabilities" 0
  ensure (isPositiveIntegerArray (eligibility.lookup "requiredIntermediateSequences"))
    (invalidRequest "Agent release requiredIntermediateSequences is invalid")

def postCanaryMachineChecks : List String :=
  ["assignmentReadback", "provisioningTarget", "appliedReleaseReceipt", "baselineDigest",
    "capabilitySnapshot", "mcpToolInventory", "requiredApiRoutes", "lineRoute"]

def parsePostCanaryMachinePolicy (value : Option Json) : Except ReleaseError Unit := do
  let policy ← requireRecord value "post-canary machine policy"
  assertRequiredExactKeys policy
    ["schemaVersion", "required", "evidenceTtlMinutes", "requiredChecks", "lineRouteMode",
      "requiredCapabilityIds", "requiredToolNames", "requiredApiContracts"]
    [] "post-canary machine policy"
  ensure (isIntegerWithin 1 1 (policy.lookup "schemaVersion") && isTrue (policy.lookup "required") &&
      isIntegerWithin 15 15 (policy.lookup "evidenceTtlMinutes") &&
      isOneOf ["optional", "required"] (policy.lookup "lineRouteMode"))
    (invalidRequest "Agent release post-canary machine policy is invalid")
  let requiredChecks ← parseStringArray (policy.lookup "requiredChecks")
    "postCanaryMachinePolicy.requiredChecks" 1
  ensure (requiredChecks.length == postCanaryMachineChecks.length &&
      postCanaryMachineChecks.all requiredChecks.contains)
    (invalidRequest "Agent release post-canary machine check is invalid")
  let _ ← parseStringArray (policy.lookup "requiredCapabilityIds")
    "postCanaryMachinePolicy.requiredCapabilityIds" 1
  let _ ← parseStringArray (policy.lookup "requiredToolNames")
    "postCanaryMachinePolicy.requiredToolNames" 1
  let _ ← parseStringArray (policy.lookup "requiredApiContracts")
    "postCanaryMachinePolicy.requiredApiContracts" 1

def parseGates (value : Option Json) : Except ReleaseError Unit := do
  let gates ← requireRecord value "rollout gates"
  assertRequiredExactKeys gates
    ["minimumCanaries", "minimumCanaryObservationMinutes", "requiredSmokeNames"]
    ["postCanarySmokeNames", "postCanaryMachinePolicy"] "rollout gates"
  ensure (isPositiveSafeInteger (gates.lookup "minimumCanaries") &&
      isIntegerWithin 30 1440 (gates.lookup "minimumCanaryObservationMinutes"))
    (invalidRequest "Agent release rollout gates are invalid")
  let requiredSmokeNames ← parseStringArray (gates.lookup "requiredSmokeNames")
    "requiredSmokeNames" 1
  if hasOwn gates "postCanarySmokeNames" then
    let postCanarySmokeNames ← parseStringArray (gates.lookup "postCanarySmokeNames")
      "postCanarySmokeNames" 1
    ensure (!postCanarySmokeNames.any requiredSmokeNames.contains)
      (invalidRequest "Agent release post-canary smoke overlaps required smoke evidence")
  if hasOwn gates "postCanaryMachinePolicy" then
    parsePostCanaryMachinePolicy (gates.lookup "postCanaryMachinePolicy")

def parseRolloutPolicy (value : Option Json) : Except ReleaseError Unit := do
  let rolloutPolicy ← requireRecord value "rolloutPolicy"
  assertRequiredExactKeys rolloutPolicy ["kind", "stages", "gates"] [] "rolloutPolicy"
  ensure (isOneOf ["standard", "critical"] (rolloutPolicy.lookup "kind"))
    (invalidRequest "Agent release rollout policy kind is invalid")
  ensure (isPercentageArray (rolloutPolicy.lookup "stages"))
    (invalidRequest "Agent release rollout stages is invalid")
  parseGates (rolloutPolicy.lookup "gates")

/-- `String(value)` of a property. -/
def textOfMember (fields : Members) (key : String) : String :=
  match fields.lookup key with
  | some value => runtime.textOf value
  | none => "undefined"

/-- One carrier; what comes back is the key under which no other may come. -/
def parseRequiredCarrier (carrierKeys : List String) (value : Json) :
    Except ReleaseError String := do
  let carrier ← requireRecord (some value) "required carrier"
  assertRequiredExactKeys carrier ["component", "revision", "origin", "provides", "requires"]
    ["artifactDigest", "imageDigest"] "required carrier"
  let component := textOfMember runtime carrier "component"
  ensure (["toolbox-api", "toolbox-mcp", "lobu-runtime"].contains component &&
      isFilled (carrier.lookup "revision") &&
      isTextWhere runtime.isCanonicalHttpsOrigin (carrier.lookup "origin"))
    (invalidRequest "Agent release required carrier is invalid")
  let _ ← parseStringArray (carrier.lookup "provides") "carrier provides" 1
  let _ ← parseStringArray (carrier.lookup "requires") "carrier requires" 0
  let carrierKey := component ++ ":" ++ textOfMember runtime carrier "revision"
  ensure (!carrierKeys.contains carrierKey)
    (invalidRequest "Agent release required carrier is duplicated")
  let digests := ["artifactDigest", "imageDigest"].filterMap fun key => carrier.lookup key
  ensure (match digests with | [digest] => isSha256 (runtime.textOf digest) | _ => false)
    (invalidRequest "Agent release carrier must contain exactly one artifact digest")
  pure carrierKey

def parseRequiredCarriers (carriers : List Json) : Except ReleaseError Unit := do
  let _ ← carriers.foldlM (fun carrierKeys carrier => do
    let carrierKey ← parseRequiredCarrier runtime carrierKeys carrier
    pure (carrierKeys ++ [carrierKey])) []

/-- What a carrier provides, under its plain name and under its component's. -/
def providedBy (carrier : Json) : List String :=
  (stringsOf (carrier.get? "provides")).flatMap fun provided =>
    [provided, runtime.textOf ((carrier.get? "component").getD .null) ++ ":" ++ provided]

def parseBaselinePatch (value : Json) : Except ReleaseError Unit := do
  let item ← requireRecord (some value) "baseline patch"
  assertRequiredExactKeys item ["fromSettingsHash", "patchDigest"] [] "baseline patch"
  ensure (isSha256 (textOfMember runtime item "fromSettingsHash") &&
      isSha256 (textOfMember runtime item "patchDigest"))
    (invalidRequest "Agent release baseline patch is invalid")

def itemsOf : Option Json → Option (List Json)
  | some (.array items) => some items
  | _ => none

def parseBaseline (value : Option Json) : Except ReleaseError Unit := do
  let baseline ← requireRecord value "baseline"
  assertRequiredExactKeys baseline ["settingsHash", "fullBundleDigest", "patches"] [] "baseline"
  ensure (isSha256 (textOfMember runtime baseline "settingsHash") &&
      isSha256 (textOfMember runtime baseline "fullBundleDigest") &&
      (itemsOf (baseline.lookup "patches")).any fun patches => decide (patches.length ≤ 32))
    (invalidRequest "Agent release baseline is invalid")
  ((itemsOf (baseline.lookup "patches")).getD []).forM (parseBaselinePatch runtime)

def personalBaselineSourcePath : String :=
  "api/src/modules/agent-workbench/agent-baselines/pm-marketing-user-agent/baseline.json"

def isRevision (text : String) : Bool := isHexText 40 text.toList

def parsePersonalAgentBaselineContract (value : Option Json) : Except ReleaseError Unit := do
  let baseline ← requireRecord value "personalAgentBaseline"
  assertRequiredExactKeys baseline
    ["baselineVersionId", "baselineVersion", "templateKey", "materializationVersion",
      "sourceRepository", "sourceRevision", "sourcePath", "sourceDigest",
      "effectiveSettingsDigest", "componentDigests"]
    [] "personalAgentBaseline"
  ensure (isTextWhere isPersonalBaselineVersion (baseline.lookup "baselineVersionId") &&
      isPositiveSafeInteger (baseline.lookup "baselineVersion") &&
      isOneOf ["pm-marketing-user-agent"] (baseline.lookup "templateKey") &&
      ((baseline.lookup "materializationVersion").bind runtime.numberOf).any
        [JsNumber.finite 1, JsNumber.finite 2].contains &&
      isOneOf ["shifu-tw/shifu-toolbox"] (baseline.lookup "sourceRepository") &&
      isTextWhere isRevision (baseline.lookup "sourceRevision") &&
      isOneOf [personalBaselineSourcePath] (baseline.lookup "sourcePath") &&
      isTextWhere isSha256 (baseline.lookup "sourceDigest") &&
      isTextWhere isSha256 (baseline.lookup "effectiveSettingsDigest"))
    (invalidRequest "Agent release personal baseline is invalid")
  let components ← requireRecord (baseline.lookup "componentDigests")
    "personalAgentBaseline componentDigests"
  assertRequiredExactKeys components ["instructions", "skills", "mcp", "toolPolicy", "runtime"] []
    "personalAgentBaseline componentDigests"
  ensure (components.all fun field => isTextWhere isSha256 (some field.2))
    (invalidRequest "Agent release personal baseline component digest is invalid")

/-- One capability, under a name that no earlier one has. -/
def parseCapability (capabilityNames : List String) (value : Json) :
    Except ReleaseError String := do
  let capability ← requireRecord (some value) "capability"
  assertRequiredExactKeys capability ["name", "requires", "smokes"] [] "capability"
  ensure (isTextWhere isCapabilityName (capability.lookup "name"))
    (invalidRequest "Agent release capability name is invalid")
  let name := ((capability.lookup "name").bind Json.string?).getD ""
  ensure (!capabilityNames.contains name) (invalidRequest "Agent release capability is duplicated")
  let _ ← parseStringArray (capability.lookup "requires") "capability requires" 1
  let _ ← parseStringArray (capability.lookup "smokes") "capability smokes" 1
  pure name

def parseCapabilities (capabilities : List Json) : Except ReleaseError Unit := do
  let _ ← capabilities.foldlM (fun capabilityNames capability => do
    let name ← parseCapability capabilityNames capability
    pure (capabilityNames ++ [name])) []

def parseConsumer (fields : Members) (key : String) : Except ReleaseError Unit := do
  let consumer ← requireRecord (fields.lookup key) key
  assertRequiredExactKeys consumer ["identity", "origin", "evidenceName"] [] key
  ensure (isFilled (consumer.lookup "identity") &&
      isTextWhere runtime.isCanonicalHttpsOrigin (consumer.lookup "origin") &&
      isFilled (consumer.lookup "evidenceName"))
    (invalidRequest ("Agent release " ++ key ++ " is invalid"))

def parseRuntimeCarrierPolicy (value : Option Json) : Except ReleaseError Unit := do
  let carrier ← requireRecord value "runtimeCarrier"
  assertRequiredExactKeys carrier
    ["backwardCompatible", "backwardCompatibilitySmokes", "boundedDriftMinutes",
      "requiredOperationalEvidence", "previousStable", "queueConsumer", "databaseConsumer"]
    [] "runtimeCarrier"
  ensure (isTrue (carrier.lookup "backwardCompatible") &&
      isIntegerWithin 1 1440 (carrier.lookup "boundedDriftMinutes"))
    (invalidRequest "Agent release runtime carrier policy is invalid")
  let _ ← parseStringArray (carrier.lookup "backwardCompatibilitySmokes")
    "backwardCompatibilitySmokes" 1
  let _ ← parseStringArray (carrier.lookup "requiredOperationalEvidence")
    "requiredOperationalEvidence" 3
  let previous ← requireRecord (carrier.lookup "previousStable") "previousStable"
  assertRequiredExactKeys previous ["releaseId", "releaseSequence"] [] "previousStable"
  ensure (isFilled (previous.lookup "releaseId") &&
      isPositiveSafeInteger (previous.lookup "releaseSequence"))
    (invalidRequest "Agent release previous stable is invalid")
  ["queueConsumer", "databaseConsumer"].forM (parseConsumer runtime carrier)

def parseMigrations (value : Option Json) : Except ReleaseError Unit := do
  let migrations ← requireRecord value "migrations"
  assertRequiredExactKeys migrations ["required", "backwardCompatible"] [] "migrations"
  let _ ← parseStringArray (migrations.lookup "required") "migrations required" 0
  ensure (isBool (migrations.lookup "backwardCompatible"))
    (invalidRequest "Agent release migrations are invalid")

def parseRollbackStrategy (value : Option Json) : Except ReleaseError Unit := do
  let rollback ← requireRecord value "rollbackStrategy"
  assertRequiredExactKeys rollback ["kind", "backwardCompatible", "boundedDriftMinutes"] []
    "rollbackStrategy"
  ensure (isOneOf ["forward_compatible_managed_settings"] (rollback.lookup "kind") &&
      isTrue (rollback.lookup "backwardCompatible") &&
      isIntegerWithin 1 1440 (rollback.lookup "boundedDriftMinutes"))
    (invalidRequest "Agent release rollback strategy is invalid")

/-- The checks of a policy, which is returned as it came. -/
def checkControlPlanePolicy (policy : Members) : Except ReleaseError Unit := do
  assertRequiredExactKeys policy
    ["eligibility", "rolloutPolicy", "requiredCarriers", "baseline", "capabilities", "migrations",
      "rollbackStrategy"]
    ["runtimeCarrier", "personalAgentBaseline", "evidenceVerification"] "controlPlanePolicy"
  if hasOwn policy "evidenceVerification" then
    let _ ← requireRecord (policy.lookup "evidenceVerification") "evidenceVerification"
  parseEligibility (policy.lookup "eligibility")
  parseRolloutPolicy (policy.lookup "rolloutPolicy")
  let carriers := (itemsOf (policy.lookup "requiredCarriers")).getD []
  ensure (decide (1 ≤ carriers.length ∧ carriers.length ≤ 16))
    (invalidRequest "Agent release required carriers are invalid")
  parseRequiredCarriers runtime carriers
  let hasBaseline := decide (policy.lookup "baseline" ≠ some .null)
  if hasBaseline then parseBaseline runtime (policy.lookup "baseline")
  if hasOwn policy "personalAgentBaseline" then
    parsePersonalAgentBaselineContract runtime (policy.lookup "personalAgentBaseline")
  ensure (hasBaseline != hasOwn policy "personalAgentBaseline")
    (invalidRequest "Capability policy must contain exactly one managed baseline contract")
  let capabilities := (itemsOf (policy.lookup "capabilities")).getD []
  ensure (decide (1 ≤ capabilities.length ∧ capabilities.length ≤ 64))
    (invalidRequest "Agent release capabilities are invalid")
  parseCapabilities capabilities
  let requiredCapabilities := (capabilities ++ carriers).flatMap fun part =>
    stringsOf (part.get? "requires")
  ensure (requiredCapabilities.all (carriers.flatMap (providedBy runtime)).contains)
    (invalidRequest "Agent release capability dependency closure is incomplete")
  parseMigrations (policy.lookup "migrations")
  parseRollbackStrategy (policy.lookup "rollbackStrategy")
  if hasOwn policy "runtimeCarrier" then
    parseRuntimeCarrierPolicy runtime (policy.lookup "runtimeCarrier")

def parseControlPlanePolicy (value : Option Json) : Except ReleaseError Json := do
  let policy ← requireRecord value "controlPlanePolicy"
  checkControlPlanePolicy runtime policy
  pure (.object policy)

end Policy

section Command

variable (runtime : Runtime)

def isWithinHour (approvedAt expiresAt : Option Int) : Bool :=
  match approvedAt, expiresAt with
  | some approved, some expires => decide (approved < expires ∧ expires ≤ approved + 3600000)
  | _, _ => false

def parseBaselineOverride (value : Option Json) : Except ReleaseError Json := do
  let given ← requireRecord value "baselineOverride"
  assertRequiredExactKeys given
    ["kind", "recordId", "incidentReference", "operatorUserId", "reason", "approvedAt", "expiresAt",
      "anchoredReleaseId", "anchoredReleaseSequence", "anchoredFeedSequence", "anchoredFeedDigest",
      "anchoredManifestDigest", "anchoredBaselineVersionId", "anchoredBaselineVersion",
      "anchoredEffectiveSettingsDigest", "overrideBaselineVersionId", "overrideBaselineVersion",
      "overrideEffectiveSettingsDigest"]
    [] "baselineOverride"
  ensure (isOneOf ["break_glass"] (given.lookup "kind") &&
      isTextWhere isUuidText (given.lookup "recordId") &&
      isCanonicalNonemptyString 200 (given.lookup "operatorUserId") &&
      isCanonicalNonemptyString 500 (given.lookup "incidentReference") &&
      isCanonicalNonemptyString 2000 (given.lookup "reason") &&
      isCanonicalNonemptyString 200 (given.lookup "anchoredReleaseId") &&
      isCanonicalTimestamp runtime (given.lookup "approvedAt") &&
      isCanonicalTimestamp runtime (given.lookup "expiresAt") &&
      isWithinHour (timeOf runtime (given.lookup "approvedAt"))
        (timeOf runtime (given.lookup "expiresAt")) &&
      isPositiveSafeInteger (given.lookup "anchoredReleaseSequence") &&
      isPositiveSafeInteger (given.lookup "anchoredFeedSequence") &&
      isTextWhere isSha256 (given.lookup "anchoredFeedDigest") &&
      isTextWhere isSha256 (given.lookup "anchoredManifestDigest") &&
      isTextWhere isPersonalBaselineVersion (given.lookup "anchoredBaselineVersionId") &&
      isPositiveSafeInteger (given.lookup "anchoredBaselineVersion") &&
      isTextWhere isSha256 (given.lookup "anchoredEffectiveSettingsDigest") &&
      isTextWhere isPersonalBaselineVersion (given.lookup "overrideBaselineVersionId") &&
      isPositiveSafeInteger (given.lookup "overrideBaselineVersion") &&
      isTextWhere isSha256 (given.lookup "overrideEffectiveSettingsDigest"))
    (invalidRequest "Break-glass baseline override provenance is invalid")
  pure (.object given)

def isOlder (first second : Option Json) : Bool :=
  (safeInteger? first).any fun lower => (safeInteger? second).any fun upper => decide (lower < upper)

def parseManifest (value : Option Json) : Except ReleaseError Json := do
  let fields ← recordOr
    (invalidRequest "Signed agent release manifest must be an object") value
  assertExactKeys fields
    ["releaseId", "releaseSequence", "environment", "releaseKind", "createdAt", "managedSettings",
      "controlPlanePolicy", "rollbackToSequence", "rollbackTo", "signing"]
    "manifest"
  ensure (isFilled (fields.lookup "releaseId")) (invalidRequest "Agent release id is required")
  ensure (isPositiveSafeInteger (fields.lookup "releaseSequence"))
    (invalidRequest "Agent release sequence must be a positive safe integer")
  let environment ← parseEnvironment (fields.lookup "environment") "manifest"
  ensure (isOneOf ["capability_activation", "runtime_carrier"] (fields.lookup "releaseKind"))
    (invalidRequest "Agent release kind is invalid")
  ensure (isTextWhere (isStrictRfc3339 runtime) (fields.lookup "createdAt"))
    (invalidRequest "Agent release createdAt is invalid")
  let managedSettings ← parseManagedSettings (fields.lookup "managedSettings")
  let controlPlanePolicy ← parseOwn fields "controlPlanePolicy" (parseControlPlanePolicy runtime)
  let hasRollbackTo := hasOwn fields "rollbackTo"
  let hasRollbackToSequence := hasOwn fields "rollbackToSequence"
  ensure (hasRollbackTo == hasRollbackToSequence)
    (invalidRollback
      "Agent release manifest rollback target id and sequence must be provided together")
  ensure (!hasRollbackToSequence ||
      isPositiveSafeInteger (fields.lookup "rollbackToSequence") &&
        isOlder (fields.lookup "rollbackToSequence") (fields.lookup "releaseSequence"))
    (invalidRollback
      "Agent release manifest rollback target sequence must be older than its source")
  ensure (!hasRollbackTo || isFilled (fields.lookup "rollbackTo"))
    (invalidRollback "Agent release manifest rollback target id is invalid")
  let signing ← parseSigningMetadata (fields.lookup "signing") "manifest"
  pure (ofMembers
    [("releaseId", fields.lookup "releaseId"),
      ("releaseSequence", fields.lookup "releaseSequence"), ("environment", environment),
      ("releaseKind", fields.lookup "releaseKind"), ("createdAt", fields.lookup "createdAt"),
      ("managedSettings", some managedSettings), ("controlPlanePolicy", controlPlanePolicy),
      ("rollbackToSequence",
        memberIf hasRollbackToSequence (fields.lookup "rollbackToSequence")),
      ("rollbackTo", memberIf hasRollbackTo (fields.lookup "rollbackTo")),
      ("signing", some signing)])

def rollbackFields : List String :=
  ["fromReleaseSequence", "toReleaseSequence", "toReleaseId", "allowDowngrade", "reason", "actor",
    "expiresAt"]

/-- The members that only a rollback has. -/
def checkRollbackFields (fields : Members) : Except ReleaseError Unit := do
  ensure (isPositiveSafeInteger (fields.lookup "fromReleaseSequence"))
    (invalidRollback "Signed rollback requires fromReleaseSequence")
  ensure (isPositiveSafeInteger (fields.lookup "toReleaseSequence"))
    (invalidRollback "Signed rollback requires toReleaseSequence")
  ensure (isFilled (fields.lookup "toReleaseId"))
    (invalidRollback "Signed rollback requires nonempty toReleaseId")
  ensure (isTrue (fields.lookup "allowDowngrade"))
    (invalidRollback "Signed rollback requires allowDowngrade=true")
  ensureAll ["reason", "actor"] (fun key => isFilled (fields.lookup key)) fun key =>
    invalidRollback ("Signed rollback requires nonempty " ++ key)
  ensure (isTextWhere (isStrictRfc3339 runtime) (fields.lookup "expiresAt"))
    (invalidRollback "Signed rollback requires a valid expiresAt")

/-- The members that a publication of another kind has not, and the kind it may not have. -/
def checkOrdinaryFields (fields : Members) : Except ReleaseError Unit := do
  ensure (!rollbackFields.any (hasOwn fields))
    (invalidRollback "Ordinary agent release publication cannot include rollback-only fields")
  ensure (decide (fields.lookup "publicationKind" ≠ some (.string "pause")))
    (invalidRequest "Paused agent release publications cannot be applied")

def parsePublication (value : Json) : Except ReleaseError Json := do
  let fields ← recordOr (invalidRequest "Agent release publication must be an object") (some value)
  assertExactKeys fields
    ["releaseId", "releaseSequence", "manifestDigest", "manifest", "publicationKind",
      "fromReleaseSequence", "toReleaseSequence", "toReleaseId", "allowDowngrade", "reason",
      "actor", "expiresAt"]
    "publication"
  ensure (isFilled (fields.lookup "releaseId"))
    (invalidRequest "Agent release publication id is required")
  ensure (isPositiveSafeInteger (fields.lookup "releaseSequence"))
    (invalidRequest "Agent release publication sequence is invalid")
  ensure (isTextWhere isSha256 (fields.lookup "manifestDigest"))
    (invalidRequest "Agent release publication manifest digest is invalid")
  let publicationKind := fields.lookup "publicationKind"
  ensure (!hasOwn fields "publicationKind" || isOneOf ["release", "rollback", "pause"] publicationKind)
    (invalidRequest "Agent release publication kind is invalid")
  let isRollback := decide (publicationKind = some (.string "rollback"))
  onlyIf (!isRollback) (checkOrdinaryFields fields)
  onlyIf isRollback (checkRollbackFields runtime fields)
  let manifest ← parseManifest runtime (fields.lookup "manifest")
  pure (ofMembers
    ([("releaseId", fields.lookup "releaseId"),
      ("releaseSequence", fields.lookup "releaseSequence"),
      ("manifestDigest", fields.lookup "manifestDigest"), ("manifest", some manifest),
      ("publicationKind", publicationKind)] ++
      rollbackFields.map fun key => (key, memberIf isRollback (fields.lookup key))))

def parsePublications (items : List Json) : Except ReleaseError (List Json) :=
  items.mapM (parsePublication runtime)

def parseFeed (value : Option Json) : Except ReleaseError Json := do
  let fields ← recordOr (invalidRequest "Signed agent release feed must be an object") value
  assertExactKeys fields
    ["feedVersion", "feedSequence", "environment", "channel", "generatedAt", "publications",
      "activationMode", "rollout", "feedSigning"]
    "feed"
  ensure (isIntegerWithin 1 1 (fields.lookup "feedVersion"))
    (invalidRequest "Agent release feed version is unsupported")
  ensure (isPositiveSafeInteger (fields.lookup "feedSequence"))
    (invalidRequest "Agent release feed sequence must be a positive safe integer")
  let environment ← parseEnvironment (fields.lookup "environment") "feed"
  ensure (isOneOf ["candidate", "stable"] (fields.lookup "channel"))
    (invalidRequest "Agent release feed channel is invalid")
  ensure (isTextWhere (isStrictRfc3339 runtime) (fields.lookup "generatedAt"))
    (invalidRequest "Agent release feed generatedAt is invalid")
  let items := (itemsOf (fields.lookup "publications")).getD []
  ensure (!items.isEmpty) (invalidRequest "Agent release feed must include a publication")
  let publications ← parsePublications runtime items
  let hasActivationMode := hasOwn fields "activationMode"
  let hasRollout := hasOwn fields "rollout"
  ensure (hasActivationMode == hasRollout)
    (invalidRequest
      "Agent release feed activationMode and rollout must be provided together")
  ensure (!hasActivationMode ||
      isOneOf ["per_agent", "shared_carrier"] (fields.lookup "activationMode"))
    (invalidRequest "Agent release feed activation mode is invalid")
  let rollout ← parseOwn fields "rollout" parseSignedRollout
  let feedSigning ← parseSigningMetadata (fields.lookup "feedSigning") "feed"
  pure (ofMembers
    [("feedVersion", some (.number (.finite 1))), ("feedSequence", fields.lookup "feedSequence"),
      ("environment", environment), ("channel", fields.lookup "channel"),
      ("generatedAt", fields.lookup "generatedAt"), ("publications", some (.array publications)),
      ("activationMode", memberIf hasActivationMode (fields.lookup "activationMode")),
      ("rollout", memberIf hasActivationMode rollout), ("feedSigning", some feedSigning)])

def parseAssignment (value : Option Json) : Except ReleaseError Json := do
  let fields ← recordOr (invalidRequest "Agent release assignment must be an object") value
  assertExactKeys fields ["environment", "targetId", "toolboxUserId", "agentId"] "assignment"
  let environment ← parseEnvironment (fields.lookup "environment") "assignment"
  ensureAll ["targetId", "toolboxUserId", "agentId"] (fun key => isFilled (fields.lookup key))
    fun key => invalidRequest ("Agent release assignment " ++ key ++ " is required")
  pure (ofMembers
    [("environment", environment), ("targetId", fields.lookup "targetId"),
      ("toolboxUserId", fields.lookup "toolboxUserId"), ("agentId", fields.lookup "agentId")])

def baselineMetadataNames : List String :=
  ["templateKey", "scope", "baselinePrompt", "runtimeConfig"]

def personalBaselineSettingNames : List String :=
  baselineMetadataNames ++ personalBaselineReleaseSettingKeys.map SettingKey.name

def personalKeys : List String := ["settings", "baselineVersionId", "effectiveSettingsDigest"]

def attemptKeys : List String :=
  ["assignmentRevision", "claimToken", "stepOrdinal", "stepLeaseToken"]

/-- Whether some of the keys are there; none or all of them must be. -/
def parseTogether (fields : Members) (keys : List String) (error : ReleaseError) :
    Except ReleaseError Bool := do
  let present := keys.filter (hasOwn fields)
  ensure (present.isEmpty || present.length == keys.length) error
  pure (!present.isEmpty)

def checkPersonalBaseline (fields : Members) : Except ReleaseError Unit := do
  let settings ← requireRecord (fields.lookup "settings") "personal baseline settings"
  assertExactKeys settings personalBaselineSettingNames "personal baseline settings"
  ensure (isTextWhere isPersonalBaselineVersion (fields.lookup "baselineVersionId") &&
      isTextWhere isSha256 (fields.lookup "effectiveSettingsDigest"))
    (invalidRequest "Personal baseline identity is invalid")

def checkAttempt (fields : Members) : Except ReleaseError Unit := do
  ensureAll ["assignmentRevision", "claimToken", "stepLeaseToken"]
    (fun key => isTextWhere isUuidText (fields.lookup key))
    fun key => invalidRequest ("Agent release " ++ key ++ " must be a UUID")
  ensure (isIntegerWithin 0 9007199254740991 (fields.lookup "stepOrdinal"))
    (invalidRequest "Agent release stepOrdinal must be a nonnegative safe integer")

def commandKeys : List String :=
  ["signedManifest", "signedFeed", "assignment", "settings", "baselineVersionId",
    "baselineVersion", "effectiveSettingsDigest", "baselineOverride", "assignmentRevision",
    "claimToken", "stepOrdinal", "stepLeaseToken", "expectedCurrentReleaseSequence",
    "expectedConfigurationRevision", "commandDigest"]

def parseApplyCommand (value : Json) : Except ReleaseError Json := do
  let fields ← recordOr (invalidRequest "Agent release command must be an object") (some value)
  assertExactKeys fields commandKeys "command"
  let signedManifest ← parseManifest runtime (fields.lookup "signedManifest")
  let signedFeed ← parseFeed runtime (fields.lookup "signedFeed")
  let assignment ← parseAssignment (fields.lookup "assignment")
  let isPersonal ← parseTogether fields personalKeys
    (invalidRequest "Personal baseline settings and identity must be provided together")
  onlyIf isPersonal (checkPersonalBaseline fields)
  let baselineOverride ← parseOwn fields "baselineOverride" (parseBaselineOverride runtime)
  ensure (baselineOverride.isNone || isPositiveSafeInteger (fields.lookup "baselineVersion"))
    (invalidRequest "Break-glass baseline override requires a positive baselineVersion")
  ensure (baselineOverride.isSome || !hasOwn fields "baselineVersion")
    (invalidRequest "baselineVersion is only accepted with a break-glass baseline override")
  let isCurrent ← parseTogether fields attemptKeys
    (invalidRequest "Agent release apply attempt subjects must be provided together")
  onlyIf isCurrent (checkAttempt fields)
  ensure (decide (fields.lookup "expectedCurrentReleaseSequence" = some .null) ||
      isPositiveSafeInteger (fields.lookup "expectedCurrentReleaseSequence"))
    (invalidRequest "Expected current release sequence must be null or a positive safe integer")
  ensure (!hasOwn fields "expectedConfigurationRevision" ||
      isTextWhere isDecimalRevision (fields.lookup "expectedConfigurationRevision"))
    (invalidRequest "Expected configuration revision must be a nonnegative decimal string")
  ensure (isTextWhere isSha256 (fields.lookup "commandDigest"))
    (invalidRequest "Agent release command digest must be a lowercase SHA-256 digest")
  pure (ofMembers
    ([("signedManifest", some signedManifest), ("signedFeed", some signedFeed),
      ("assignment", some assignment)] ++
      (attemptKeys.map fun key => (key, memberIf isCurrent (fields.lookup key))) ++
      (personalKeys.map fun key => (key, memberIf isPersonal (fields.lookup key))) ++
      [("baselineVersion", memberIf baselineOverride.isSome (fields.lookup "baselineVersion")),
        ("baselineOverride", baselineOverride),
        ("expectedCurrentReleaseSequence", fields.lookup "expectedCurrentReleaseSequence"),
        ("expectedConfigurationRevision", fields.lookup "expectedConfigurationRevision"),
        ("commandDigest", fields.lookup "commandDigest")]))

/-- What `prepareAgentReleaseApply` does to a command before it looks at signatures. -/
def acceptReleaseCommand (value : Json) : Except ReleaseError Json := do
  assertAgentReleaseJsonValue value
  parseApplyCommand runtime value

end Command

/-- What `verifySignedValue` checks a signature against: the value without the signature
in its signing metadata. -/
def signedValue (value : Json) (signingKey : String) : Json :=
  match value.without signingKey, value.get? signingKey with
  | .object fields, some signing => .object (fields ++ [(signingKey, signing.without "signature")])
  | rest, _ => rest

end Lobu.Configuration
