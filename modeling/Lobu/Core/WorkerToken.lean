import Lobu.Foundation.Double

namespace Lobu.Core

open Lobu.Foundation

/-! # Worker tokens

A worker token is an encrypted JSON payload.  What a verification reads of the payload is
untyped: every field may be missing or of another type.
-/

/-- The environment, `Date.parse` with none for `NaN`, and the value of a token's plaintext:
none when the token does not decrypt or its plaintext is no JSON. -/
structure TokenRuntime where
  env : String → Option String
  dateParse : String → Option Int
  plaintext : String → Option Json

structure WorkerTokenOptions where
  channelId : String
  teamId : Option String := none
  agentId : Option String := none
  organizationId : Option String := none
  connectionId : Option String := none
  platform : Option String := none
  sessionKey : Option String := none
  traceId : Option String := none
  runId : Option JsNumber := none
  messageId : Option String := none
  processedMessageIds : Option (List String) := none
  tokenKind : Option String := none
  trustedPlatformContext : Option Bool := none
  executionMode : Option String := none
  courseToolScope : Option Json := none
  releaseState : Option Json := none

/-- The object that `JSON.stringify` writes: fields that are `undefined` are left out. -/
def payloadObject (userId conversationId deploymentName : String) (options : WorkerTokenOptions)
    (now : Int) (jti : String) : Json :=
  let releaseState :=
    if options.tokenKind = some "run" then
      options.releaseState.or (some (.object [("status", .string "legacy_unenrolled")]))
    else options.releaseState
  let fields : List (String × Option Json) :=
    [("userId", some (.string userId)),
      ("conversationId", some (.string conversationId)),
      ("channelId", some (.string options.channelId)),
      ("teamId", options.teamId.map .string),
      ("agentId", options.agentId.map .string),
      ("organizationId", options.organizationId.map .string),
      ("connectionId", options.connectionId.map .string),
      ("deploymentName", some (.string deploymentName)),
      ("timestamp", some (.number (.finite now))),
      ("platform", options.platform.map .string),
      ("sessionKey", options.sessionKey.map .string),
      ("traceId", options.traceId.map .string),
      ("jti", some (.string jti)),
      ("runId", options.runId.map .number),
      ("messageId", options.messageId.map .string),
      ("processedMessageIds", options.processedMessageIds.map fun ids => .array (ids.map .string)),
      ("tokenKind", options.tokenKind.map .string),
      ("trustedPlatformContext", options.trustedPlatformContext.map .bool),
      ("executionMode", options.executionMode.map .string),
      ("courseToolScope", options.courseToolScope),
      ("releaseState", releaseState)]
  .object (fields.filterMap fun field => field.2.map (field.1, ·))

/-- The payload that is encrypted, none where the generation throws. -/
def generateWorkerToken (userId conversationId deploymentName : String)
    (options : WorkerTokenOptions) (now : Int) (jti : String) : Option Json :=
  if options.channelId = "" then none
  else some (payloadObject userId conversationId deploymentName options now jti)

/-- `value === expected` for a text. -/
def isText (value : Option Json) (expected : String) : Bool :=
  match value with
  | some (.string text) => text == expected
  | _ => false

/-- `typeof value === "string" && value`. -/
def nonEmptyText : Option Json → Bool
  | some (.string text) => text != ""
  | _ => false

/-- `value === other` where `value` is a text. -/
def sameText (value other : Option Json) : Bool :=
  match value with
  | some (.string text) => isText other text
  | _ => false

/-- `Number.isInteger(value) && value > 0`. -/
def positiveInteger : Option Json → Bool
  | some (.number (.finite value)) => value.den == 1 && decide (0 < value)
  | _ => false

/-- `typeof value === "number" && value`. -/
def nonZeroNumber : Option Json → Bool
  | some (.number value) => decide (value ≠ .finite 0)
  | _ => false

def isPlainObject : Json → Bool
  | .object _ => true
  | _ => false

/-- `value && typeof value === "object"`. -/
def isObject : Json → Bool
  | .array _ => true
  | .object _ => true
  | _ => false

def nonEmptyTexts : Option Json → Bool
  | some (.array items) => items.all fun item => nonEmptyText (some item)
  | _ => false

def oneOf (value : Option Json) (allowed : List String) : Bool :=
  allowed.any (isText value)

/-- `/^sha256:[0-9a-f]{64}$/`. -/
def isSnapshotDigest : Option Json → Bool
  | some (.string text) =>
    let digest := text.toList.drop 7
    text.toList.take 7 == "sha256:".toList && digest.length == 64 &&
      digest.all fun c => c.isDigit || ('a' ≤ c && c ≤ 'f')
  | _ => false

/-- The length that JavaScript gives a text. -/
def textLength (text : String) : Nat :=
  (text.toList.flatMap utf16).length

/-! ## Checks

An error is a rejection with the message that is logged, if one is.
-/

def rejectUnless (holds : Bool) (message : Option String) : Except (Option String) Unit :=
  if holds then .ok () else .error message

/-- A plain object with the fields that every token has. -/
def checkRequired (data : Json) : Except (Option String) Unit := do
  rejectUnless (isPlainObject data)
    (some "Worker token rejected: payload is not a plain object")
  rejectUnless
    (nonEmptyText (data.get? "conversationId") && nonEmptyText (data.get? "userId") &&
      nonEmptyText (data.get? "deploymentName") && nonZeroNumber (data.get? "timestamp"))
    (some "Worker token rejected: missing or wrongly-typed required fields")

def checkRunId (data : Json) : Except (Option String) Unit :=
  rejectUnless ((data.get? "runId").isNone || positiveInteger (data.get? "runId"))
    (some "Worker token rejected: runId must be a positive integer")

/-- The token of a run with its id. -/
def ofRun (data : Json) : Bool :=
  isText (data.get? "tokenKind") "run" && positiveInteger (data.get? "runId")

def checkCourseToolScope (data : Json) : Except (Option String) Unit :=
  match data.get? "courseToolScope" with
  | none => .ok ()
  | some scope =>
    rejectUnless
      (ofRun data && Json.truthy (some scope) &&
        nonEmptyText (scope.get? "ownerUserId") &&
        sameText (scope.get? "ownerUserId") (data.get? "userId") &&
        nonEmptyText (scope.get? "agentId") &&
        sameText (scope.get? "agentId") (data.get? "agentId") &&
        nonEmptyText (scope.get? "courseEntityId"))
      none

section Verifying

variable (runtime : TokenRuntime)

def parsePositiveIntEnv (name : String) (fallback : Int) (allowZero : Bool) : JsNumber :=
  match (runtime.env name).bind fun raw => parseInt raw.toList with
  | none => .finite fallback
  | some raw =>
    if (if allowZero then raw < 0 else raw ≤ 0) then .finite fallback else JsNumber.double raw

def clockSkew : JsNumber :=
  parsePositiveIntEnv runtime "WORKER_TOKEN_CLOCK_SKEW_MS" (30 * 1000) true

def timestamp (data : Json) : Option JsNumber :=
  (data.get? "timestamp").bind Json.number?

/-- `Date.parse(claim.expiresAt)`; an `expiresAt` that is no text is rejected whatever it
parses to. -/
def claimExpiry (claim : Json) : Option Int :=
  match claim.get? "expiresAt" with
  | some (.string text) => runtime.dateParse text
  | _ => none

/-- The claim expires within a minute and the skew after the token was minted. -/
def validExpiry (data claim : Json) : Bool :=
  match claimExpiry runtime claim with
  | none => false
  | some expiresAt =>
    !JsNumber.exceeds (JsNumber.whole expiresAt)
      (JsNumber.plus (JsNumber.plus (timestamp data) (JsNumber.whole 60000))
        (some (clockSkew runtime)))

def validCapabilityId : Json → Bool
  | .string text => text != "" && decide (textLength text ≤ 200)
  | _ => false

def validCapabilityIds : Option Json → Bool
  | some (.array ids) =>
    decide (1 ≤ ids.length) && decide (ids.length ≤ 64) && ids.all validCapabilityId
  | _ => false

def validClaim (data claim : Json) : Bool :=
  oneOf (claim.get? "environment") ["staging", "production"] &&
    nonEmptyText (claim.get? "toolboxUserId") &&
    sameText (claim.get? "toolboxUserId") (data.get? "userId") &&
    nonEmptyText (claim.get? "agentId") &&
    sameText (claim.get? "agentId") (data.get? "agentId") &&
    nonEmptyText (claim.get? "releaseId") &&
    positiveInteger (claim.get? "releaseSequence") &&
    isSnapshotDigest (claim.get? "snapshotDigest") &&
    validExpiry runtime data claim &&
    validCapabilityIds (claim.get? "capabilityIds")

def expiredState (claim : Json) : Json :=
  .object (("status", .string "enrolled_inactive") ::
    (match claim.get? "environment" with
      | some environment => [("environment", environment)]
      | none => []) ++ [("reason", .string "capability_expired")])

/-- A claim that has expired by `now` is replaced by an inactive state. -/
def settle (now : Int) (data claim : Json) : Json :=
  match claimExpiry runtime claim with
  | some expiresAt =>
    if expiresAt ≤ now then data.set "releaseState" (expiredState claim) else data
  | none => data

def checkReleaseState (now : Int) (data : Json) : Except (Option String) Json :=
  match data.get? "releaseState" with
  | none => do
      rejectUnless (!isText (data.get? "tokenKind") "run")
        (some "Worker run token rejected: missing release state")
      return data
  | some state => do
      rejectUnless
        (ofRun data && isObject state &&
          oneOf (state.get? "status") ["legacy_unenrolled", "enrolled_inactive", "active"])
        (some "Worker token rejected: invalid release state binding")
      if isText (state.get? "status") "legacy_unenrolled" then
        rejectUnless (state.keys.length == 1) none
        return data
      else if isText (state.get? "status") "enrolled_inactive" then
        rejectUnless
          (state.keys.length == 3 &&
            oneOf (state.get? "environment") ["staging", "production"] &&
            oneOf (state.get? "reason")
              ["receipt_invalid", "snapshot_unavailable", "capability_expired"])
          none
        return data
      else
        match state.get? "claim" with
        | none => .error (some "Worker token rejected: invalid release capability binding")
        | some claim =>
          rejectUnless
            (state.keys.length == 2 && Json.truthy (some claim) && validClaim runtime data claim)
            (some "Worker token rejected: invalid release capability binding")
          return settle runtime now data claim

/-- `value === null || value === "opp-coach"`. -/
def knownSkill : Option Json → Bool
  | some .null => true
  | value => isText value "opp-coach"

def checkExecutionMode (data : Json) : Except (Option String) Unit :=
  match data.get? "executionMode" with
  | none => .ok ()
  | some mode => do
      let scope := data.get? "courseToolScope"
      rejectUnless
        (oneOf (some mode) ["personal", "onboarding", "course"] && ofRun data &&
          isText (some mode) "course" == Json.truthy scope)
        (some "Worker token rejected: invalid execution mode binding")
      rejectUnless
        (!isText (some mode) "course" ||
          (Json.truthy scope && nonEmptyText (scope.bind (·.get? "contextPackId")) &&
            positiveInteger (scope.bind (·.get? "contextVersion")) &&
            knownSkill (scope.bind (·.get? "activeSpecializedSkill"))))
        (some "Worker token rejected: incomplete course execution scope")

def checkMessages (data : Json) : Except (Option String) Unit := do
  rejectUnless ((data.get? "messageId").isNone || nonEmptyText (data.get? "messageId"))
    (some "Worker token rejected: messageId must be a non-empty string")
  rejectUnless
    ((data.get? "processedMessageIds").isNone || nonEmptyTexts (data.get? "processedMessageIds"))
    (some "Worker token rejected: processedMessageIds must be non-empty strings")

/-- A boolean that is true for sessions only. -/
def validTrust (kind : Option Json) : Option Json → Bool
  | some (.bool trusted) => !trusted || isText kind "session"
  | _ => false

def checkKind (data : Json) : Except (Option String) Unit := do
  rejectUnless
    ((data.get? "tokenKind").isNone ||
      oneOf (data.get? "tokenKind") ["deployment", "session", "run"])
    (some "Worker token rejected: invalid tokenKind")
  rejectUnless
    ((data.get? "trustedPlatformContext").isNone ||
      validTrust (data.get? "tokenKind") (data.get? "trustedPlatformContext"))
    (some "Worker token rejected: invalid trusted platform context")

def tokenTtl (data : Json) : JsNumber :=
  if isText (data.get? "tokenKind") "deployment" then
    parsePositiveIntEnv runtime "WORKER_DEPLOYMENT_TOKEN_TTL_MS" (7 * 24 * 60 * 60 * 1000) false
  else parsePositiveIntEnv runtime "WORKER_TOKEN_TTL_MS" (2 * 60 * 60 * 1000) false

def tokenAge (now : Int) (data : Json) : Option JsNumber :=
  JsNumber.minus (JsNumber.whole now) (timestamp data)

def checkAge (now : Int) (data : Json) : Except (Option String) Unit := do
  rejectUnless
    (!JsNumber.exceeds (tokenAge now data)
      (JsNumber.plus (some (tokenTtl runtime data)) (some (clockSkew runtime))))
    (some "Worker token rejected: expired")
  rejectUnless
    (!JsNumber.exceeds ((tokenAge now data).map JsNumber.negate) (some (clockSkew runtime)))
    (some "Worker token rejected: timestamp in the future")

/-- The clock is read for the expiry of a claim, and `later` for the age of the token. -/
def checkPayload (now later : Int) (parsed : Json) : Except (Option String) Json := do
  checkRequired parsed
  checkRunId parsed
  checkCourseToolScope parsed
  let data ← checkReleaseState runtime now parsed
  checkExecutionMode data
  checkMessages data
  checkKind data
  checkAge runtime later data
  return data

def verifyWorkerToken (now later : Int) (token : String) : Option Json :=
  match runtime.plaintext token with
  | none => none
  | some parsed => (checkPayload runtime now later parsed).toOption

end Verifying

end Lobu.Core
