import Lobu.Foundation.NameSets
import Lobu.Foundation.Record
import Lobu.Tools.ToolKeys

namespace Lobu.Tools

open Lobu.Foundation
open Lobu.Worker (trimmed)

/-! # The effective tool inventory

Which of the discovered tools a turn may call, and why it may not call the
others.
-/

abbrev ToolsByMcp := Record (List McpToolDef)

/-- What the code takes from its runtime. -/
structure Runtime where
  numberText : Rat → String
  localeCompare : String → String → Ordering
  /-- The hexadecimal digest. -/
  sha256 : String → String
  /-- `Date.parse`, none for `NaN`. -/
  parseDate : String → Option Int

inductive Fault where
  | tooManyNodes
  | nonFiniteNumber
  | arrayTooLong
  | tooManyTools
  -- a property that every object inherits was taken for an array
  | pushNotFunction

def Fault.message : Fault → String
  | .tooManyNodes => "tool inventory exceeds 100000 JSON nodes"
  | .nonFiniteNumber => "non-JSON tool inventory value: non-finite number"
  | .arrayTooLong => "non-JSON tool inventory array exceeds 100000 entries"
  | .tooManyTools => "effective tool inventory exceeds 4096 discovered tools"
  | .pushNotFunction => "tools.push is not a function"

section Snapshot

mutual

/-- The number of values that were visited, after this one. -/
def assertJsonLike (nodes : Nat) : Json → Except Fault Nat
  | .array items => do
      let nodes ← visit nodes
      if 100000 < items.length then throw .arrayTooLong
      assertItems nodes items
  | .object fields => do assertFields (← visit nodes) fields
  | .number (.infinite _) => do
      let _ ← visit nodes
      throw .nonFiniteNumber
  | _ => visit nodes
where
  visit (nodes : Nat) : Except Fault Nat :=
    if 100000 < nodes + 1 then throw .tooManyNodes else return nodes + 1

def assertItems (nodes : Nat) : List Json → Except Fault Nat
  | [] => return nodes
  | item :: items => do assertItems (← assertJsonLike nodes item) items

def assertFields (nodes : Nat) : List (String × Json) → Except Fault Nat
  | [] => return nodes
  | (_, value) :: fields => do assertFields (← assertJsonLike nodes value) fields

end

mutual

def jsonNodes : Json → Nat
  | .array items => 1 + itemNodes items
  | .object fields => 1 + fieldNodes fields
  | _ => 1

def itemNodes : List Json → Nat
  | [] => 0
  | item :: items => jsonNodes item + itemNodes items

def fieldNodes : List (String × Json) → Nat
  | [] => 0
  | (_, value) :: fields => jsonNodes value + fieldNodes fields

end

mutual

def finiteNumbers : Json → Bool
  | .array items => finiteItems items
  | .object fields => finiteFields fields
  | .number (.infinite _) => false
  | _ => true

def finiteItems : List Json → Bool
  | [] => true
  | item :: items => finiteNumbers item && finiteItems items

def finiteFields : List (String × Json) → Bool
  | [] => true
  | (_, value) :: fields => finiteNumbers value && finiteFields fields

end

theorem jsonNodes_pos (value : Json) : 0 < jsonNodes value := by
  cases value <;> (unfold jsonNodes; omega)

theorem length_le_itemNodes (items : List Json) : items.length ≤ itemNodes items := by
  induction items with
  | nil => exact Nat.le_refl 0
  | cons item items ih =>
    have positive := jsonNodes_pos item
    rw [List.length_cons, itemNodes]
    omega

theorem visit_ok {nodes : Nat} (room : nodes + 1 ≤ 100000) : assertJsonLike.visit nodes = .ok (nodes + 1) :=
  if_neg (by omega)

mutual

theorem assertJsonLike_ok : ∀ (value : Json) (nodes : Nat), finiteNumbers value = true →
    nodes + jsonNodes value ≤ 100000 → assertJsonLike nodes value = .ok (nodes + jsonNodes value)
  | .array items, nodes, finite, room => by
    have long := length_le_itemNodes items
    rw [jsonNodes] at room
    simp only [assertJsonLike, visit_ok (show nodes + 1 ≤ 100000 by omega), jsonNodes]
    have rest := assertItems_ok items (nodes + 1) finite (by omega)
    have short : ¬ 100000 < items.length := by omega
    simp [bind, Except.bind, short, rest, Nat.add_assoc]
  | .object fields, nodes, finite, room => by
    rw [jsonNodes] at room
    have rest := assertFields_ok fields (nodes + 1) finite (by omega)
    rw [assertJsonLike, visit_ok (by omega), jsonNodes, ← Nat.add_assoc]
    exact rest
  | .number (.finite value), nodes, _, room => visit_ok room
  | .null, nodes, _, room => visit_ok room
  | .bool value, nodes, _, room => visit_ok room
  | .string value, nodes, _, room => visit_ok room

theorem assertItems_ok : ∀ (items : List Json) (nodes : Nat), finiteItems items = true →
    nodes + itemNodes items ≤ 100000 → assertItems nodes items = .ok (nodes + itemNodes items)
  | [], nodes, _, _ => rfl
  | item :: items, nodes, finite, room => by
    rw [finiteItems, Bool.and_eq_true] at finite
    rw [itemNodes] at room
    have first := assertJsonLike_ok item nodes finite.1 (by omega)
    have rest := assertItems_ok items (nodes + jsonNodes item) finite.2 (by omega)
    rw [assertItems, first, itemNodes, ← Nat.add_assoc]
    exact rest

theorem assertFields_ok : ∀ (fields : List (String × Json)) (nodes : Nat),
    finiteFields fields = true → nodes + fieldNodes fields ≤ 100000 →
      assertFields nodes fields = .ok (nodes + fieldNodes fields)
  | [], nodes, _, _ => rfl
  | (name, value) :: fields, nodes, finite, room => by
    rw [finiteFields, Bool.and_eq_true] at finite
    rw [fieldNodes] at room
    have first := assertJsonLike_ok value nodes finite.1 (by omega)
    have rest := assertFields_ok fields (nodes + jsonNodes value) finite.2 (by omega)
    rw [assertFields, first, fieldNodes, ← Nat.add_assoc]
    exact rest

end

def inventoryJson (toolsByMcp : ToolsByMcp) : Json :=
  .object (toolsByMcp.entries.map fun entry => (entry.1, .array (entry.2.map McpToolDef.json)))

/-- The frozen copy has the contents of what it was made from. -/
def snapshotToolsByMcp (toolsByMcp : ToolsByMcp) : Except Fault ToolsByMcp := do
  let _ ← assertJsonLike 0 (inventoryJson toolsByMcp)
  return toolsByMcp

end Snapshot

inductive Environment where
  | staging
  | production
deriving DecidableEq

def Environment.text : Environment → String
  | .staging => "staging"
  | .production => "production"

structure ReleaseCapabilityClaim where
  environment : Environment
  releaseId : String
  releaseSequence : JsNumber
  snapshotDigest : String
  expiresAt : String
  capabilityIds : List String
deriving DecidableEq

inductive InactiveReason where
  | receiptInvalid
  | snapshotUnavailable
  | capabilityExpired
deriving DecidableEq

def InactiveReason.text : InactiveReason → String
  | .receiptInvalid => "receipt_invalid"
  | .snapshotUnavailable => "snapshot_unavailable"
  | .capabilityExpired => "capability_expired"

inductive ReleaseCapabilityState where
  | legacyUnenrolled
  | enrolledInactive (environment : Environment) (reason : InactiveReason)
  | active (claim : ReleaseCapabilityClaim)
deriving DecidableEq

inductive EffectiveToolBlockedReason where
  | notDiscovered
  | capabilityInactive
  | snapshotMissing
  | snapshotExpired
  | policyDenied
  | notConnected
  | untrustedProvenance
  | duplicateIdentity
  | approvalRequired
  | clarificationRequired
deriving DecidableEq

def EffectiveToolBlockedReason.text : EffectiveToolBlockedReason → String
  | .notDiscovered => "not_discovered"
  | .capabilityInactive => "capability_inactive"
  | .snapshotMissing => "snapshot_missing"
  | .snapshotExpired => "snapshot_expired"
  | .policyDenied => "policy_denied"
  | .notConnected => "not_connected"
  | .untrustedProvenance => "untrusted_provenance"
  | .duplicateIdentity => "duplicate_identity"
  | .approvalRequired => "approval_required"
  | .clarificationRequired => "clarification_required"

variable (runtime : Runtime)

def inactiveReleaseReason (state : ReleaseCapabilityState) (now : Int) : Option EffectiveToolBlockedReason :=
  match state with
  | .legacyUnenrolled => none
  | .enrolledInactive _ .snapshotUnavailable => some .snapshotMissing
  | .enrolledInactive _ .capabilityExpired => some .snapshotExpired
  | .enrolledInactive _ .receiptInvalid => some .capabilityInactive
  | .active claim =>
    match runtime.parseDate claim.expiresAt with
    | none => some .snapshotExpired
    | some expiresAt => if expiresAt ≤ now then some .snapshotExpired else none

def hasActiveCapability (state : ReleaseCapabilityState) (capabilityId : String) (now : Int) : Bool :=
  match state with
  | .active claim =>
    ((runtime.parseDate claim.expiresAt).any fun expiresAt => decide (now < expiresAt)) &&
      claim.capabilityIds.contains capabilityId
  | _ => false

structure EffectiveToolBehavior where
  capabilityId : String
  state : String
  executable : Bool
  mayPromiseDelivery : Bool
deriving DecidableEq

def personalReminderDeliveryCapability : String := "personal_reminder_delivery.v1"

def personalReminderBehavior (state : ReleaseCapabilityState) (now : Int) : EffectiveToolBehavior :=
  let capabilityId := personalReminderDeliveryCapability
  if state = .legacyUnenrolled then ⟨capabilityId, "legacy_compatible", true, false⟩
  else
    let inactive := inactiveReleaseReason runtime state now
    if inactive.isNone && hasActiveCapability runtime state capabilityId now then
      ⟨capabilityId, "active", true, true⟩
    else ⟨capabilityId, (inactive.getD .capabilityInactive).text, false, false⟩

/-- What the inventory says of the release it was built under. -/
def releaseProvenance : ReleaseCapabilityState → Json
  | .legacyUnenrolled => .object [("status", .string "legacy_unenrolled")]
  | .enrolledInactive environment reason =>
    .object [("status", .string "enrolled_inactive"),
      ("environment", .string environment.text), ("inactiveReason", .string reason.text)]
  | .active claim =>
    .object [("status", .string "active"), ("environment", .string claim.environment.text),
      ("releaseId", .string claim.releaseId), ("releaseSequence", .number claim.releaseSequence),
      ("snapshotDigest", .string claim.snapshotDigest), ("expiresAt", .string claim.expiresAt)]

def canonicalJson (value : Json) : String :=
  stringify runtime.numberText value.canonicalize

structure DiscoveredTool where
  mcpId : String
  toolName : String
  tool : McpToolDef
  canonical : String
  called : tool.name = some toolName
deriving DecidableEq

namespace DiscoveredTool

variable (entry : DiscoveredTool)

def identityKey : String := toolIdentityKey entry.mcpId entry.toolName

def toolKey : String := qualifiedToolKey entry.mcpId entry.toolName

end DiscoveredTool

/-- The tool under its name without surrounding blanks; none where that leaves no name. -/
def normalizedTool (tool : McpToolDef) : Option (String × McpToolDef) :=
  match tool.name with
  | none => none
  | some name =>
    if trimmed name = "" then none
    else some (trimmed name, if name = trimmed name then tool else tool.withName (trimmed name))

theorem normalizedTool_called {tool normalized : McpToolDef} {toolName : String}
    (found : normalizedTool tool = some (toolName, normalized)) : normalized.name = some toolName := by
  unfold normalizedTool at found
  split at found
  · cases found
  · rename_i name called
    split at found
    · cases found
    · cases found
      split
      · rename_i same
        rw [called, ← same]
      · exact McpToolDef.name_withName tool _

def discoveredTool (mcpId : String) (tool : McpToolDef) : Option DiscoveredTool :=
  match found : normalizedTool tool with
  | none => none
  | some (toolName, normalized) =>
    some {
      mcpId
      toolName
      tool := normalized
      canonical := canonicalJson runtime normalized.json
      called := normalizedTool_called found }

def discoveredTools (scopedTools : ToolsByMcp) : List DiscoveredTool :=
  scopedTools.entries.flatMap fun server => server.2.filterMap (discoveredTool runtime server.1)

def sortedByText {α : Type} (text : α → String) (items : List α) : List α :=
  items.insertionSort fun first second =>
    (runtime.localeCompare (text first) (text second)).isLE = true

/-- The discovered tools under their identities, and each group in the order of its texts. -/
def discoveredGroups (scopedTools : ToolsByMcp) : List (String × List DiscoveredTool) :=
  (sortedByText runtime Prod.fst (grouped ((discoveredTools runtime scopedTools).map fun entry =>
      (entry.identityKey, entry)))).map fun group =>
    (group.1, sortedByText runtime DiscoveredTool.canonical group.2)

def discovered (scopedTools : ToolsByMcp) : List (String × DiscoveredTool) :=
  (discoveredGroups runtime scopedTools).filterMap fun group =>
    group.2.head?.map fun representative => (group.1, representative)

def duplicateEvidence (scopedTools : ToolsByMcp) : List (String × List String) :=
  (discoveredGroups runtime scopedTools).filterMap fun group =>
    if 1 < group.2.length then some (group.1, group.2.map DiscoveredTool.canonical) else none

structure EffectiveToolBlockedEntry where
  toolKey : String
  reason : EffectiveToolBlockedReason
deriving DecidableEq

structure EffectiveToolInventory where
  scopedTools : ToolsByMcp
  toolsByMcp : ToolsByMcp
  allowedToolKeys : List String
  blocked : List EffectiveToolBlockedEntry
  releaseProvenance : Json
  personalReminderDelivery : EffectiveToolBehavior
  fingerprint : String
  namesFingerprint : String

structure BuildEffectiveToolInventoryParams where
  scopedTools : ToolsByMcp
  releaseState : ReleaseCapabilityState
  connectedMcpIds : Option (List String) := none
  grantedToolKeys : Option (List String) := none
  isPolicyAllowed : Option (String → String → String → Bool) := none
  releaseCapabilityByToolKey : Option (Record String) := none
  untrustedProvenanceToolKeys : Option (List String) := none
  approvalRequiredToolKeys : Option (List String) := none
  clarificationRequiredToolKeys : Option (List String) := none
  now : Int

def maxDiscoveredTools : Nat := 4096

/-- The identities that the values name by either key. -/
def identitySetFrom (values : Option (List String)) (discovered : List (String × DiscoveredTool)) :
    Option (List String) :=
  values.map fun input =>
    (discovered.filter fun entry =>
      input.contains entry.1 || input.contains entry.2.toolKey).map Prod.fst

def freezeToolsByMcp (entries : List (String × McpToolDef)) : Except Fault ToolsByMcp :=
  if entries.any fun entry => inheritedNames.contains entry.1 then throw .pushNotFunction
  else return Record.ofItems entries

variable (params : BuildEffectiveToolInventoryParams)

/-- An empty capability gates nothing. -/
def requiredCapability (identityKey toolKey : String) : Option String :=
  let given := params.releaseCapabilityByToolKey.bind fun capabilities =>
    (capabilities.get? identityKey).or (capabilities.get? toolKey)
  given.filter (· ≠ "")

def releaseReason (identityKey toolKey : String) : Option EffectiveToolBlockedReason :=
  match requiredCapability params identityKey toolKey with
  | none => none
  | some capability =>
    match inactiveReleaseReason runtime params.releaseState params.now with
    | some inactive => some inactive
    | none =>
      if params.releaseState ≠ .legacyUnenrolled ∧
          hasActiveCapability runtime params.releaseState capability params.now = false then
        some .capabilityInactive
      else none

def holds (set : Option (List String)) (key : String) : Bool :=
  set.any fun keys => keys.contains key

def blockedReason (identityKey : String) (entry : DiscoveredTool) : Option EffectiveToolBlockedReason :=
  let discovered := discovered runtime params.scopedTools
  let granted := identitySetFrom params.grantedToolKeys discovered
  let untrusted := identitySetFrom params.untrustedProvenanceToolKeys discovered
  let approvalRequired := identitySetFrom params.approvalRequiredToolKeys discovered
  let clarificationRequired := identitySetFrom params.clarificationRequiredToolKeys discovered
  let duplicates := (duplicateEvidence runtime params.scopedTools).map Prod.fst
  let reason :=
    if duplicates.contains identityKey then some .duplicateIdentity
    else if params.connectedMcpIds.isSome && !holds params.connectedMcpIds entry.mcpId then
      some .notConnected
    else if granted.isSome && !holds granted identityKey then some .policyDenied
    else if holds untrusted identityKey then some .untrustedProvenance
    else if params.isPolicyAllowed.any fun allows =>
        !allows entry.toolKey entry.toolName entry.mcpId then
      some .policyDenied
    else releaseReason runtime params identityKey entry.toolKey
  let reason :=
    if reason.isNone && holds approvalRequired identityKey then some .approvalRequired else reason
  if reason.isNone && holds clarificationRequired identityKey then some .clarificationRequired
  else reason

def sortedDiscovered : List (String × DiscoveredTool) :=
  sortedByText runtime Prod.fst (discovered runtime params.scopedTools)

def allowedTools : List DiscoveredTool :=
  ((sortedDiscovered runtime params).filter fun entry =>
    (blockedReason runtime params entry.1 entry.2).isNone).map Prod.snd

/-- The gated keys under which nothing was discovered. -/
def undiscoveredGates : List String :=
  let discovered := discovered runtime params.scopedTools
  (((params.releaseCapabilityByToolKey.map Record.keys).getD []).insertionSort sortsBefore).filter
    fun toolKey => !(discovered.map Prod.fst).contains toolKey &&
      !(discovered.map fun entry => entry.2.toolKey).contains toolKey

def blockedTools : List EffectiveToolBlockedEntry :=
  sortedByText runtime EffectiveToolBlockedEntry.toolKey
    (((sortedDiscovered runtime params).filterMap fun entry =>
        (blockedReason runtime params entry.1 entry.2).map fun reason =>
          ⟨entry.2.toolKey, reason⟩) ++
      (undiscoveredGates runtime params).map fun toolKey => ⟨toolKey, .notDiscovered⟩)

def behaviorJson (behavior : EffectiveToolBehavior) : Json :=
  .object [("capabilityId", .string behavior.capabilityId), ("state", .string behavior.state),
    ("executable", .bool behavior.executable),
    ("mayPromiseDelivery", .bool behavior.mayPromiseDelivery)]

def fingerprintInput : Json :=
  .object [
    ("tools", .array ((sortedDiscovered runtime params).map fun entry =>
      .array [.string entry.1, entry.2.tool.json])),
    ("allowedToolKeys", .array ((allowedTools runtime params).map fun entry =>
      .string entry.toolKey)),
    ("blocked", .array ((blockedTools runtime params).map fun entry =>
      .object [("toolKey", .string entry.toolKey), ("reason", .string entry.reason.text)])),
    ("releaseProvenance", releaseProvenance params.releaseState),
    ("behaviors", .object [("personalReminderDelivery",
      behaviorJson (personalReminderBehavior runtime params.releaseState params.now))]),
    ("duplicateEvidence", .array ((duplicateEvidence runtime params.scopedTools).map fun entry =>
      .array [.string entry.1, .array (entry.2.map Json.string)]))]

/-- The sorted names without their duplicates, as JSON. -/
def namesJson (names : List String) : Json :=
  .array ((sortedSet (names.map trimmed)).map Json.string)

def buildEffectiveToolInventory : Except Fault EffectiveToolInventory := do
  let rawScopedTools ← snapshotToolsByMcp params.scopedTools
  if maxDiscoveredTools < (discoveredTools runtime rawScopedTools).length then
    throw .tooManyTools
  let scopedTools ← freezeToolsByMcp ((discovered runtime rawScopedTools).map fun entry =>
    (entry.2.mcpId, entry.2.tool))
  let allowed := allowedTools runtime params
  let allowedToolKeys := allowed.map DiscoveredTool.toolKey
  let toolsByMcp ← freezeToolsByMcp (allowed.map fun entry => (entry.mcpId, entry.tool))
  return {
    scopedTools
    toolsByMcp
    allowedToolKeys
    blocked := blockedTools runtime params
    releaseProvenance := releaseProvenance params.releaseState
    personalReminderDelivery := personalReminderBehavior runtime params.releaseState params.now
    fingerprint := runtime.sha256 (canonicalJson runtime (fingerprintInput runtime params))
    namesFingerprint := runtime.sha256 (canonicalJson runtime (namesJson allowedToolKeys)) }

def isEffectiveToolAllowed (inventory : EffectiveToolInventory) (mcpId toolName : String) : Bool :=
  inventory.allowedToolKeys.contains (qualifiedToolKey mcpId toolName)

end Lobu.Tools
