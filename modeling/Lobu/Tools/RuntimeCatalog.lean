import Lobu.Foundation.Process
import Lobu.Tools.EffectiveInventory

namespace Lobu.Tools

open Lobu.Foundation
open Lobu.Worker (trimmed)

/-! # The runtime catalog

The discovered tools as a turn may look them up by name, and the one way in
which a looked-up tool is called.
-/

inductive RuntimeToolCallBlockedReason where
  | notDiscovered
  | notAllowed
  | policyDenied
  | capabilityInactive
  | snapshotMissing
  | snapshotExpired
  | notConnected
  | untrustedProvenance
  | duplicateIdentity
  | authRequired
  | approvalRequired
  | clarificationRequired

inductive RuntimeToolCallErrorCode where
  | blocked (reason : RuntimeToolCallBlockedReason)
  | ambiguousTool
  | schemaInvalid
  | scheduledAutomationToolDenied
  | toolError
  | serverUnavailable

/-- The code that a text stands for. -/
def stableErrorCode : String → Option RuntimeToolCallErrorCode
  | "not_discovered" => some (.blocked .notDiscovered)
  | "not_allowed" => some (.blocked .notAllowed)
  | "policy_denied" => some (.blocked .policyDenied)
  | "capability_inactive" => some (.blocked .capabilityInactive)
  | "snapshot_missing" => some (.blocked .snapshotMissing)
  | "snapshot_expired" => some (.blocked .snapshotExpired)
  | "not_connected" => some (.blocked .notConnected)
  | "untrusted_provenance" => some (.blocked .untrustedProvenance)
  | "duplicate_identity" => some (.blocked .duplicateIdentity)
  | "clarification_required" => some (.blocked .clarificationRequired)
  | "ambiguous_tool" => some .ambiguousTool
  | "auth_required" => some (.blocked .authRequired)
  | "approval_required" => some (.blocked .approvalRequired)
  | "schema_invalid" => some .schemaInvalid
  | "scheduled_automation_tool_denied" => some .scheduledAutomationToolDenied
  | "tool_error" => some .toolError
  | "server_unavailable" => some .serverUnavailable
  | _ => none

structure Url where
  protocol : String
  username : String
  password : String
  origin : String

inductive ConfigSource where
  | global
  | agent
  | derived
deriving DecidableEq

structure McpCatalogProvenance where
  upstreamOrigin : Option String := none
  configSource : Option ConfigSource := none
  configDigest : Option String := none

/-- What looking up and calling take from the runtime besides what discovery does. -/
structure CallRuntime extends Runtime where
  letters : LowerCase
  /-- `new URL`, none where it throws. -/
  parseUrl : String → Option Url
  /-- `Value.Check`, none where it throws. -/
  checkSchema : Json → Json → Option Bool

variable (runtime : CallRuntime)

def shifuToolboxMcpId : String := "shifu-toolbox"

def canonicalHttpsOrigin (value : String) : Option String :=
  (runtime.parseUrl value).bind fun parsed =>
    if parsed.protocol ≠ "https:" ∨ parsed.username ≠ "" ∨ parsed.password ≠ "" then none
    else some parsed.origin

def isTrustedShifuToolMetadataSource (mcpId : String) (provenance : Option McpCatalogProvenance)
    (trustedOrigins : Option (List String)) : Bool :=
  match provenance with
  | none => false
  | some provenance =>
    if mcpId ≠ shifuToolboxMcpId ∨ provenance.configSource ≠ some .agent ∨
        provenance.configDigest.getD "" = "" then
      false
    else
      match provenance.upstreamOrigin.map trimmed with
      | none => false
      | some assertedOrigin =>
        assertedOrigin != "" &&
          canonicalHttpsOrigin runtime assertedOrigin == some assertedOrigin &&
            trustedOrigins.any fun origins => origins.contains assertedOrigin

def reservedAutomationToolNames : List String :=
  ["plan_automation", "create_automation", "list_automations", "cancel_automation"]

def shifuCalendarResolverToolName : String := "resolve_calendar_date"

def shifuCalendarResolverAliases : List String :=
  ["relative_date", "date", "weekday", "日期", "星期"]

def isTrustedShifuCalendarResolver (tool : McpToolDef) (mcpId : String)
    (provenance : Option McpCatalogProvenance) (trustedOrigins : Option (List String)) : Bool :=
  if tool.name ≠ some shifuCalendarResolverToolName ∨
      isTrustedShifuToolMetadataSource runtime mcpId provenance trustedOrigins = false then
    false
  else
    match (tool.json.get? "_meta").bind fun held => held.get? "shifuTool" with
    | none => false
    | some metadata =>
      metadata.get? "domain" == some (.string "calendar") &&
        metadata.get? "priority" == some (.string "P0") &&
        metadata.get? "aliases" ==
          some (.array (shifuCalendarResolverAliases.map Json.string)) &&
        metadata.get? "readOnly" == some (.bool true) &&
        metadata.get? "mutatesState" == some (.bool false) &&
        metadata.get? "requiresConfirmation" == some (.bool false) &&
        metadata.get? "freshness" == some (.string "realtime")

structure RuntimeToolCatalogEntry where
  tool : McpToolDef
  name : String
  mcpId : String
  originalIndex : Nat
  directVisibleThisTurn : Bool
  callBlockedReason : Option RuntimeToolCallBlockedReason
  behaviorBlockedReasons : Option (Record RuntimeToolCallBlockedReason)

namespace RuntimeToolCatalogEntry

def callableViaCatalog (entry : RuntimeToolCatalogEntry) : Bool := entry.callBlockedReason.isNone

def toolKey (entry : RuntimeToolCatalogEntry) : String := qualifiedToolKey entry.mcpId entry.name

end RuntimeToolCatalogEntry

structure BuildRuntimeToolCatalogParams where
  allTools : ToolsByMcp
  selectedTools : ToolsByMcp
  providerVisibleTools : Option ToolsByMcp := none
  allowedToolNames : Option (List String) := none
  clarificationBlockedToolKeys : Option (List String) := none
  blockedToolReasons : Option (Record RuntimeToolCallBlockedReason) := none
  behaviorBlockedToolReasons : Option (Record (Record RuntimeToolCallBlockedReason)) := none
  mcpProvenanceById : Option (Record McpCatalogProvenance) := none
  trustedShifuToolboxOrigins : Option (List String) := none

structure CatalogSource where
  mcpId : String
  toolName : String
  tool : McpToolDef
  originalIndex : Nat
  serialized : String

def normalizeAllowedToolName (name : String) : String :=
  String.ofList (runtime.letters.lower (trim name.toList))

def buildAllowedNameSet (allowedToolNames : Option (List String)) : Option (List String) :=
  allowedToolNames.map fun names => (names.map (normalizeAllowedToolName runtime)).filter (· ≠ "")

def isEntryAllowed (mcpId name : String) (allowedToolNames : Option (List String)) : Bool :=
  match allowedToolNames with
  | none => true
  | some allowed => allowed.contains (normalizeAllowedToolName runtime name) ||
      allowed.contains (normalizeAllowedToolName runtime (qualifiedToolKey mcpId name))

/-- The name that a tool has at its server where a projection renamed it. -/
def upstreamName (tool : McpToolDef) : String :=
  match (tool.json.get? "upstreamToolName").bind Json.string? with
  | some name => if name = "" then tool.name.getD "" else name
  | none => tool.name.getD ""

def catalogToolKey (mcpId toolName : String) : String :=
  mcpId ++ String.singleton (Char.ofNat 0) ++ toolName

def selectedToolKeys (tools : ToolsByMcp) : List String :=
  tools.entries.flatMap fun server =>
    server.2.map fun tool => catalogToolKey server.1 (upstreamName tool)

/-- The named tools, numbered among all of them. -/
def catalogTools (allTools : ToolsByMcp) : List CatalogSource :=
  let all := allTools.entries.flatMap fun server => server.2.map fun tool => (server.1, tool)
  all.zipIdx.filterMap fun indexed =>
    (normalizedTool indexed.1.2).map fun named =>
      { mcpId := indexed.1.1
        toolName := named.1
        tool := named.2
        originalIndex := indexed.2
        serialized := stringify runtime.numberText indexed.1.2.json }

def sourcePrecedes (first second : CatalogSource) : Prop :=
  ((runtime.localeCompare first.serialized second.serialized).then
    (compare first.originalIndex second.originalIndex)).isLE = true

instance : DecidableRel (sourcePrecedes runtime) := fun _ _ =>
  inferInstanceAs (Decidable (_ = true))

/-- The first of a group, at the first place of the group, and whether it has others. -/
def representative (group : List CatalogSource) : Option (CatalogSource × Bool) :=
  (group.insertionSort (sourcePrecedes runtime)).head?.map fun source =>
    ({ source with
        originalIndex := (group.map (·.originalIndex)).foldl min source.originalIndex },
      decide (1 < group.length))

def catalogSources (allTools : ToolsByMcp) : List (CatalogSource × Bool) :=
  ((grouped ((catalogTools runtime allTools).map fun source =>
      (toolIdentityKey source.mcpId source.toolName, source))).filterMap fun group =>
    representative runtime group.2).insertionSort fun first second =>
      first.1.originalIndex ≤ second.1.originalIndex

/-- A property under either key of a tool, the qualified one first. -/
def underEitherKey {α : Type} (record : Option (Record α)) (mcpId name : String) : Option α :=
  record.bind fun held =>
    (held.get? (qualifiedToolKey mcpId name)).or (held.get? (toolIdentityKey mcpId name))

variable (params : BuildRuntimeToolCatalogParams)

/-- Whether the name is kept for a source that is trusted with it. -/
def isImpostor (source : CatalogSource) : Bool :=
  let provenance := params.mcpProvenanceById.bind fun held => held.get? source.mcpId
  let trustedOrigins := params.trustedShifuToolboxOrigins
  (reservedAutomationToolNames.contains source.toolName &&
      !isTrustedShifuToolMetadataSource runtime source.mcpId provenance trustedOrigins) ||
    (source.toolName == shifuCalendarResolverToolName &&
      !isTrustedShifuCalendarResolver runtime source.tool source.mcpId provenance trustedOrigins)

def callBlockedReason (source : CatalogSource) (duplicateIdentity : Bool) : Option RuntimeToolCallBlockedReason :=
  let allowed := isEntryAllowed runtime source.mcpId source.toolName
    (buildAllowedNameSet runtime params.allowedToolNames)
  let clarificationBlocked := params.clarificationBlockedToolKeys.any fun keys =>
    keys.contains (qualifiedToolKey source.mcpId source.toolName) ||
      keys.contains (toolIdentityKey source.mcpId source.toolName)
  let explicitBlockedReason :=
    if duplicateIdentity then some .duplicateIdentity
    else underEitherKey params.blockedToolReasons source.mcpId source.toolName
  explicitBlockedReason.or
    (if !allowed then some .notAllowed
      else if clarificationBlocked then some .clarificationRequired else none)

def catalogEntry (source : CatalogSource) (duplicateIdentity : Bool) : RuntimeToolCatalogEntry where
  tool := source.tool
  name := source.toolName
  mcpId := source.mcpId
  originalIndex := source.originalIndex
  directVisibleThisTurn :=
    (selectedToolKeys (params.providerVisibleTools.getD params.selectedTools)).contains
      (catalogToolKey source.mcpId source.toolName)
  callBlockedReason := callBlockedReason runtime params source duplicateIdentity
  behaviorBlockedReasons :=
    underEitherKey params.behaviorBlockedToolReasons source.mcpId source.toolName

def buildRuntimeToolCatalog : Except Fault (List RuntimeToolCatalogEntry) := do
  let allTools ← snapshotToolsByMcp params.allTools
  return ((catalogSources runtime allTools).filter fun source =>
    !isImpostor runtime params source.1).map fun source =>
      catalogEntry runtime params source.1 source.2

inductive RuntimeToolCatalogLookupResult where
  | found (entry : RuntimeToolCatalogEntry)
  | ambiguous (candidates : List RuntimeToolCatalogEntry)
  | missing

/-- A server that is named by blanks is as good as none. -/
def requestedServer (mcpId : Option String) : Option String :=
  (mcpId.map trimmed).filter (· ≠ "")

def isRequested (toolName : String) (mcpId : Option String) (entry : RuntimeToolCatalogEntry) : Bool :=
  match requestedServer mcpId with
  | some server => entry.mcpId == server && entry.name == trimmed toolName
  | none => entry.name == trimmed toolName || entry.toolKey == trimmed toolName

def findRuntimeToolCatalogEntry (catalog : List RuntimeToolCatalogEntry) (toolName : String)
    (mcpId : Option String) : RuntimeToolCatalogLookupResult :=
  match catalog.filter (isRequested toolName mcpId) with
  | [] => .missing
  | entry :: others =>
    if (requestedServer mcpId).isNone && !(trimmed toolName).toList.contains '/' &&
        !others.isEmpty then
      .ambiguous (entry :: others)
    else .found entry

inductive TurnExecutionDestination where
  | personalReminder
  | calendarEvent
  | orgNotification
  | unspecified
deriving DecidableEq

inductive TurnExecutionConfidence where
  | explicit
  | inferred
  | ambiguous
deriving DecidableEq

inductive TurnExecutionOperation where
  | create
  | cancel
  | list
deriving DecidableEq

def TurnExecutionOperation.text : TurnExecutionOperation → String
  | .create => "create"
  | .cancel => "cancel"
  | .list => "list"

structure TurnExecutionIntent where
  destination : TurnExecutionDestination
  operation : Option TurnExecutionOperation
  confidence : TurnExecutionConfidence
  requiresClarification : Bool

inductive ToolContentPart where
  | text (text : String)
  | image (data mimeType : String)

structure ToolContentResult where
  content : List ToolContentPart
  isError : Option Json
  errorCode : Option Json

structure RuntimeToolCall where
  mcpId : String
  toolName : String
  args : Json

/-- A call returns, or throws with the message of an error or without one. -/
abbrev CallAnswer := Except (Option String) ToolContentResult

inductive RuntimeToolCallResult where
  | ok (entry : RuntimeToolCatalogEntry) (result : ToolContentResult)
  | failed (code : RuntimeToolCallErrorCode) (message : String)
      (entry : Option RuntimeToolCatalogEntry) (candidates : List (String × String))

structure DispatchRuntimeToolCallParams where
  catalog : List RuntimeToolCatalogEntry
  allowedToolKeys : Option (List String) := none
  turnExecutionIntent : Option TurnExecutionIntent := none
  scheduledAutomation : Option Bool := none
  toolName : String
  mcpId : Option String := none
  args : Json

/-- The action that the arguments name, else the one that the turn is for. -/
def requestedOperation (intent : TurnExecutionIntent) (args : Json) : Option Json :=
  match args.get? "action" with
  | none | some .null => intent.operation.map fun operation => .string operation.text
  | some action => some action

def isExplicitPersonalReminderAttempt (intent : TurnExecutionIntent) (mcpId toolName : String) (args : Json) : Bool :=
  (intent.operation == none || intent.operation == some .create) &&
    intent.destination == .personalReminder && intent.confidence == .explicit &&
    !intent.requiresClarification &&
    requestedOperation intent args == some (.string "create") &&
    mcpId == "lobu-memory" && toolName == "manage_schedules"

def deniedScheduleActions : List String :=
  ["create", "activate", "update", "upsert", "set", "enable", "resume"]

def isScheduledAutomationScheduleWriteDenied (scheduledAutomation : Bool)
    (mcpId toolName : String) (args : Json) : Bool :=
  scheduledAutomation && mcpId == "lobu-memory" && toolName == "manage_schedules" &&
    ((args.get? "action").bind Json.string?).any fun action =>
      deniedScheduleActions.contains action

/-- A schema that cannot be checked lets everything pass. -/
def validateToolArgs (entry : RuntimeToolCatalogEntry) (args : Json) : Option RuntimeToolCallResult :=
  match entry.tool.inputSchema with
  | none => none
  | some schema =>
    if Json.truthy (some schema) && runtime.checkSchema schema args == some false then
      some (.failed .schemaInvalid
        ("Arguments failed schema validation for " ++ entry.toolKey ++ ".") (some entry) [])
    else none

def textFromToolResult (result : ToolContentResult) : String :=
  "\n".intercalate (result.content.filterMap fun part =>
    match part with
    | .text text => some text
    | .image _ _ => none)

/-- `text.includes(word)` -/
def includes (word : List Char) : List Char → Bool
  | [] => word.isEmpty
  | c :: rest => word.isPrefixOf (c :: rest) || includes word rest

def classifyDelegatedToolError (result : ToolContentResult) : Option RuntimeToolCallErrorCode :=
  let text := runtime.letters.lower (textFromToolResult result).toList
  let mentions (words : List String) := words.any fun word => includes word.toList text
  match (result.errorCode.bind Json.string?).bind stableErrorCode with
  | some code => some code
  | none =>
    if result.isError ≠ some (.bool true) then none
    else if mentions ["auth", "login", "credential"] then some (.blocked .authRequired)
    else if mentions ["approval", "approve"] then some (.blocked .approvalRequired)
    else if mentions ["timed out", "non-json response", "server unavailable"] then
      some .serverUnavailable
    else some .toolError

def answered (entry : RuntimeToolCatalogEntry) (answer : CallAnswer) : RuntimeToolCallResult :=
  match answer with
  | .error message =>
    .failed .serverUnavailable (message.getD ("Failed to call " ++ entry.toolKey ++ "."))
      (some entry) []
  | .ok result =>
    match classifyDelegatedToolError runtime result with
    | none => .ok entry result
    | some code =>
      let text := textFromToolResult result
      .failed code (if text = "" then "Tool " ++ entry.toolKey ++ " failed." else text)
        (some entry) []

/-- Why an entry that was found is not called. -/
def refusal (params : DispatchRuntimeToolCallParams) (entry : RuntimeToolCatalogEntry) :
    Option RuntimeToolCallResult :=
  let refuse (code : RuntimeToolCallErrorCode) (message : String) :=
    some (RuntimeToolCallResult.failed code ("Tool " ++ entry.toolKey ++ message) (some entry) [])
  match entry.callBlockedReason with
  | some reason => refuse (.blocked reason) " is not callable via the runtime catalog."
  | none =>
    if params.allowedToolKeys.any fun keys => !keys.contains entry.toolKey then
      refuse (.blocked .policyDenied) " is outside the effective tool inventory for this turn."
    else
      let attempts := params.turnExecutionIntent.any fun intent =>
        isExplicitPersonalReminderAttempt intent entry.mcpId entry.name params.args
      match if attempts then
          entry.behaviorBlockedReasons.bind fun reasons => reasons.get? "personal_reminder"
        else none with
      | some reason =>
        refuse (.blocked reason) " is blocked for personal reminder creation in this turn."
      | none =>
        if isScheduledAutomationScheduleWriteDenied
            (params.scheduledAutomation == some true) entry.mcpId entry.name params.args then
          refuse .scheduledAutomationToolDenied
            " cannot create or update schedules during a scheduled automation turn."
        else validateToolArgs runtime entry params.args

abbrev Dispatch := Process RuntimeToolCall (fun _ => CallAnswer) RuntimeToolCallResult

def dispatchRuntimeToolCall (params : DispatchRuntimeToolCallParams) : Dispatch :=
  match findRuntimeToolCatalogEntry params.catalog params.toolName params.mcpId with
  | .missing =>
    let server := match params.mcpId with
      | some mcpId => if mcpId = "" then "" else mcpId ++ "/"
      | none => ""
    .done (.failed (.blocked .notDiscovered) ("Tool " ++ server ++ params.toolName ++
      " is not in the discovered runtime MCP catalog.") none [])
  | .ambiguous candidates =>
    .done (.failed .ambiguousTool ("Tool " ++ params.toolName ++
        " exists on multiple MCP servers. Provide mcp_id to disambiguate.") none
      (candidates.map fun entry => (entry.mcpId, entry.name)))
  | .found entry =>
    match refusal runtime params entry with
    | some result => .done result
    | none => .ask ⟨entry.mcpId, entry.name, params.args⟩ fun answer =>
      .done (answered runtime entry answer)

end Lobu.Tools
