import Lobu.Tools.RuntimeCatalog

namespace Lobu.Tools

open Lobu.Foundation
open Lobu.Worker (trimmed)

/-! # Servers as commands

`embedded/mcp-cli-commands.ts`: each server is a command of the turn's shell.  The commands read
one runtime state, which an `auth check` or `auth logout` replaces.
-/

inductive ReminderBlockedReason where
  | capabilityInactive
  | snapshotMissing
  | snapshotExpired

/-- What the calls read of a server's status. -/
structure McpStatus where
  id : String
  provenance : McpCatalogProvenance

structure McpRuntimeState where
  mcpTools : List (String × List McpToolDef)
  mcpStatus : List McpStatus
  allowedToolKeys : Option (List String)
  turnEligibleToolKeys : Option (List String)
  clarificationBlockedToolKeys : Option (List String)
  turnExecutionIntent : Option TurnExecutionIntent
  scheduledAutomation : Option Bool
  personalReminderDeliveryBlockedReason : Option ReminderBlockedReason

/-- `JSON.parse`, with the message of what it throws, and the check that the reference may hold. -/
structure CliDeps where
  parse : String → Except String Json
  isToolInvocationAllowed : Option (String → McpToolDef → McpRuntimeState → Bool)

inductive BlockedTool where
  | notAllowed
  | clarificationRequired
  | reminder (reason : ReminderBlockedReason)
  | scheduledAutomationToolDenied

structure GatewayCall where
  mcpId : String
  toolName : String
  payload : List (String × Json)
  expectedMcpIdentity : Option McpCatalogProvenance

inductive CliReply where
  | help
  | auth
  | unknownTool (toolName : String)
  | schema (schema : Json)
  | blocked (error : BlockedTool) (toolName : String)
  | badPayload (message : String)
  | called (call : GatewayCall)

section Handler

variable (deps : CliDeps) (mcpId : String)

def findTool (toolName : String) (state : McpRuntimeState) : Option McpToolDef :=
  match ((state.mcpTools.lookup mcpId).getD []).find? fun candidate => candidate.name == some toolName with
  | none => none
  | some tool =>
    match deps.isToolInvocationAllowed with
    | none => some tool
    | some isAllowed => if isAllowed mcpId tool state then some tool else none

def expectedMcpIdentityFor (state : McpRuntimeState) : Option McpCatalogProvenance :=
  match state.mcpStatus.find? fun candidate => candidate.id == mcpId with
  | none => none
  | some status =>
    if status.provenance.upstreamOrigin.getD "" = "" ∨ status.provenance.configSource = none ∨
        status.provenance.configDigest.getD "" = "" then none
    else some status.provenance

def parsePayload (stdin inlineArg : Option String) : Except String (List (String × Json)) :=
  let fromStdin := (stdin.map trimmed).getD ""
  let raw := if fromStdin = "" then (inlineArg.map trimmed).getD "" else fromStdin
  if raw = "" then .ok []
  else
    match deps.parse raw with
    | .ok (.object fields) => .ok fields
    | .ok _ => .error "expected a JSON object payload"
    | .error message => .error ("invalid JSON payload: " ++ message)

/-- The reason for which a call of a personal reminder is turned down. -/
def reminderBlocked (state : McpRuntimeState) (toolName : String) (payload : List (String × Json)) :
    Option ReminderBlockedReason :=
  state.personalReminderDeliveryBlockedReason.filter fun _ =>
    state.turnExecutionIntent.any fun intent =>
      isExplicitPersonalReminderAttempt intent mcpId toolName (.object payload)

/-- `<tool> [json]` -/
def callTool (toolName : String) (inlineArg stdin : Option String) (state : McpRuntimeState) : CliReply :=
  match findTool deps mcpId toolName state with
  | none => .unknownTool toolName
  | some _ =>
    let canonicalToolKey := toolIdentityKey mcpId toolName
    if state.allowedToolKeys.any fun keys => !keys.contains canonicalToolKey then
      .blocked .notAllowed toolName
    else if state.clarificationBlockedToolKeys.any fun keys => keys.contains canonicalToolKey then
      .blocked .clarificationRequired toolName
    else
      match parsePayload deps stdin inlineArg with
      | .error message => .badPayload message
      | .ok payload =>
        match reminderBlocked mcpId state toolName payload with
        | some reason => .blocked (.reminder reason) toolName
        | none =>
          if isScheduledAutomationScheduleWriteDenied (state.scheduledAutomation == some true)
              mcpId toolName (.object payload) then
            .blocked .scheduledAutomationToolDenied toolName
          else .called ⟨mcpId, toolName, payload, expectedMcpIdentityFor mcpId state⟩

end Handler

/-- The state that takes the place of `current` when the refresh gives `fresh`. -/
def refreshed (current fresh : McpRuntimeState) : McpRuntimeState :=
  let turnEligibleToolKeys := current.turnEligibleToolKeys.or current.allowedToolKeys
  let refreshedAllowedToolKeys := fresh.allowedToolKeys.or current.allowedToolKeys
  let allowedToolKeys :=
    match turnEligibleToolKeys with
    | some eligible =>
      (refreshedAllowedToolKeys.map fun keys => keys.filter eligible.contains).or (some eligible)
    | none => refreshedAllowedToolKeys
  { fresh with
    allowedToolKeys := allowedToolKeys
    turnEligibleToolKeys := turnEligibleToolKeys
    clarificationBlockedToolKeys :=
      fresh.clarificationBlockedToolKeys.or current.clarificationBlockedToolKeys
    turnExecutionIntent := current.turnExecutionIntent
    scheduledAutomation := current.scheduledAutomation
    personalReminderDeliveryBlockedReason := current.personalReminderDeliveryBlockedReason }

/-- One command, with what the gateway and the refresh answer: whether the user is authenticated,
and the fresh snapshot, none where the refresh is absent, fails or gives null. -/
structure Invocation where
  mcpId : String
  args : List String
  stdin : Option String
  authenticated : Bool
  fresh : Option McpRuntimeState

/-- The snapshot that the command takes over. -/
def Invocation.takes (invocation : Invocation) : Option McpRuntimeState :=
  match invocation.args with
  | "auth" :: "check" :: _ => if invocation.authenticated then invocation.fresh else none
  | "auth" :: "logout" :: _ => invocation.fresh
  | _ => none

def isHelp (subcommand : String) : Bool :=
  subcommand == "" || subcommand == "--help" || subcommand == "-h"

def replyTo (deps : CliDeps) (invocation : Invocation) (state : McpRuntimeState) : CliReply :=
  match invocation.args with
  | [] => .help
  | subcommand :: rest =>
    if isHelp subcommand then .help
    else if subcommand = "auth" then .auth
    else if rest.head? = some "--schema" then
      match findTool deps invocation.mcpId subcommand state with
      | none => .unknownTool subcommand
      | some tool => .schema (tool.inputSchema.getD (.object []))
    else callTool deps invocation.mcpId subcommand rest.head? invocation.stdin state

def stateAfter (start : McpRuntimeState) (invocations : List Invocation) : McpRuntimeState :=
  invocations.foldl (fun state invocation => (invocation.takes.map (refreshed state)).getD state) start

section Called

variable {deps : CliDeps} {state : McpRuntimeState} {invocation : Invocation} {call : GatewayCall}

structure Passes (state : McpRuntimeState) (call : GatewayCall) : Prop where
  allowed : ∀ keys, state.allowedToolKeys = some keys → toolIdentityKey call.mcpId call.toolName ∈ keys
  unblocked : ∀ keys, state.clarificationBlockedToolKeys = some keys →
    toolIdentityKey call.mcpId call.toolName ∉ keys
  intended : reminderBlocked call.mcpId state call.toolName call.payload = none
  unscheduled : isScheduledAutomationScheduleWriteDenied (state.scheduledAutomation == some true)
    call.mcpId call.toolName (.object call.payload) = false

theorem callTool_passes {mcpId toolName : String} {inlineArg stdin : Option String}
    (called : callTool deps mcpId toolName inlineArg stdin state = .called call) : Passes state call := by
  unfold callTool at called
  split at called
  · contradiction
  simp only at called
  split at called
  · contradiction
  rename_i allowed
  split at called
  · contradiction
  rename_i unblocked
  split at called
  · contradiction
  split at called
  · contradiction
  rename_i intended
  split at called
  · contradiction
  rename_i unscheduled
  cases called
  refine ⟨fun keys isKeys => ?_, fun keys isKeys blocked => ?_, intended, by simpa using unscheduled⟩
  · simpa [isKeys] using allowed
  · exact unblocked (by simpa [isKeys] using blocked)

theorem replyTo_passes (called : replyTo deps invocation state = .called call) : Passes state call := by
  unfold replyTo at called
  split at called
  · contradiction
  split at called
  · contradiction
  split at called
  · contradiction
  split at called
  · split at called <;> contradiction
  · exact callTool_passes called

end Called

/-- The last list of allowed keys, and the last set of blocked ones, that the snapshots give. -/
def lastAllowed (snapshots : List McpRuntimeState) : Option (List String) :=
  snapshots.reverse.findSome? McpRuntimeState.allowedToolKeys

def lastClarification (snapshots : List McpRuntimeState) : Option (List String) :=
  snapshots.reverse.findSome? McpRuntimeState.clarificationBlockedToolKeys

structure Kept (start : McpRuntimeState) (allowed : List String) (snapshots : List McpRuntimeState)
    (state : McpRuntimeState) : Prop where
  eligible : ∀ keys, state.turnEligibleToolKeys = some keys → keys ⊆ allowed
  allowed : ∃ keys, state.allowedToolKeys = some keys ∧ keys ⊆ allowed ∧
    ∀ latest, lastAllowed snapshots = some latest → keys ⊆ latest
  clarification : state.clarificationBlockedToolKeys =
    (lastClarification snapshots).or start.clarificationBlockedToolKeys
  intent : state.turnExecutionIntent = start.turnExecutionIntent
  scheduled : state.scheduledAutomation = start.scheduledAutomation
  reason : state.personalReminderDeliveryBlockedReason = start.personalReminderDeliveryBlockedReason

section Kept

variable {start state : McpRuntimeState} {allowed : List String} {snapshots : List McpRuntimeState}

theorem Kept.refresh (kept : Kept start allowed snapshots state) (fresh : McpRuntimeState) :
    Kept start allowed (snapshots ++ [fresh]) (refreshed state fresh) := by
  obtain ⟨keys, isKeys, within, latest⟩ := kept.allowed
  obtain ⟨eligible, isEligible, eligibleWithin⟩ : ∃ eligible,
      state.turnEligibleToolKeys.or state.allowedToolKeys = some eligible ∧ eligible ⊆ allowed := by
    cases given : state.turnEligibleToolKeys with
    | none => exact ⟨keys, isKeys, within⟩
    | some eligible => exact ⟨eligible, rfl, kept.eligible eligible given⟩
  obtain ⟨granted, isGranted, grantedLast⟩ : ∃ granted,
      fresh.allowedToolKeys.or state.allowedToolKeys = some granted ∧
        ∀ latest, lastAllowed (snapshots ++ [fresh]) = some latest → granted ⊆ latest := by
    rw [lastAllowed, List.reverse_append, List.reverse_singleton, List.singleton_append, List.findSome?_cons]
    cases given : fresh.allowedToolKeys with
    | none => exact ⟨keys, isKeys, latest⟩
    | some granted =>
      exact ⟨granted, rfl, fun latest same => Option.some.inj same ▸ List.Subset.refl granted⟩
  refine ⟨fun keys same => ?_, ⟨granted.filter eligible.contains, ?_, fun key member => ?_,
    fun latest same key member => ?_⟩, ?_, kept.intent, kept.scheduled, kept.reason⟩
  · exact Option.some.inj (isEligible.symm.trans same) ▸ eligibleWithin
  · simp only [refreshed, isEligible, isGranted, Option.map_some, Option.some_or]
  · have isKey := (List.mem_filter.mp member).2
    exact eligibleWithin (List.contains_iff_mem.mp isKey)
  · exact grantedLast latest same (List.mem_filter.mp member).1
  · rw [lastClarification, List.reverse_append, List.reverse_singleton, List.singleton_append, List.findSome?_cons]
    simp only [refreshed, kept.clarification]
    cases fresh.clarificationBlockedToolKeys with
    | none => rfl
    | some keys => rfl

theorem stateAfter_concat (invocations : List Invocation) (last : Invocation) :
    stateAfter start (invocations ++ [last]) =
      (last.takes.map (refreshed (stateAfter start invocations))).getD (stateAfter start invocations) :=
  List.foldl_append

theorem kept_after (startAllowed : start.allowedToolKeys = some allowed)
    (eligible : ∀ keys, start.turnEligibleToolKeys = some keys → keys ⊆ allowed) (invocations : List Invocation) :
    Kept start allowed (invocations.filterMap Invocation.takes) (stateAfter start invocations) := by
  induction invocations using List.reverseRecOn with
  | nil =>
    refine ⟨eligible, ⟨allowed, startAllowed, List.Subset.refl _, fun latest none => ?_⟩, rfl, rfl, rfl, rfl⟩
    contradiction
  | append_singleton invocations last ih =>
    rw [stateAfter_concat, List.filterMap_append]
    cases taken : last.takes with
    | none => simpa [taken] using ih
    | some fresh => simpa [taken] using ih.refresh fresh

end Kept

/-- A call that reaches the gateway is of a tool that was allowed when the turn began and that the
snapshots since still allow, and passes what the turn began with. -/
theorem called_within_turn (deps : CliDeps) (start : McpRuntimeState) (allowed : List String)
    (startAllowed : start.allowedToolKeys = some allowed)
    (eligible : ∀ keys, start.turnEligibleToolKeys = some keys → keys ⊆ allowed)
    (invocations : List Invocation) (last : Invocation) (call : GatewayCall)
    (called : replyTo deps last (stateAfter start invocations) = .called call) :
    toolIdentityKey call.mcpId call.toolName ∈ allowed ∧
      (∀ latest, lastAllowed (invocations.filterMap Invocation.takes) = some latest →
        toolIdentityKey call.mcpId call.toolName ∈ latest) ∧
      (∀ blocked, (lastClarification (invocations.filterMap Invocation.takes)).or
          start.clarificationBlockedToolKeys = some blocked → toolIdentityKey call.mcpId call.toolName ∉ blocked) ∧
      reminderBlocked call.mcpId start call.toolName call.payload = none ∧
      isScheduledAutomationScheduleWriteDenied (start.scheduledAutomation == some true)
        call.mcpId call.toolName (.object call.payload) = false := by
  have kept := kept_after startAllowed eligible invocations
  have passes := replyTo_passes called
  obtain ⟨keys, isKeys, within, latest⟩ := kept.allowed
  have inKeys := passes.allowed keys isKeys
  refine ⟨within inKeys, fun last same => latest last same inKeys, fun blocked same => ?_, ?_, ?_⟩
  · exact passes.unblocked blocked (kept.clarification.trans same)
  · have intended := passes.intended
    rw [reminderBlocked, kept.reason, kept.intent] at intended
    exact intended
  · rw [← kept.scheduled]
    exact passes.unscheduled

/-- A turn with one tool, which a logout does not take away. -/
def oneCommand : McpRuntimeState where
  mcpTools := [("m", [{ fields := [("name", .string "t")] }])]
  mcpStatus := []
  allowedToolKeys := some [toolIdentityKey "m" "t"]
  turnEligibleToolKeys := some [toolIdentityKey "m" "t"]
  clarificationBlockedToolKeys := some []
  turnExecutionIntent := none
  scheduledAutomation := some true
  personalReminderDeliveryBlockedReason := some .snapshotMissing

theorem called_within_turn_oneCommand :
    toolIdentityKey "m" "t" ∈ [toolIdentityKey "m" "t"] ∧ reminderBlocked "m" oneCommand "t" [] = none :=
  have within := called_within_turn ⟨fun _ => .error "", none⟩ oneCommand [toolIdentityKey "m" "t"] rfl
    (fun _ same => Option.some.inj same ▸ List.Subset.refl _)
    [⟨"m", ["auth", "logout"], none, true, some { oneCommand with clarificationBlockedToolKeys := none }⟩]
    ⟨"m", ["t"], none, true, none⟩ ⟨"m", "t", [], none⟩ rfl
  ⟨within.1, within.2.2.2.1⟩

end Lobu.Tools
