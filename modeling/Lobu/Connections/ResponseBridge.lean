import Lobu.Foundation.Machine
import Lobu.Foundation.Windows

namespace Lobu.Connections

open Lobu.Foundation

/-! # The response bridge

A worker's reply arrives in deltas and ends with a completion or an error.  The bridge keeps a
stream, a blocking mark and a rolling tail for each channel and conversation.
-/

/-- A text by its UTF-16 units, as the lengths count them. -/
abbrev ReplyText := List UInt16

/-- The blanks and line ends that `trim` removes. -/
def isBlankUnit (unit : UInt16) : Bool :=
  let code := unit.toNat
  decide (9 ≤ code ∧ code ≤ 13) || decide (0x2000 ≤ code ∧ code ≤ 0x200a) ||
    [0x20, 0xa0, 0x1680, 0x2028, 0x2029, 0x202f, 0x205f, 0x3000, 0xfeff].contains code

def hasText (text : ReplyText) : Bool := text.any fun unit => !isBlankUnit unit

def OUTPUT_GUARDRAIL_TAIL_CHARS : Nat := 256
def GUARDRAIL_SCAN_WINDOW : Nat := OUTPUT_GUARDRAIL_TAIL_CHARS * 2

structure StreamState where
  buffer : ReplyText
  streamFailed : Bool
  wasFullyReplaced : Bool
  target : Bool

/-- What the maps `streams`, `blockedStreams` and `guardrailTails` hold under one key. -/
structure BridgeEntry where
  stream : Option StreamState := none
  blocked : Bool := false
  tail : Option ReplyText := none

/-- `live` is `DefaultResponseStrategy`, `slack` delivers at completion. -/
inductive ResponseStrategy where
  | live
  | slack

def ResponseStrategy.deliversAtCompletion : ResponseStrategy → Bool
  | .live => false
  | .slack => true

structure ResponsePayload where
  channelId : String
  conversationId : String
  delta : Option ReplyText := none
  isFullReplacement : Bool := false
  finalText : Option ReplyText := none
  error : Option String := none
  errorCode : Option String := none

def ResponsePayload.key (payload : ResponsePayload) : String :=
  payload.channelId ++ ":" ++ payload.conversationId

/-- What a call finds: the strategy of a managed connection, whether a target resolves, whether
the platform has taken the live stream, whether the Slack client posts, and whether there is a
conversation state to store in. -/
structure ResponseContext where
  strategy : ResponseStrategy
  targetResolves : Bool := true
  streamTaken : Bool := true
  clientPosts : Bool := true
  storesHistory : Bool := true

/-- What a call does to the platform and to the history. -/
inductive BridgeEffect where
  -- the delta goes into a new stream or buffer, or into the one there is
  | passedOn (delta : ReplyText)
  | delivered (text : ReplyText)
  | stored (text : ReplyText)
  | blockNotice
  | errorNotice
deriving DecidableEq

/-- The assistant's text that an effect brings to the platform or to the history. -/
def BridgeEffect.carries : BridgeEffect → Bool
  | .passedOn _ | .delivered _ | .stored _ => true
  | .blockNotice | .errorNotice => false

section Handlers

variable (isMatch : ReplyText → Bool)

/-- The output guardrails on a text; an empty one is not scanned. -/
def runOutputGuardrails (scanText : ReplyText) : Bool :=
  !scanText.isEmpty && hasMatch OUTPUT_GUARDRAIL_TAIL_CHARS isMatch scanText

def scanWindowWithTail (tail : Option ReplyText) (delta : ReplyText) : ReplyText :=
  (tail.getD [] ++ delta).rtake GUARDRAIL_SCAN_WINDOW

def ResponseStrategy.handleDelta (strategy : ResponseStrategy) (context : ResponseContext)
    (delta : ReplyText) (isFullReplacement : Bool) : Option StreamState → List BridgeEffect × Option StreamState
  | some existing =>
    ([.passedOn delta], some { existing with
      buffer := existing.buffer ++ delta
      wasFullyReplaced := existing.wasFullyReplaced ||
        (strategy.deliversAtCompletion && isFullReplacement) })
  | none =>
    match strategy with
    | .live =>
      if context.targetResolves then
        ([.passedOn delta], some ⟨delta, false, isFullReplacement, true⟩)
      else ([], none)
    | .slack =>
      ([.passedOn delta], some ⟨delta, true, isFullReplacement, context.targetResolves⟩)

def ResponseStrategy.handleCompletion (strategy : ResponseStrategy) (context : ResponseContext)
    (finalText : Option ReplyText) (stream : Option StreamState) : List BridgeEffect :=
  match strategy with
  | .live =>
    match stream with
    | some stream =>
      if (stream.streamFailed || !context.streamTaken) && hasText stream.buffer &&
          stream.target then
        [.delivered stream.buffer]
      else []
    | none => []
  | .slack =>
    let text := finalText.getD ((stream.map StreamState.buffer).getD [])
    if hasText text && (context.clientPosts || stream.any StreamState.target) then
      [.delivered text]
    else []

def notice (context : ResponseContext) (effect : BridgeEffect) : List BridgeEffect :=
  if context.targetResolves then [effect] else []

/-- A full replacement drops the stream and its tail first, if there is a stream. -/
def BridgeEntry.replaced (entry : BridgeEntry) (isFullReplacement : Bool) : BridgeEntry :=
  if isFullReplacement && entry.stream.isSome then { entry with stream := none, tail := none }
  else entry

def handleDelta (payload : ResponsePayload) (context : ResponseContext) (entry : BridgeEntry) :
    List BridgeEffect × BridgeEntry :=
  match payload.delta with
  | none => ([], entry)
  | some delta =>
    if entry.blocked then ([], entry)
    else
      let fresh := entry.replaced payload.isFullReplacement
      let scanText := scanWindowWithTail fresh.tail delta
      if runOutputGuardrails isMatch scanText then
        (notice context .blockNotice, { stream := none, blocked := true, tail := none })
      else
        let (effects, next) := context.strategy.handleDelta context delta
          payload.isFullReplacement fresh.stream
        (effects, { stream := next, blocked := false, tail := some scanText })

def handleCompletion (payload : ResponsePayload) (context : ResponseContext)
    (entry : BridgeEntry) : List BridgeEffect × BridgeEntry :=
  if entry.blocked then ([], {})
  else
    let strategy := context.strategy
    let completionText := payload.finalText.getD ((entry.stream.map StreamState.buffer).getD [])
    let blockedAtCompletion := strategy.deliversAtCompletion && hasText completionText &&
      runOutputGuardrails isMatch completionText
    let canDeliverFromFinalText := strategy.deliversAtCompletion && payload.finalText.any hasText
    let delivery :=
      if blockedAtCompletion then notice context .blockNotice
      else if entry.stream.isSome || canDeliverFromFinalText then
        strategy.handleCompletion context payload.finalText entry.stream
      else []
    let history :=
      if !blockedAtCompletion && hasText completionText && context.storesHistory then
        [.stored completionText]
      else []
    (delivery ++ history, { entry with stream := none, tail := none })

/-- Neither the blocking mark nor the tail is touched. -/
def handleError (payload : ResponsePayload) (context : ResponseContext) (entry : BridgeEntry) :
    List BridgeEffect × BridgeEntry :=
  match payload.error with
  | none => ([], entry)
  | some _ =>
    let effects :=
      if entry.stream.any StreamState.wasFullyReplaced then []
      else if payload.errorCode = some "SESSION_TIMEOUT" then []
      else notice context .errorNotice
    (effects, { entry with stream := none })

end Handlers

inductive BridgeCall where
  | delta
  | completion
  | error
deriving DecidableEq

/-- A call for a payload; without a managed connection it does nothing. -/
structure BridgeEvent where
  call : BridgeCall
  payload : ResponsePayload
  context : Option ResponseContext

def BridgeEvent.handle (isMatch : ReplyText → Bool) (event : BridgeEvent) (entry : BridgeEntry) :
    List BridgeEffect × BridgeEntry :=
  match event.context with
  | none => ([], entry)
  | some context =>
    match event.call with
    | .delta => handleDelta isMatch event.payload context entry
    | .completion => handleCompletion isMatch event.payload context entry
    | .error => handleError event.payload context entry

end Lobu.Connections
