import Lobu.Connections.ResponseBridge

namespace Lobu.Connections

open Lobu.Foundation

/-! # The output guardrail over a whole turn -/

variable {isMatch : ReplyText → Bool} {payload : ResponsePayload} {context : ResponseContext}
variable {entry : BridgeEntry} {delta : ReplyText}

abbrev contains (isMatch : ReplyText → Bool) (text : ReplyText) : Bool :=
  hasMatch OUTPUT_GUARDRAIL_TAIL_CHARS isMatch text

/-- What a turn has brought so far: the text that was passed on since the last full replacement,
and whether a match has come up. -/
structure Turn where
  text : ReplyText := []
  matched : Bool := false
deriving DecidableEq

def Turn.base (turn : Turn) (isFullReplacement : Bool) : ReplyText :=
  if isFullReplacement then [] else turn.text

def Turn.offered (turn : Turn) (payload : ResponsePayload) (delta : ReplyText) : ReplyText :=
  turn.base payload.isFullReplacement ++ delta

/-- A match comes up, or the delta is passed on or is not. -/
def Turn.hear (isMatch : ReplyText → Bool) (turn : Turn) (payload : ResponsePayload)
    (delta : ReplyText) (effects : List BridgeEffect) : Turn :=
  if turn.matched || contains isMatch (turn.offered payload delta) then
    { turn with matched := true }
  else if effects.contains (.passedOn delta) then { turn with text := turn.offered payload delta }
  else { turn with text := turn.base payload.isFullReplacement }

/-- A turn ends with its completion or with an error. -/
def Turn.after (isMatch : ReplyText → Bool) (turn : Turn) (event : BridgeEvent)
    (effects : List BridgeEffect) : Turn :=
  match event.context with
  | none => turn
  | some _ =>
    match event.call with
    | .delta =>
      match event.payload.delta with
      | none => turn
      | some delta => turn.hear isMatch event.payload delta effects
    | .completion => {}
    | .error => if event.payload.error.isSome then {} else turn

/-- The bridge, and the turns as their conversations see them. -/
structure Conversations where
  entries : String → BridgeEntry := fun _ => {}
  turns : String → Turn := fun _ => {}

def conversations (isMatch : ReplyText → Bool) : Machine Conversations BridgeEvent where
  starts state := state = {}
  step state event :=
    let key := event.payload.key
    let (effects, entry) := event.handle isMatch (state.entries key)
    some {
      entries := Function.update state.entries key entry
      turns := Function.update state.turns key ((state.turns key).after isMatch event effects) }

/-- A text that has been passed on piece by piece is delivered and stored. -/
structure DeliversInFull (context : ResponseContext) (entry : BridgeEntry) (text : ReplyText)
    (effects : List BridgeEffect) : Prop where
  stored : context.storesHistory = true → .stored text ∈ effects
  live : context.strategy = .live → ∃ stream, entry.stream = some stream ∧ stream.buffer = text ∧
    (context.streamTaken = false → stream.target = true → .delivered text ∈ effects)
  slack : context.strategy = .slack →
    context.clientPosts = true ∨ entry.stream.any StreamState.target = true →
      .delivered text ∈ effects

def Silent (effects : List BridgeEffect) : Prop := ∀ effect ∈ effects, effect.carries = false

/-- What the guardrail owes a turn at a delta. -/
structure GuardsDelta (isMatch : ReplyText → Bool) (turn : Turn) (payload : ResponsePayload)
    (context : ResponseContext) (delta : ReplyText) (effects : List BridgeEffect) : Prop where
  dropped : turn.matched = true ∨ contains isMatch (turn.offered payload delta) = true →
    Silent effects
  passedOn : turn.matched = false → contains isMatch (turn.offered payload delta) = false →
    context.targetResolves = true → .passedOn delta ∈ effects

structure GuardsCompletion (turn : Turn) (payload : ResponsePayload) (context : ResponseContext)
    (entry : BridgeEntry) (effects : List BridgeEffect) : Prop where
  suppressed : turn.matched = true → Silent effects
  delivered : turn.matched = false → payload.finalText = none ∨ payload.finalText = some turn.text →
    hasText turn.text = true → DeliversInFull context entry turn.text effects

def Guards (isMatch : ReplyText → Bool) (state : Conversations) (event : BridgeEvent) : Prop :=
  let turn := state.turns event.payload.key
  let entry := state.entries event.payload.key
  let effects := (event.handle isMatch entry).1
  ∀ context, event.context = some context →
    (event.call = .delta → ∀ delta, event.payload.delta = some delta →
      GuardsDelta isMatch turn event.payload context delta effects) ∧
    (event.call = .completion → GuardsCompletion turn event.payload context entry effects)

/-- The key is not left blocked by an earlier turn, and the window over its last characters has a
match where the text of the turn has one. -/
def unspoilt (isMatch : ReplyText → Bool) : Discipline Conversations BridgeEvent
  | state, event =>
    let turn := state.turns event.payload.key
    let entry := state.entries event.payload.key
    event.call ≠ .error → event.context ≠ none →
      (entry.blocked = true → turn.matched = true) ∧
      (event.call = .delta → entry.blocked = false → ∀ delta ∈ event.payload.delta,
        contains isMatch (scanWindowWithTail
            (entry.replaced event.payload.isFullReplacement).tail delta) =
          contains isMatch (turn.offered event.payload delta))

def streamed (stream : Option StreamState) : ReplyText :=
  (stream.map StreamState.buffer).getD []

/-- How the entry of a key stands to its turn. -/
structure Tied (isMatch : ReplyText → Bool) (entry : BridgeEntry) (turn : Turn) : Prop where
  blocked : turn.matched = true → entry.blocked = true
  clean : contains isMatch turn.text = false
  buffered : entry.blocked = false → streamed entry.stream = turn.text

theorem tied_start : Tied isMatch {} {} := by
  refine ⟨nofun, ?_, fun _ => rfl⟩
  simp [contains]

theorem runOutputGuardrails_eq (text : ReplyText) : runOutputGuardrails isMatch text = contains isMatch text := by
  cases text with
  | nil => simp [runOutputGuardrails, contains]
  | cons first rest => simp [runOutputGuardrails]

theorem strategy_delta (strategy : ResponseStrategy) (context : ResponseContext)
    (delta : ReplyText) (isFullReplacement : Bool) (stream : Option StreamState) :
    (strategy.handleDelta context delta isFullReplacement stream).1 = [.passedOn delta] ∧
        streamed (strategy.handleDelta context delta isFullReplacement stream).2 = streamed stream ++ delta ∨
      strategy.handleDelta context delta isFullReplacement stream = ([], none) ∧ stream = none ∧
        context.targetResolves = false := by
  cases stream with
  | some existing => exact .inl ⟨rfl, rfl⟩
  | none =>
    cases strategy with
    | slack => exact .inl ⟨rfl, rfl⟩
    | live =>
      cases resolved : context.targetResolves with
      | true => exact .inl (by simp [ResponseStrategy.handleDelta, resolved, streamed])
      | false => exact .inr (by simp [ResponseStrategy.handleDelta, resolved])

variable {turn : Turn}

theorem replaced_streamed (same : streamed entry.stream = turn.text) (isFullReplacement : Bool) :
    streamed (entry.replaced isFullReplacement).stream = turn.base isFullReplacement := by
  cases isFullReplacement with
  | false => exact same
  | true =>
    cases stream : entry.stream with
    | none => simp [BridgeEntry.replaced, stream, streamed, Turn.base]
    | some existing => simp [BridgeEntry.replaced, stream, streamed, Turn.base]

theorem notice_silent (context : ResponseContext) {effect : BridgeEffect}
    (quiet : effect.carries = false) : Silent (notice context effect) := by
  unfold notice
  split
  · intro other member
    rw [List.mem_singleton.mp member]
    exact quiet
  · intro other member
    cases member

theorem Tied.unmatched (tied : Tied isMatch entry turn)
    (unblocked : entry.blocked = false) : turn.matched = false := by
  cases matched : turn.matched with
  | false => rfl
  | true =>
    have blocked := tied.blocked matched
    rw [unblocked] at blocked
    cases blocked

theorem handleDelta_blocked (context : ResponseContext) (present : payload.delta = some delta)
    (blocked : entry.blocked = true) : handleDelta isMatch payload context entry = ([], entry) := by
  simp [handleDelta, present, blocked]

theorem handleDelta_tripped (context : ResponseContext) (present : payload.delta = some delta)
    (unblocked : entry.blocked = false) (trips : contains isMatch
      (scanWindowWithTail (entry.replaced payload.isFullReplacement).tail delta) = true) :
    handleDelta isMatch payload context entry =
      (notice context .blockNotice, { stream := none, blocked := true, tail := none }) := by
  simp [handleDelta, present, unblocked, runOutputGuardrails_eq, trips]

theorem handleDelta_went (context : ResponseContext) (present : payload.delta = some delta)
    (unblocked : entry.blocked = false) (passes : contains isMatch
      (scanWindowWithTail (entry.replaced payload.isFullReplacement).tail delta) = false) :
    handleDelta isMatch payload context entry =
      let handled := context.strategy.handleDelta context delta payload.isFullReplacement
        (entry.replaced payload.isFullReplacement).stream
      (handled.1, ⟨handled.2, false,
        some (scanWindowWithTail (entry.replaced payload.isFullReplacement).tail delta)⟩) := by
  simp [handleDelta, present, unblocked, runOutputGuardrails_eq, passes]

theorem delta_guarded (context : ResponseContext) (tied : Tied isMatch entry turn)
    (own : entry.blocked = true → turn.matched = true)
    (window : entry.blocked = false → contains isMatch (scanWindowWithTail
        (entry.replaced payload.isFullReplacement).tail delta) = contains isMatch (turn.offered payload delta))
    (present : payload.delta = some delta) :
    GuardsDelta isMatch turn payload context delta (handleDelta isMatch payload context entry).1 ∧
      Tied isMatch (handleDelta isMatch payload context entry).2
        (turn.hear isMatch payload delta (handleDelta isMatch payload context entry).1) := by
  cases blocked : entry.blocked with
  | true =>
    have matched := own blocked
    rw [handleDelta_blocked context present blocked]
    refine ⟨⟨fun _ => nofun, ?_⟩, ?_⟩
    · intro unmatched
      rw [matched] at unmatched
      cases unmatched
    · simp only [Turn.hear, matched, Bool.true_or, if_true]
      refine ⟨fun _ => blocked, tied.clean, ?_⟩
      intro unblocked
      rw [blocked] at unblocked
      cases unblocked
  | false =>
    have unmatched := tied.unmatched blocked
    have base := replaced_streamed (tied.buffered blocked) payload.isFullReplacement
    have scanned := window blocked
    cases trips : contains isMatch (turn.offered payload delta) with
    | true =>
      rw [trips] at scanned
      rw [handleDelta_tripped context present blocked scanned]
      refine ⟨⟨fun _ => notice_silent context rfl, ?_⟩, ?_⟩
      · intro _ clean
        rw [trips] at clean
        cases clean
      · simp only [Turn.hear, trips, Bool.or_true, if_true]
        exact ⟨fun _ => rfl, tied.clean, nofun⟩
    | false =>
      rw [trips] at scanned
      rw [handleDelta_went context present blocked scanned]
      have silent : turn.matched = true ∨ contains isMatch (turn.offered payload delta) = true →
          Silent (context.strategy.handleDelta context delta payload.isFullReplacement
            (entry.replaced payload.isFullReplacement).stream).1 := by
        intro found
        simp [unmatched, trips] at found
      rcases strategy_delta context.strategy context delta payload.isFullReplacement
          (entry.replaced payload.isFullReplacement).stream with
        ⟨passed, buffered⟩ | ⟨dropped, absent, unresolved⟩
      · refine ⟨⟨silent, fun _ _ _ => by simp [passed]⟩, ?_⟩
        simp only [Turn.hear, unmatched, trips, passed, Bool.or_self]
        refine ⟨?_, ?_, ?_⟩
        · intro found
          simp at found
        · simpa using trips
        · intro _
          rw [base] at buffered
          simpa [Turn.offered] using buffered
      · refine ⟨⟨silent, ?_⟩, ?_⟩
        · intro _ _ resolved
          rw [unresolved] at resolved
          cases resolved
        · rw [absent] at base
          simp only [Turn.hear, unmatched, trips, dropped, Bool.or_self]
          refine ⟨?_, ?_, fun _ => ?_⟩
          · intro found
            simp at found
          · simp [← base, streamed]
          · simpa using base

theorem whole_text (same : streamed entry.stream = turn.text)
    (own : payload.finalText = none ∨ payload.finalText = some turn.text) :
    payload.finalText.getD ((entry.stream.map StreamState.buffer).getD []) = turn.text := by
  rcases own with absent | present
  · rw [absent]
    exact same
  · rw [present]
    rfl

theorem completion_guarded (payload : ResponsePayload) (context : ResponseContext)
    (tied : Tied isMatch entry turn) (own : entry.blocked = true → turn.matched = true) :
    GuardsCompletion turn payload context entry (handleCompletion isMatch payload context entry).1 ∧
      Tied isMatch (handleCompletion isMatch payload context entry).2 {} := by
  cases blocked : entry.blocked with
  | true =>
    have idle : handleCompletion isMatch payload context entry = ([], {}) := by
      simp [handleCompletion, blocked]
    rw [idle]
    refine ⟨⟨fun _ => nofun, ?_⟩, tied_start⟩
    intro unmatched
    rw [own blocked] at unmatched
    cases unmatched
  | false =>
    have same := tied.buffered blocked
    refine ⟨⟨?_, ?_⟩, ?_⟩
    · intro matched
      rw [tied.unmatched blocked] at matched
      cases matched
    · intro _ ownText some_
      have whole := whole_text same ownText
      have clean := tied.clean
      refine ⟨?_, ?_, ?_⟩
      · intro stores
        simp [handleCompletion, blocked, whole, runOutputGuardrails_eq, clean, some_, stores]
      · intro live
        cases present : entry.stream with
        | none =>
          rw [present] at same
          rw [← same] at some_
          cases some_
        | some stream =>
          have buffered : stream.buffer = turn.text := by simpa [present, streamed] using same
          refine ⟨stream, rfl, buffered, ?_⟩
          intro rejected target
          simp [handleCompletion, blocked, live, ResponseStrategy.deliversAtCompletion, present,
            ResponseStrategy.handleCompletion, rejected, target, buffered, some_]
      · intro slack posts
        have reaches : entry.stream.isSome = true ∨ payload.finalText.any hasText = true := by
          cases present : entry.stream with
          | some stream => exact .inl rfl
          | none =>
            rw [present] at same
            rw [← same] at some_
            cases some_
        simp [handleCompletion, blocked, slack, ResponseStrategy.deliversAtCompletion,
          ResponseStrategy.handleCompletion, runOutputGuardrails_eq, whole, clean, some_]
        exact ⟨reaches, posts⟩
    · have idle : (handleCompletion isMatch payload context entry).2 =
          { entry with stream := none, tail := none } := by
        simp [handleCompletion, blocked]
      rw [idle]
      refine ⟨nofun, ?_, fun _ => rfl⟩
      simp

theorem error_tied (payload : ResponsePayload) (context : ResponseContext)
    (tied : Tied isMatch entry turn) :
    Tied isMatch (handleError payload context entry).2 (if payload.error.isSome then {} else turn) := by
  cases present : payload.error with
  | none => simpa [handleError, present] using tied
  | some error =>
    simp only [handleError, present, Option.isSome_some, if_true]
    refine ⟨nofun, ?_, fun _ => rfl⟩
    simp

section Runs

variable {state later : Conversations} {event : BridgeEvent}

theorem event_guarded (tied : Tied isMatch (state.entries event.payload.key) (state.turns event.payload.key))
    (permitted : unspoilt isMatch state event) :
    Guards isMatch state event ∧ Tied isMatch (event.handle isMatch (state.entries event.payload.key)).2
        ((state.turns event.payload.key).after isMatch event
          (event.handle isMatch (state.entries event.payload.key)).1) := by
  obtain ⟨call, payload, context⟩ := event
  cases context with
  | none => exact ⟨fun _ same => (by cases same), tied⟩
  | some context =>
    cases call with
    | delta =>
      obtain ⟨own, window⟩ := permitted (by simp) (by simp)
      cases present : payload.delta with
      | none =>
        refine ⟨?_, ?_⟩
        · intro _ _
          refine ⟨fun _ delta heard => ?_, fun other => (by cases other)⟩
          rw [present] at heard
          cases heard
        · simpa [BridgeEvent.handle, handleDelta, Turn.after, present] using tied
      | some delta =>
        have guarded := delta_guarded context tied own
          (fun unblocked => window rfl unblocked delta present) present
        refine ⟨?_, ?_⟩
        · intro _ same
          cases same
          refine ⟨fun _ other heard => ?_, fun other => (by cases other)⟩
          cases present.symm.trans heard
          exact guarded.1
        · simpa [BridgeEvent.handle, Turn.after, present] using guarded.2
    | completion =>
      obtain ⟨own, -⟩ := permitted (by simp) (by simp)
      have guarded := completion_guarded payload context tied own
      refine ⟨?_, guarded.2⟩
      intro _ same
      cases same
      exact ⟨fun other => (by cases other), fun _ => guarded.1⟩
    | error =>
      refine ⟨?_, error_tied payload context tied⟩
      intro _ _
      exact ⟨fun other => (by cases other), fun other => (by cases other)⟩

theorem tied (reached : (conversations isMatch).Reachable (unspoilt isMatch) state) :
    ∀ key, Tied isMatch (state.entries key) (state.turns key) := by
  let all (state : Conversations) : Prop :=
    ∀ key, Tied isMatch (state.entries key) (state.turns key)
  change all state
  refine reached.invariant ?_ ?_
  · intro state starts key
    rw [starts]
    exact tied_start
  · intro before event after _ tied permitted stepped key
    cases stepped
    by_cases same : key = event.payload.key
    · subst same
      simp only [Function.update_self]
      exact (event_guarded (tied event.payload.key) permitted).2
    · simp only [Function.update_of_ne same]
      exact tied key

/-- Turns that end in completion, in deltas that the window has room for. -/
def brief : Discipline Conversations BridgeEvent
  | _, event => event.call ≠ .error ∧ ∀ context ∈ event.context, context.targetResolves = true ∧
      ∀ delta ∈ event.payload.delta, delta.length ≤ OUTPUT_GUARDRAIL_TAIL_CHARS + 1

/-- The tail is the end of the turn's own text. -/
structure Fresh (entry : BridgeEntry) (turn : Turn) : Prop where
  own : entry.blocked = true → turn.matched = true
  tail : entry.blocked = false → entry.tail.getD [] = turn.text.rtake GUARDRAIL_SCAN_WINDOW

end Runs

instance (isMatch : ReplyText → Bool) (state : Conversations) (event : BridgeEvent) :
    Decidable (unspoilt isMatch state event) :=
  inferInstanceAs (Decidable (_ ≠ _ → _ ≠ _ → _ ∧ (_ → _ → ∀ _ ∈ _, _ = _)))

def isSecret (part : ReplyText) : Bool := part == [1, 2]

def said (call : BridgeCall) (delta : ReplyText) : BridgeEvent where
  call := call
  payload :=
    { channelId := "c", conversationId := "t", delta := some delta, error := some "failed" }
  context := some { strategy := .live }

end Lobu.Connections
