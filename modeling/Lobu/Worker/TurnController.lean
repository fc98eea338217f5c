import Lobu.Foundation.JsonText
import Lobu.Foundation.KeyOrder
import Lobu.Foundation.Machine

namespace Lobu.Worker

open Lobu.Foundation

/-! # The turn controller

A guarded call runs from its check to the start of the tool's body without a pause, so it is one
step whatever the bodies already started are doing.  `executed` lists the calls of the turn whose
bodies were started.  No function reads it.
-/

/-- What a tool is called with: no object has two properties of one name. -/
structure Arguments where
  value : Json
  once : value.namesOnce = true := by decide
deriving DecidableEq

/-- `sorted[k] = …` on a plain object: `__proto__` names its prototype, not a property. -/
def assign (sorted : List (String × Json)) (field : String × Json) : List (String × Json) :=
  if field.1 = "__proto__" then sorted else Json.setField field.1 field.2 sorted

/-- What `sortedReplacer` makes of an object, its properties in the order in which they are
then written. -/
def sortedCopy (fields : List (String × Json)) : List (String × Json) :=
  inPropertyOrder ((sortFields fields).foldl assign [])

mutual

/-- The value that `JSON.stringify` writes with the replacer. -/
def replaced : Json → Json
  | .array items => .array (replacedItems items)
  | .object fields => .object (sortedCopy (replacedFields fields))
  | value => value

def replacedItems : List Json → List Json
  | [] => []
  | item :: items => replaced item :: replacedItems items

def replacedFields : List (String × Json) → List (String × Json)
  | [] => []
  | (name, value) :: fields => (name, replaced value) :: replacedFields fields

end

/-- `undefined` has no JSON text and is written by `String`. -/
def stableArgsKey (numbers : NumberText) : Option Arguments → String
  | some args => stringify numbers.text (replaced args.value)
  | none => "undefined"

def defaultMaxToolCallsPerTurn : Nat := 50

def defaultMaxIdenticalToolCalls : Nat := 3

inductive TurnTerminationReason where
  | askUser
  | identicalToolLoop
  | toolCallCap
deriving DecidableEq

structure TurnControllerOptions where
  maxToolCallsPerTurn : Option Nat
  maxIdenticalToolCalls : Option Nat
deriving DecidableEq

namespace TurnControllerOptions

def toolCallCap (options : TurnControllerOptions) : Nat :=
  options.maxToolCallsPerTurn.getD defaultMaxToolCallsPerTurn

def identicalCap (options : TurnControllerOptions) : Nat :=
  options.maxIdenticalToolCalls.getD defaultMaxIdenticalToolCalls

end TurnControllerOptions

structure ToolCall where
  toolName : String
  args : Option Arguments
deriving DecidableEq

/-- A key that was never counted has count zero.  `notices` lists the calls of `onTerminate` and
`aborts` counts those of the attached abort. -/
structure TurnState where
  totalToolCalls : Nat
  callCounts : String → Nat
  terminated : Bool
  terminationReason : Option TurnTerminationReason
  abortTurn : Bool
  notices : List (TurnTerminationReason × String)
  aborts : Nat
  executed : List ToolCall

def startTurn (state : TurnState) : TurnState :=
  { state with
    totalToolCalls := 0
    callCounts := fun _ => 0
    terminated := false
    terminationReason := none
    executed := [] }

def attachAbort (state : TurnState) : TurnState := { state with abortTurn := true }

def terminate (state : TurnState) (reason : TurnTerminationReason) (message : String) : TurnState :=
  if state.terminated then state
  else
    { state with
      terminated := true
      terminationReason := some reason
      notices := state.notices ++ [(reason, message)]
      aborts := if state.abortTurn then state.aborts + 1 else state.aborts }

/-- The key of the class in which a call is counted. -/
def callKey (numbers : NumberText) (call : ToolCall) : String :=
  stringify numbers.text
    (.array [.string call.toolName, .string (stableArgsKey numbers call.args)])

def capMessage (options : TurnControllerOptions) : String :=
  "Tool-call cap reached (" ++ toString options.toolCallCap ++
    " calls in one turn). Aborting to prevent a runaway loop."

def loopMessage (toolName : String) (count : Nat) : String :=
  "Tool \"" ++ toolName ++ "\" was called " ++ toString count ++
    " times with identical arguments in one turn. Aborting to prevent a runaway loop."

/-- The state after a call was recorded, and whether it tripped a guard. -/
def recordToolCall (numbers : NumberText) (options : TurnControllerOptions) (state : TurnState)
    (call : ToolCall) : TurnState × Bool :=
  if state.terminated then (state, false)
  else
    let total := state.totalToolCalls + 1
    let counted := { state with totalToolCalls := total }
    if options.toolCallCap < total then
      (terminate counted .toolCallCap (capMessage options), true)
    else
      let key := callKey numbers call
      let next := state.callCounts key + 1
      let recorded := { counted with callCounts := Function.update state.callCounts key next }
      if options.identicalCap < next then
        (terminate recorded .identicalToolLoop (loopMessage call.toolName next), true)
      else (recorded, false)

/-- `none` is a call whose body is started, `some` one answered without it. -/
def guardedExecute (numbers : NumberText) (options : TurnControllerOptions) (state : TurnState)
    (call : ToolCall) : TurnState × Option String :=
  if state.terminated then
    (state, some ("⛔ Turn already ended; " ++ call.toolName ++ " was not executed."))
  else
    let (recorded, tripped) := recordToolCall numbers options state call
    if tripped then
      (recorded, some ("⛔ Turn aborted: " ++ call.toolName ++
        " was invoked in a runaway loop. " ++
        if recorded.terminationReason = some .toolCallCap then "Too many tool calls in one turn."
        else "The same call was repeated too many times."))
    else ({ recorded with executed := recorded.executed ++ [call] }, none)

inductive TurnEvent where
  | invoke (call : ToolCall)
  | terminate (reason : TurnTerminationReason) (message : String)
  | attachAbort
deriving DecidableEq

def turnMachine (numbers : NumberText) (options : TurnControllerOptions) : Machine TurnState TurnEvent where
  starts state := ∃ before, state = startTurn before
  step state
    | .invoke call => some (guardedExecute numbers options state call).1
    | .terminate reason message => some (terminate state reason message)
    | .attachAbort => some (attachAbort state)

section Outcomes

variable {numbers : NumberText} {options : TurnControllerOptions} {state : TurnState}
variable {call : ToolCall}

theorem terminate_frame (state : TurnState) (reason : TurnTerminationReason) (message : String) :
    (terminate state reason message).terminated = true ∧
    (terminate state reason message).executed = state.executed := by
  unfold terminate
  split
  · exact ⟨by assumption, rfl⟩
  · exact ⟨rfl, rfl⟩

/-- A call whose body starts is counted within both bounds; any other leaves `executed` as it is,
and the turn is over. -/
theorem guardedExecute_cases (numbers : NumberText) (options : TurnControllerOptions)
    (state : TurnState) (call : ToolCall) :
    (state.terminated = false ∧ state.totalToolCalls + 1 ≤ options.toolCallCap ∧
      state.callCounts (callKey numbers call) + 1 ≤ options.identicalCap ∧
      guardedExecute numbers options state call =
        ({ state with
            totalToolCalls := state.totalToolCalls + 1
            callCounts := Function.update state.callCounts (callKey numbers call)
              (state.callCounts (callKey numbers call) + 1)
            executed := state.executed ++ [call] }, none)) ∨
    ((guardedExecute numbers options state call).1.terminated = true ∧
      (guardedExecute numbers options state call).1.executed = state.executed ∧
      (guardedExecute numbers options state call).2.isSome = true) := by
  cases stopped : state.terminated with
  | true => exact .inr (by simp [guardedExecute, stopped])
  | false =>
    by_cases capped : options.toolCallCap < state.totalToolCalls + 1
    · refine .inr ?_
      simp only [guardedExecute, recordToolCall, stopped, capped, ↓reduceIte, Bool.false_eq_true]
      exact ⟨(terminate_frame _ _ _).1, (terminate_frame _ _ _).2, rfl⟩
    · by_cases looping : options.identicalCap < state.callCounts (callKey numbers call) + 1
      · refine .inr ?_
        simp only [guardedExecute, recordToolCall, stopped, capped, looping, ↓reduceIte, Bool.false_eq_true]
        exact ⟨(terminate_frame _ _ _).1, (terminate_frame _ _ _).2, rfl⟩
      · refine .inl ⟨rfl, by omega, by omega, ?_⟩
        simp only [guardedExecute, recordToolCall, stopped, capped, looping, ↓reduceIte, Bool.false_eq_true]

end Outcomes

end Lobu.Worker
