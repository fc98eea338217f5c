import Lobu.Reports.ObserverStore

namespace Lobu.Reports

open Lobu.Foundation

/-! # Reconciliation of sales battle report schedules

A request names the weekdays of one schedule.  One transaction brings the observers of
the schedule, one for each weekday, to what the request asks for.  The advisory lock on
the schedule makes the requests for it serial.
-/

inductive SalesBattleReportDesiredState where
  | active
  | paused
  | deleted
deriving DecidableEq

def SalesBattleReportDesiredState.text : SalesBattleReportDesiredState → String
  | .active => "active"
  | .paused => "paused"
  | .deleted => "deleted"

/-- The weekdays and the revision are those that the route lets through. -/
structure ReconcileSalesBattleReportScheduleInput where
  organizationId : String
  createdByUser : String
  agentId : String
  toolboxScheduleId : String
  scheduleRevision : Nat
  courseName : String
  salesTalkWeekdays : List (Fin 7)
  desiredState : SalesBattleReportDesiredState
  revisionAllowed : 1 ≤ scheduleRevision ∧ scheduleRevision ≤ 2147483647

/-- A request, the time of its transaction and the times that `nextRunAt` gives in it. -/
structure Request where
  input : ReconcileSalesBattleReportScheduleInput
  now : Int
  nextRunAt : Fin 7 → Int

inductive ReconcileResult where
  | reconciled (acceptedRevision : Nat)
      (created updated paused deletedDuplicates observerRefs : List Nat)
  | staleRevision (acceptedRevision : Nat)
  | observerExternalKeyConflict (conflictingJobIds : List Nat)
  | revisionPayloadConflict (acceptedRevision : Nat)
deriving DecidableEq

abbrev Reconciliation := Transaction Database Fault

def observerActionType : String := "sales_battle_report_observer"

def observerCron : String := "0 16 * * *"

def observerExternalKey (toolboxScheduleId : String) (weekday : Fin 7) : String :=
  "toolbox:sales-battle-report:" ++ toolboxScheduleId ++ ":weekday:" ++ toString weekday.val ++
    ":observer"

def observerArgs (input : ReconcileSalesBattleReportScheduleInput) (weekday : Fin 7) : Json :=
  .object [("toolboxScheduleId", .string input.toolboxScheduleId),
    ("scheduleRevision", .number (.finite input.scheduleRevision)),
    ("salesTalkWeekday", .number (.finite weekday.val)),
    ("courseName", .string input.courseName),
    ("agentId", .string input.agentId)]

def observerDescription (input : ReconcileSalesBattleReportScheduleInput) (weekday : Fin 7) : String :=
  "Sales battle report observer: " ++ input.courseName ++ " (weekday " ++
    toString weekday.val ++ ")"

def normalizedWeekdays (input : ReconcileSalesBattleReportScheduleInput) : List (Fin 7) :=
  input.salesTalkWeekdays.dedup.insertionSort (· ≤ ·)

def acceptedRequestFingerprint (runtime : Runtime) (input : ReconcileSalesBattleReportScheduleInput) : String :=
  stringify runtime.numberText (.object [("createdByUser", .string input.createdByUser),
    ("agentId", .string input.agentId),
    ("courseName", .string input.courseName),
    ("salesTalkWeekdays", .array ((normalizedWeekdays input).map fun weekday =>
      .number (.finite weekday.val))),
    ("desiredState", .string input.desiredState.text)])

section Reading

variable (runtime : Runtime)

def hasField (name : String) (fields : List (String × Json)) : Bool :=
  (fields.lookup name).isSome

mutual

/-- `ToString` of a parsed value; an object whose own `toString` hides the inherited one has
no primitive value. -/
def elementText : Json → Except Fault String
  | .null => .ok ""
  | .bool value => .ok (if value then "true" else "false")
  | .number (.finite value) => .ok (runtime.numberText value)
  | .number (.infinite negative) => .ok (if negative then "-Infinity" else "Infinity")
  | .string value => .ok value
  | .array items => do return ",".intercalate (← elementTexts items)
  | .object fields => if hasField "toString" fields then .error .typeError else .ok "[object Object]"

def elementTexts : List Json → Except Fault (List String)
  | [] => .ok []
  | item :: items => do
      let first ← elementText item
      return first :: (← elementTexts items)

end

/-- `Number` of a property; `none` is `NaN`. -/
def toNumber : Option Json → Except Fault (Option JsNumber)
  | none => .ok none
  | some .null => .ok (some (.finite 0))
  | some (.bool value) => .ok (some (.finite (if value then 1 else 0)))
  | some (.number value) => .ok (some value)
  | some (.string value) => .ok (runtime.textNumber value)
  | some (.array items) => do return runtime.textNumber (← elementText runtime (.array items))
  | some (.object fields) => if hasField "toString" fields then .error .typeError else .ok none

def actionArgsObject (row : ScheduledJobRow) : Option Json :=
  match row.actionArgs with
  | .object fields => some (.object fields)
  | _ => none

def isOwnedObserver (row : ScheduledJobRow) (toolboxScheduleId : String) : Bool :=
  row.actionType == observerActionType &&
    decide ((actionArgsObject row).bind (·.get? "toolboxScheduleId") =
      some (.string toolboxScheduleId))

/-- A weekday may be any number, `none` for `NaN`. -/
abbrev Weekday := Option JsNumber

def observerWeekday (row : ScheduledJobRow) : Except Fault Weekday :=
  match actionArgsObject row with
  | some args => toNumber runtime (args.get? "salesTalkWeekday")
  | none => .ok none

/-- `Number.isInteger(weekday) && weekday >= 0 && weekday <= 6`. -/
def calendarDay : Weekday → Option (Fin 7)
  | some (.finite value) =>
    if inside : value.den = 1 ∧ 0 ≤ value.num ∧ value.num ≤ 6 then
      some ⟨value.num.toNat, by omega⟩
    else none
  | _ => none

def dayNumber (weekday : Fin 7) : Weekday :=
  some (.finite weekday.val)

def sameObserver (row : ScheduledJobRow) (input : ReconcileSalesBattleReportScheduleInput) (weekday : Fin 7) : Bool :=
  match actionArgsObject row with
  | none => false
  | some args =>
    decide (row.externalKey = some (observerExternalKey input.toolboxScheduleId weekday)) &&
      decide (row.actionType = observerActionType) &&
      decide (JsNumber.double row.scheduleRevision = .finite input.scheduleRevision) &&
      decide (row.cron = some observerCron) &&
      decide (row.createdByUser = some input.createdByUser) &&
      decide (args.get? "toolboxScheduleId" = some (.string input.toolboxScheduleId)) &&
      decide (args.get? "scheduleRevision" = some (.number (.finite input.scheduleRevision))) &&
      decide (args.get? "salesTalkWeekday" = some (.number (.finite weekday.val))) &&
      decide (args.get? "courseName" = some (.string input.courseName)) &&
      decide (args.get? "agentId" = some (.string input.agentId))

/-- The safe integers above zero. -/
def positiveSafeInteger : JsNumber → Option Int
  | .finite value => if value.den = 1 ∧ 0 < value.num ∧ value.num < 2 ^ 53 then some value.num else none
  | .infinite _ => none

def observerRevision (row : ScheduledJobRow) : Int :=
  ((((actionArgsObject row).bind (·.get? "scheduleRevision")).bind Json.number?).bind
    positiveSafeInteger <|> positiveSafeInteger (JsNumber.double row.scheduleRevision)).getD 0

/-- A `Date` has no microseconds. -/
def getTime (row : ScheduledJobRow) : Int :=
  (row.createdAt.map (· / 1000)).getD 0

def preferredObserver (left right : ScheduledJobRow) : Int :=
  if left.paused ≠ right.paused then if left.paused then 1 else -1
  else if observerRevision right - observerRevision left ≠ 0 then
    observerRevision right - observerRevision left
  else if getTime right - getTime left ≠ 0 then getTime right - getTime left
  else runtime.localeCompare (runtime.idText right.id) (runtime.idText left.id)

/-- `action_args->>'toolboxScheduleId'`. -/
def scheduleText (args : Json) : Option String :=
  match args.get? "toolboxScheduleId" with
  | none | some .null => none
  | some (.string value) => some value
  | some other => some (runtime.jsonbText other)

/-- The rows that a request reads and locks. -/
def locks (organizationId toolboxScheduleId : String) (row : ScheduledJobRow) : Bool :=
  row.organizationId == organizationId &&
    ((row.actionType == observerActionType &&
        scheduleText runtime row.actionArgs == some toolboxScheduleId) ||
      (List.finRange 7).any fun weekday =>
        row.externalKey == some (observerExternalKey toolboxScheduleId weekday))

def createdEarlier (first second : ScheduledJobRow) : Prop :=
  match first.createdAt, second.createdAt with
  | some created, some other => created ≤ other
  | some _, none => True
  | none, some _ => False
  | none, none => True

instance : DecidableRel createdEarlier := fun first second => by
  unfold createdEarlier
  split <;> infer_instance

def lockedRows (input : ReconcileSalesBattleReportScheduleInput) (database : Database) : List ScheduledJobRow :=
  ((database.jobs.rows.map (·.job)).filter
    (locks runtime input.organizationId input.toolboxScheduleId)).insertionSort createdEarlier

end Reading

section Statements

variable (runtime : Runtime) (input : ReconcileSalesBattleReportScheduleInput) (request : Request)

def updateJob (id : Nat) (sets : ScheduledJobRow → ScheduledJobRow) : Reconciliation (Option ScheduledJobRow) :=
  .attempt fun database => (database.jobs.update id sets request.now).map fun updated =>
    (updated.1, { database with jobs := updated.2 })

def insertJob (job : ScheduledJobRow) : Reconciliation ScheduledJobRow :=
  .attempt fun database => (database.jobs.insert job request.now).map fun inserted =>
    (inserted.1, { database with jobs := inserted.2 })

def deleteJob (id : Nat) : Reconciliation Unit :=
  .write fun database => { database with jobs := database.jobs.delete id }

def SyncRow.isFor (row : SyncRow) : Bool :=
  row.organizationId == input.organizationId && row.toolboxScheduleId == input.toolboxScheduleId

def syncRow (database : Database) : Option SyncRow :=
  database.sync.find? (SyncRow.isFor input)

def acceptedSync : SyncRow where
  organizationId := input.organizationId
  toolboxScheduleId := input.toolboxScheduleId
  lastAcceptedRevision := input.scheduleRevision
  desiredState := input.desiredState.text
  acceptedRequestFingerprint := acceptedRequestFingerprint runtime input

def recordRevision (accepted : Option SyncRow) : Reconciliation Unit :=
  if accepted.map (·.lastAcceptedRevision) = some input.scheduleRevision then pure ()
  else .write fun database => { database with
    sync := upsert (SyncRow.isFor input) (acceptedSync runtime input) database.sync }

def refusal (accepted : Option SyncRow) : Option ReconcileResult :=
  match accepted with
  | none => none
  | some row =>
    if input.scheduleRevision < row.lastAcceptedRevision then
      some (.staleRevision row.lastAcceptedRevision)
    else if row.lastAcceptedRevision = input.scheduleRevision ∧
        row.acceptedRequestFingerprint ≠ acceptedRequestFingerprint runtime input then
      some (.revisionPayloadConflict row.lastAcceptedRevision)
    else none

def externalKeyDrifts (row : ScheduledJobRow) (weekday : Weekday) : Bool :=
  match calendarDay weekday with
  | none => row.externalKey.isSome
  | some day => row.externalKey != some (observerExternalKey input.toolboxScheduleId day)

/-- `existing.some(…)`, which reads no weekday after the first drift. -/
def hasExternalKeyDrift : List ScheduledJobRow → Except Fault Bool
  | [] => .ok false
  | row :: rows => do
      let weekday ← observerWeekday runtime row
      if externalKeyDrifts input row weekday then return true else hasExternalKeyDrift rows

def clearExternalKeys : List ScheduledJobRow → Reconciliation (List ScheduledJobRow)
  | [] => pure []
  | row :: rows =>
    match row.externalKey with
    | none => do return row :: (← clearExternalKeys rows)
    | some _ => do
        let _ ← updateJob request row.id fun job => { job with externalKey := none }
        return { row with externalKey := none } :: (← clearExternalKeys rows)

def repairDrift (drift : Bool) (existing : List ScheduledJobRow) : Reconciliation (List ScheduledJobRow) :=
  if drift then clearExternalKeys request existing else pure existing

/-- `map.set(key, [...(map.get(key) ?? []), value])`, which keeps the place of a known key. -/
def pushCandidate (weekday : Weekday) (row : ScheduledJobRow) :
    List (Weekday × List ScheduledJobRow) → List (Weekday × List ScheduledJobRow)
  | [] => [(weekday, [row])]
  | (known, candidates) :: groups =>
    if known = weekday then (known, candidates ++ [row]) :: groups
    else (known, candidates) :: pushCandidate weekday row groups

def candidatesByWeekday : List ScheduledJobRow → List (Weekday × List ScheduledJobRow) →
    Except Fault (List (Weekday × List ScheduledJobRow))
  | [], groups => .ok groups
  | row :: rows, groups => do
      let weekday ← observerWeekday runtime row
      candidatesByWeekday rows (pushCandidate weekday row groups)

def deleteDuplicates : List ScheduledJobRow → Reconciliation (List Nat)
  | [] => pure []
  | duplicate :: duplicates => do
      deleteJob duplicate.id
      return duplicate.id :: (← deleteDuplicates duplicates)

abbrev Survivors := List (Weekday × ScheduledJobRow)

def chooseSurvivors : List (Weekday × List ScheduledJobRow) → Reconciliation (Survivors × List Nat)
  | [] => pure ([], [])
  | (weekday, candidates) :: groups =>
    match candidates.insertionSort (fun left right => preferredObserver runtime left right ≤ 0) with
    | [] => chooseSurvivors groups
    | survivor :: duplicates => do
        let deleted ← deleteDuplicates duplicates
        let (survivors, others) ← chooseSurvivors groups
        return ((weekday, survivor) :: survivors, deleted ++ others)

def repairExternalKeys (original : List (Nat × Option String)) : Survivors → Reconciliation (Survivors × List Nat)
  | [] => pure ([], [])
  | (weekday, survivor) :: survivors =>
    match calendarDay weekday with
    | none => do
        let (others, repaired) ← repairExternalKeys original survivors
        return ((weekday, survivor) :: others, repaired)
    | some day => do
        let externalKey := observerExternalKey request.input.toolboxScheduleId day
        if survivor.externalKey = some externalKey then
          let (others, repaired) ← repairExternalKeys original survivors
          return ((weekday, survivor) :: others, repaired)
        else
          let _ ← updateJob request survivor.id fun job =>
            { job with externalKey := some externalKey }
          let (others, repaired) ← repairExternalKeys original survivors
          return ((weekday, { survivor with externalKey := some externalKey }) :: others,
            if original.lookup survivor.id = some (some externalKey) then repaired
            else survivor.id :: repaired)

/-- The row that `INSERT` makes; the id is given by the table. -/
def newObserver (weekday : Fin 7) : ScheduledJobRow where
  id := 0
  externalKey := some (observerExternalKey request.input.toolboxScheduleId weekday)
  scheduleRevision := request.input.scheduleRevision
  organizationId := request.input.organizationId
  actionType := observerActionType
  actionArgs := observerArgs request.input weekday
  cron := some observerCron
  nextRunAt := request.nextRunAt weekday
  paused := false
  description := observerDescription request.input weekday
  createdByUser := some request.input.createdByUser
  createdByAgent := none
  createdAt := some request.now

def activated (weekday : Fin 7) (job : ScheduledJobRow) : ScheduledJobRow :=
  { job with
    externalKey := some (observerExternalKey request.input.toolboxScheduleId weekday)
    scheduleRevision := request.input.scheduleRevision
    actionType := observerActionType
    actionArgs := observerArgs request.input weekday
    cron := some observerCron
    nextRunAt := request.nextRunAt weekday
    description := observerDescription request.input weekday
    createdByUser := some request.input.createdByUser
    createdByAgent := none
    paused := false }

structure Activation where
  created : List Nat := []
  updated : List Nat := []
  observerRefs : List Nat := []
deriving DecidableEq

def activateObservers (survivors : Survivors) : List (Fin 7) → Reconciliation Activation
  | [] => pure {}
  | weekday :: weekdays =>
    match survivors.lookup (dayNumber weekday) with
    | none => do
        let row ← insertJob request (newObserver request weekday)
        let others ← activateObservers survivors weekdays
        return { others with
          created := row.id :: others.created, observerRefs := row.id :: others.observerRefs }
    | some survivor =>
      if survivor.paused || !sameObserver survivor request.input weekday then do
        match ← updateJob request survivor.id (activated request weekday) with
        | none => .fail .typeError
        | some active =>
          let others ← activateObservers survivors weekdays
          return { others with
            updated := active.id :: others.updated
            observerRefs := active.id :: others.observerRefs }
      else do
        let others ← activateObservers survivors weekdays
        return { others with observerRefs := survivor.id :: others.observerRefs }

def shouldPause (weekday : Weekday) : Bool :=
  decide (request.input.desiredState ≠ .active) ||
    !(normalizedWeekdays request.input).any fun day => dayNumber day = weekday

def pauseObservers : Survivors → Reconciliation (List Nat)
  | [] => pure []
  | (weekday, survivor) :: survivors =>
    if shouldPause request weekday && !survivor.paused then do
      let _ ← updateJob request survivor.id fun job => { job with paused := true }
      return survivor.id :: (← pauseObservers survivors)
    else pauseObservers survivors

def activation (survivors : Survivors) : Reconciliation Activation :=
  if request.input.desiredState = .active then
    activateObservers request survivors (normalizedWeekdays request.input)
  else pure {}

/-- What is done once the rows are known to be observers of the schedule. -/
def reconcileObservers (existing : List ScheduledJobRow) :
    Reconciliation (Activation × List Nat × List Nat) := do
  let drift ← .ofExcept (hasExternalKeyDrift runtime request.input existing)
  let rows ← repairDrift request drift existing
  let candidates ← .ofExcept (candidatesByWeekday runtime rows [])
  let (chosen, deletedDuplicates) ← chooseSurvivors runtime candidates
  let (survivors, repairedExternalKeys) ←
    repairExternalKeys request (existing.map fun row => (row.id, row.externalKey)) chosen
  let active ← activation request survivors
  let paused ← pauseObservers request survivors
  return ({ active with updated := active.updated ++
    repairedExternalKeys.filter fun id => !active.updated.contains id }, paused, deletedDuplicates)

end Statements

def conflictingJobIds (runtime : Runtime) (input : ReconcileSalesBattleReportScheduleInput)
    (rows : List ScheduledJobRow) : List Nat :=
  ((rows.filter fun row => !isOwnedObserver row input.toolboxScheduleId).map (·.id)).insertionSort
    fun first second => sortsBefore (runtime.idText first) (runtime.idText second)

def reconcileSalesBattleReportSchedule (runtime : Runtime) (request : Request) :
    Reconciliation ReconcileResult := do
  let input := request.input
  let accepted ← .read (syncRow input)
  match refusal runtime input accepted with
  | some refused => pure refused
  | none => do
      let rows ← .read (lockedRows runtime input)
      let existing := rows.filter fun row => isOwnedObserver row input.toolboxScheduleId
      match conflictingJobIds runtime input rows with
      | [] => do
          let (active, paused, deletedDuplicates) ← reconcileObservers runtime request existing
          recordRevision runtime input accepted
          return .reconciled input.scheduleRevision active.created active.updated paused
            deletedDuplicates active.observerRefs
      | conflicting => pure (.observerExternalKeyConflict conflicting)

end Lobu.Reports
