import Lobu.Foundation.Machine
import Lobu.Queue.Statement

namespace Lobu.Queue

open Lobu.Foundation

/-! # Sending

`sendWithDisposition` is one transaction at READ COMMITTED, so another session's
statements may run between any two of its own.  What it has written is visible
to no one before the commit, but an insert under the same key waits for it: an
insert is therefore not enabled while another open transaction holds the key.

`durableRuns` lists, for each key, the rows inserted through `sendDurable` since
the key's receipt row was created.  No function reads it.
-/

variable {P : Type}

/-- A row of `public.queue_dispatch_receipts`. -/
structure Receipt where
  idempotencyKey : String
  organizationId : Option String
  queueName : String
  runId : Option Nat
  createdAt : Instant

structure Disposition where
  jobId : String
  deduplicated : Bool
deriving DecidableEq

/-- The next statement of the call, or how it ended. -/
inductive SendPhase where
  | insertReceipt
  | selectReceipt
  | insertRun
  | selectExisting
  | linkReceipt (runId : Nat) (deduplicated : Bool)
  | committing (disposition : Disposition)
  | returned (disposition : Disposition)
  | threw
deriving DecidableEq

/-- One call of `sendWithDisposition`.  `receipt` and `row` are what it has
inserted; they are taken back when it aborts. -/
structure SendCall (P : Type) where
  request : SendRequest P
  receipt : Option Receipt
  row : Option (Run P)
  phase : SendPhase

namespace SendRequest

/-- The idempotency key where the code tests it for truth: an empty one is none. -/
def truthyKey (request : SendRequest P) : Option String :=
  request.idempotencyKey.filter fun key => decide (key ≠ "")

def durableKey (request : SendRequest P) : Option String :=
  if request.options.durableSingleton then request.truthyKey else none

def receipt (request : SendRequest P) (key : String) (now : Instant) : Receipt where
  idempotencyKey := key
  organizationId := request.organizationIdFromPayload
  queueName := request.queueName
  runId := none
  createdAt := now

end SendRequest

variable {request : SendRequest P} {key : String}

theorem SendRequest.idempotencyKey_of_truthyKey
    (keyed : request.truthyKey = some key) : request.idempotencyKey = some key :=
  (Option.filter_eq_some_iff.mp keyed).1

theorem SendRequest.truthyKey_of_durableKey
    (durable : request.durableKey = some key) : request.truthyKey = some key := by
  simp only [SendRequest.durableKey] at durable
  split at durable
  · exact durable
  · contradiction

theorem SendRequest.idempotencyKey_of_durableKey
    (durable : request.durableKey = some key) : request.idempotencyKey = some key :=
  idempotencyKey_of_truthyKey (truthyKey_of_durableKey durable)

def Receipt.inScope (receipt : Receipt) (request : SendRequest P) : Bool :=
  receipt.queueName == request.queueName &&
    receipt.organizationId == request.organizationIdFromPayload

def Receipt.jobId (receipt : Receipt) : String :=
  match receipt.runId with
  | some runId => toString runId
  | none => "receipt:" ++ receipt.idempotencyKey

namespace SendCall

def start (request : SendRequest P) (accepting : Bool) : SendCall P where
  request
  receipt := none
  row := none
  phase :=
    if accepting then
      if request.durableKey.isSome then .insertReceipt else .insertRun
    else .threw

def inFlight (call : SendCall P) : Bool :=
  match call.phase with
  | .returned _ | .threw => false
  | .insertReceipt | .selectReceipt | .insertRun | .selectExisting | .linkReceipt _ _
  | .committing _ => true

def holdsReceipt (key : String) (call : SendCall P) : Bool :=
  call.inFlight && call.receipt.any fun receipt => receipt.idempotencyKey == key

def holdsRow (key : Option String) (call : SendCall P) : Bool :=
  call.inFlight && key.isSome && call.row.any fun row => row.idempotencyKey == key

end SendCall

structure SendState (P : Type) where
  runs : List (Run P)
  receipts : List Receipt
  nextId : Nat
  calls : List (SendCall P)
  durableRuns : String → List Nat

inductive SendEvent (P : Type) where
  | begin (request : SendRequest P) (isConnected shuttingDown : Bool)
  | insertReceipt (call : Nat) (now : Instant)
  | selectReceipt (call : Nat)
  | insertRun (call : Nat) (now : Instant)
  | selectExisting (call : Nat)
  | linkReceipt (call : Nat)
  | commit (call : Nat) (answered : Bool)
  | abort (call : Nat)
  | statement (statement : RunsStatement)
  | cleanup (cleanup : RunsCleanup)
  | sweepReceipts (env : RetentionEnv) (now : Instant)

def SendEvent.call : SendEvent P → Option Nat
  | .insertReceipt call _ | .selectReceipt call | .insertRun call _ | .selectExisting call
  | .linkReceipt call | .commit call _ | .abort call => some call
  | .begin _ _ _ | .statement _ | .cleanup _ | .sweepReceipts _ _ => none

namespace SendState

variable (state : SendState P)

def setCall (index : Nat) (call : SendCall P) : SendState P :=
  { state with calls := state.calls.set index call }

def findReceipt (key : String) : Option Receipt :=
  state.receipts.find? fun receipt => receipt.idempotencyKey == key

/-- `… WHERE idempotency_key = … AND status IN (…) ORDER BY id DESC LIMIT 1`. -/
def findActive (key : String) : Option (Run P) :=
  firstBy (fun first second => decide (second.id < first.id)) (state.runs.filter (activeUnder key))

/-- Old receipts whose run is gone or has ended. -/
def sweptReceipts (env : RetentionEnv) (now : Instant) : List Receipt :=
  ((state.receipts.filter fun receipt =>
    decide (receipt.createdAt < now - env.receiptRetentionDays * dayMs) &&
      state.runs.all fun row => some row.id != receipt.runId || !row.status.active).insertionSort
    fun first second => first.createdAt ≤ second.createdAt).take 1000

def initial : SendState P where
  runs := []
  receipts := []
  nextId := 1
  calls := []
  durableRuns := fun _ => []

end SendState

/-- The call after `INSERT INTO queue_dispatch_receipts … ON CONFLICT DO NOTHING`. -/
def insertReceiptStep (state : SendState P) (call : SendCall P) (now : Instant) : Option (SendCall P) :=
  match call.request.durableKey with
  | none => none
  | some key =>
    if state.calls.any (SendCall.holdsReceipt key) then none
    else if (state.findReceipt key).isSome then some { call with phase := .selectReceipt }
    else some { call with receipt := some (call.request.receipt key now), phase := .insertRun }

/-- Nothing was written, so the commit that follows is not a step of its own. -/
def selectReceiptStep (state : SendState P) (call : SendCall P) : Option (SendCall P) :=
  match call.request.durableKey with
  | none => none
  | some key =>
    match state.findReceipt key with
    | some receipt =>
      if receipt.inScope call.request then
        some { call with phase := .returned { jobId := receipt.jobId, deduplicated := true } }
      else some { call with phase := .threw }
    | none => some { call with phase := .threw }

/-- A conflict under an empty key is not looked up: the code goes on as if the
row had been inserted. -/
def insertRunStep (state : SendState P) (call : SendCall P) (now : Instant) : Option (SendCall P) :=
  if state.calls.any (SendCall.holdsRow call.request.idempotencyKey) then none
  else
    match insertRun call.request state.nextId now state.runs with
    | some row => some { call with
        row := some row
        phase :=
          if call.request.durableKey.isSome then .linkReceipt row.id false
          else .committing { jobId := toString row.id, deduplicated := false } }
    | none => some { call with
        phase :=
          if call.request.truthyKey.isSome then .selectExisting
          else .committing { jobId := "", deduplicated := false } }

def selectExistingStep (state : SendState P) (call : SendCall P) : Option (SendCall P) :=
  match call.request.truthyKey with
  | none => none
  | some key =>
    match state.findActive key with
    | some row => some { call with
        phase :=
          if call.request.durableKey.isSome then .linkReceipt row.id true
          else .committing { jobId := toString row.id, deduplicated := true } }
    | none => some { call with phase := .committing { jobId := "", deduplicated := true } }

def linkReceiptStep (call : SendCall P) (runId : Nat) (deduplicated : Bool) : SendCall P :=
  { call with
    receipt := call.receipt.map fun receipt => { receipt with runId := some runId }
    phase := .committing { jobId := toString runId, deduplicated } }

def commitStep (state : SendState P) (index : Nat) (call : SendCall P)
    (disposition : Disposition) (answered : Bool) : SendState P where
  runs := state.runs ++ call.row.toList
  receipts := state.receipts ++ call.receipt.toList
  nextId := state.nextId
  calls := state.calls.set index { call with
    phase := if answered then .returned disposition else .threw }
  durableRuns key :=
    if call.request.durableKey = some key then
      state.durableRuns key ++ (call.row.map Run.id).toList
    else state.durableRuns key

def sweepReceiptsStep (state : SendState P) (env : RetentionEnv) (now : Instant) : SendState P :=
  let swept := (state.sweptReceipts env now).map Receipt.idempotencyKey
  { state with
    receipts := deleteWhere (fun receipt => swept.contains receipt.idempotencyKey) state.receipts
    durableRuns := fun key => if key ∈ swept then [] else state.durableRuns key }

def sendStep (state : SendState P) : SendEvent P → Option (SendState P)
  | .begin request isConnected shuttingDown => some { state with
      calls := state.calls ++ [SendCall.start request (isConnected && !shuttingDown)] }
  | .insertReceipt index now => do
      let call ← state.calls[index]?
      if call.phase = .insertReceipt then
        (insertReceiptStep state call now).map (state.setCall index)
      else none
  | .selectReceipt index => do
      let call ← state.calls[index]?
      if call.phase = .selectReceipt then
        (selectReceiptStep state call).map (state.setCall index)
      else none
  | .insertRun index now => do
      let call ← state.calls[index]?
      if call.phase = .insertRun then
        (insertRunStep state call now).map fun next =>
          { state.setCall index next with nextId := state.nextId + 1 }
      else none
  | .selectExisting index => do
      let call ← state.calls[index]?
      if call.phase = .selectExisting then
        (selectExistingStep state call).map (state.setCall index)
      else none
  | .linkReceipt index => do
      let call ← state.calls[index]?
      match call.phase with
      | .linkReceipt runId deduplicated =>
        some (state.setCall index (linkReceiptStep call runId deduplicated))
      | _ => none
  | .commit index answered => do
      let call ← state.calls[index]?
      match call.phase with
      | .committing disposition => some (commitStep state index call disposition answered)
      | _ => none
  | .abort index => do
      let call ← state.calls[index]?
      if call.inFlight then
        some (state.setCall index { call with receipt := none, row := none, phase := .threw })
      else none
  | .statement statement => some { state with runs := statement.run state.runs }
  | .cleanup cleanup => some { state with runs := cleanup.run state.runs }
  | .sweepReceipts env now => some (sweepReceiptsStep state env now)

/-- Sending, from empty tables. -/
def sending : Machine (SendState P) (SendEvent P) where
  starts state := state = SendState.initial
  step := sendStep

/-- One statement of a call other than its commit, with what it saw. -/
inductive SendCall.Moves (state : SendState P) (call : SendCall P) : SendCall P → Prop where
  | receiptFound (key : String) (durable : call.request.durableKey = some key)
      (phase : call.phase = .insertReceipt) :
      call.Moves state { call with phase := .selectReceipt }
  | receiptInserted (key : String) (now : Instant) (durable : call.request.durableKey = some key)
      (phase : call.phase = .insertReceipt)
      (free : ∀ receipt ∈ state.receipts, receipt.idempotencyKey ≠ key)
      (alone : ∀ other ∈ state.calls, other.holdsReceipt key = false) :
      call.Moves state
        { call with receipt := some (call.request.receipt key now), phase := .insertRun }
  | deduplicated (key : String) (receipt : Receipt) (durable : call.request.durableKey = some key)
      (phase : call.phase = .selectReceipt) (member : receipt ∈ state.receipts)
      (named : receipt.idempotencyKey = key) (scope : receipt.inScope call.request = true) :
      call.Moves state { call with
        phase := .returned { jobId := receipt.jobId, deduplicated := true } }
  | collided (phase : call.phase = .selectReceipt) :
      call.Moves state { call with phase := .threw }
  | rowInserted (now : Instant) (phase : call.phase = .insertRun)
      (free : runsIdempotencyKeyUniq.conflicts call.request.idempotencyKey state.runs = false) :
      call.Moves state { call with
        row := some (call.request.row state.nextId now)
        phase :=
          if call.request.durableKey.isSome then .linkReceipt state.nextId false
          else .committing { jobId := toString state.nextId, deduplicated := false } }
  | rowFound (phase : call.phase = .insertRun)
      (taken : runsIdempotencyKeyUniq.conflicts call.request.idempotencyKey state.runs = true) :
      call.Moves state { call with
        phase :=
          if call.request.truthyKey.isSome then .selectExisting
          else .committing { jobId := "", deduplicated := false } }
  | existingFound (key : String) (row : Run P) (keyed : call.request.truthyKey = some key)
      (phase : call.phase = .selectExisting) (member : row ∈ state.runs)
      (active : activeUnder key row = true) :
      call.Moves state { call with
        phase :=
          if call.request.durableKey.isSome then .linkReceipt row.id true
          else .committing { jobId := toString row.id, deduplicated := true } }
  | existingMissed (phase : call.phase = .selectExisting) :
      call.Moves state { call with phase := .committing { jobId := "", deduplicated := true } }
  | linked (runId : Nat) (deduplicated : Bool) (phase : call.phase = .linkReceipt runId deduplicated) :
      call.Moves state (linkReceiptStep call runId deduplicated)
  | aborted (open_ : call.inFlight = true) :
      call.Moves state { call with receipt := none, row := none, phase := .threw }

inductive SendEffect (before : SendState P) (event : SendEvent P) (after : SendState P) : Prop where
  | began (request : SendRequest P) (isConnected shuttingDown : Bool)
      (asked : event = .begin request isConnected shuttingDown)
      (result : after = { before with
        calls := before.calls ++ [SendCall.start request (isConnected && !shuttingDown)] })
  | moved (index : Nat) (call next : SendCall P) (caller : event.call = some index)
      (found : before.calls[index]? = some call) (moves : call.Moves before next)
      (runs : after.runs = before.runs) (receipts : after.receipts = before.receipts)
      (nextId : before.nextId ≤ after.nextId)
      (fresh : ∀ row, next.row = some row → call.row = some row ∨
        row.id = before.nextId ∧ before.nextId < after.nextId)
      (calls : after.calls = before.calls.set index next)
      (durableRuns : after.durableRuns = before.durableRuns)
  | committed (index : Nat) (call : SendCall P) (disposition : Disposition) (answered : Bool)
      (asked : event = .commit index answered) (found : before.calls[index]? = some call)
      (phase : call.phase = .committing disposition)
      (result : after = commitStep before index call disposition answered)
  | touched (caller : event.call = none)
      (persists : (before.runs.map Run.id).Nodup → ∀ row ∈ after.runs,
        ∃ old ∈ before.runs, Persists old row)
      (ids : (after.runs.map Run.id).Sublist (before.runs.map Run.id))
      (result : after = { before with runs := after.runs })
  | swept (env : RetentionEnv) (now : Instant) (caller : event.call = none)
      (result : after = sweepReceiptsStep before env now)

section Effects

variable {before after : SendState P} {event : SendEvent P} {call next : SendCall P}
variable {now : Instant}

theorem SendCall.start_phase (request : SendRequest P) (accepting : Bool) :
    (SendCall.start request accepting).phase = .insertReceipt ∨
      (SendCall.start request accepting).phase = .insertRun ∨ (SendCall.start request accepting).phase = .threw := by
  simp only [SendCall.start]
  split
  · split
    · exact .inl rfl
    · exact .inr (.inl rfl)
  · exact .inr (.inr rfl)

theorem SendCall.inFlight_of_phase {phase : SendPhase} (stands : call.phase = phase)
    (open_ : { call with phase := phase }.inFlight = true) : call.inFlight = true := by
  simp only [SendCall.inFlight] at open_ ⊢
  rw [stands]
  exact open_

theorem SendCall.Moves.inFlight (moves : call.Moves before next) : call.inFlight = true := by
  cases moves with
  | receiptFound _ _ phase | receiptInserted _ _ _ phase | deduplicated _ _ _ phase
  | collided phase | rowInserted _ phase | rowFound phase | existingFound _ _ _ phase
  | existingMissed phase | linked _ _ phase => exact call.inFlight_of_phase phase rfl
  | aborted running => exact running

theorem findReceipt_some {receipt : Receipt} (found : before.findReceipt key = some receipt) :
    receipt ∈ before.receipts ∧ receipt.idempotencyKey = key :=
  ⟨List.mem_of_find?_eq_some found, by simpa using List.find?_some found⟩

theorem findActive_some {row : Run P} (found : before.findActive key = some row) :
    row ∈ before.runs ∧ activeUnder key row = true :=
  List.mem_filter.mp (firstBy_mem found)

theorem insertReceiptStep_moves (phase : call.phase = .insertReceipt)
    (stepped : insertReceiptStep before call now = some next) : call.Moves before next := by
  simp only [insertReceiptStep] at stepped
  split at stepped
  · contradiction
  · rename_i key durable
    split at stepped
    · contradiction
    · rename_i waits
      split at stepped
      · cases stepped
        exact .receiptFound key durable phase
      · rename_i missing
        cases stepped
        refine .receiptInserted key now durable phase ?_ (by simpa using waits)
        intro receipt member same
        rw [SendState.findReceipt, Option.not_isSome_iff_eq_none, List.find?_eq_none] at missing
        exact missing receipt member (by simpa using same)

theorem selectReceiptStep_moves (phase : call.phase = .selectReceipt)
    (stepped : selectReceiptStep before call = some next) : call.Moves before next := by
  simp only [selectReceiptStep] at stepped
  split at stepped
  · contradiction
  · rename_i key durable
    split at stepped
    · rename_i receipt found
      obtain ⟨member, named⟩ := findReceipt_some found
      split at stepped
      · rename_i scope
        cases stepped
        exact .deduplicated key receipt durable phase member named scope
      · cases stepped
        exact .collided phase
    · cases stepped
      exact .collided phase

theorem insertRunStep_moves (phase : call.phase = .insertRun)
    (stepped : insertRunStep before call now = some next) : call.Moves before next := by
  simp only [insertRunStep] at stepped
  split at stepped
  · contradiction
  · split at stepped
    · rename_i row inserted
      obtain ⟨rfl, free⟩ := insertRun_some inserted
      cases stepped
      exact .rowInserted now phase free
    · rename_i conflict
      cases stepped
      refine .rowFound phase ?_
      simp only [insertRun] at conflict
      split at conflict
      · rename_i taken
        exact taken
      · contradiction

theorem selectExistingStep_moves (phase : call.phase = .selectExisting)
    (stepped : selectExistingStep before call = some next) : call.Moves before next := by
  simp only [selectExistingStep] at stepped
  split at stepped
  · contradiction
  · rename_i key keyed
    split at stepped
    · rename_i row found
      obtain ⟨member, active⟩ := findActive_some found
      cases stepped
      exact .existingFound key row keyed phase member active
    · cases stepped
      exact .existingMissed phase

theorem insertRunStep_row (stepped : insertRunStep before call now = some next) {row : Run P}
    (written : next.row = some row) : call.row = some row ∨ row.id = before.nextId := by
  simp only [insertRunStep] at stepped
  split at stepped
  · contradiction
  · split at stepped
    · rename_i inserted
      obtain ⟨rfl, _⟩ := insertRun_some inserted
      cases stepped
      cases written
      exact .inr rfl
    · cases stepped
      exact .inl written

/-- Only the insert into `runs` gives the call a row. -/
theorem SendCall.Moves.row (moves : call.Moves before next) (phase : call.phase ≠ .insertRun)
    {row : Run P} (written : next.row = some row) : call.row = some row := by
  cases moves with
  | receiptFound | receiptInserted | deduplicated | collided | existingFound | existingMissed
  | linked => exact written
  | rowInserted _ stands => exact absurd stands phase
  | rowFound stands => exact absurd stands phase
  | aborted => cases written

theorem SendEffect.of_setCall {index : Nat} (caller : event.call = some index)
    (found : before.calls[index]? = some call) (phase : call.phase ≠ .insertRun)
    (moves : call.Moves before next) : SendEffect before event (before.setCall index next) :=
  .moved index call next caller found moves rfl rfl (Nat.le_refl _)
    (fun _ written => .inl (moves.row phase written)) rfl rfl

theorem sendStep_effect (stepped : sendStep before event = some after) : SendEffect before event after := by
  cases event with
  | begin request isConnected shuttingDown =>
    cases stepped
    exact .began request isConnected shuttingDown rfl rfl
  | insertReceipt index now =>
    obtain ⟨call, found, stepped⟩ := Option.bind_eq_some_iff.mp stepped
    split at stepped
    · rename_i phase
      obtain ⟨next, moved, rfl⟩ := Option.map_eq_some_iff.mp stepped
      exact .of_setCall rfl found (by simp [phase]) (insertReceiptStep_moves phase moved)
    · contradiction
  | selectReceipt index =>
    obtain ⟨call, found, stepped⟩ := Option.bind_eq_some_iff.mp stepped
    split at stepped
    · rename_i phase
      obtain ⟨next, moved, rfl⟩ := Option.map_eq_some_iff.mp stepped
      exact .of_setCall rfl found (by simp [phase]) (selectReceiptStep_moves phase moved)
    · contradiction
  | insertRun index now =>
    obtain ⟨call, found, stepped⟩ := Option.bind_eq_some_iff.mp stepped
    split at stepped
    · rename_i phase
      obtain ⟨next, moved, rfl⟩ := Option.map_eq_some_iff.mp stepped
      refine .moved index call next rfl found (insertRunStep_moves phase moved) rfl rfl (Nat.le_succ _) ?_ rfl rfl
      intro row written
      rcases insertRunStep_row moved written with same | new
      · exact .inl same
      · exact .inr ⟨new, Nat.lt_succ_self _⟩
    · contradiction
  | selectExisting index =>
    obtain ⟨call, found, stepped⟩ := Option.bind_eq_some_iff.mp stepped
    split at stepped
    · rename_i phase
      obtain ⟨next, moved, rfl⟩ := Option.map_eq_some_iff.mp stepped
      exact .of_setCall rfl found (by simp [phase]) (selectExistingStep_moves phase moved)
    · contradiction
  | linkReceipt index =>
    obtain ⟨call, found, stepped⟩ := Option.bind_eq_some_iff.mp stepped
    split at stepped
    · rename_i runId deduplicated phase
      cases stepped
      exact .of_setCall rfl found (by simp [phase]) (.linked runId deduplicated phase)
    · contradiction
  | commit index answered =>
    obtain ⟨call, found, stepped⟩ := Option.bind_eq_some_iff.mp stepped
    split at stepped
    · rename_i disposition phase
      cases stepped
      exact .committed index call disposition answered rfl found phase rfl
    · contradiction
  | abort index =>
    obtain ⟨call, found, stepped⟩ := Option.bind_eq_some_iff.mp stepped
    split at stepped
    · rename_i open_
      cases stepped
      exact .moved index call _ rfl found (.aborted open_) rfl rfl (Nat.le_refl _)
        (fun _ written => by cases written) rfl rfl
    · contradiction
  | statement statement =>
    cases stepped
    exact .touched rfl (fun unique row member => statement.run_persists unique member) (by rw [statement.run_ids]) rfl
  | cleanup cleanup =>
    cases stepped
    refine .touched rfl (fun _ row member => ?_) (List.filter_sublist.map _) rfl
    exact ⟨row, (mem_deleteWhere.mp member).1, .refl row⟩
  | sweepReceipts env now =>
    cases stepped
    exact .swept env now rfl rfl

end Effects

end Lobu.Queue
