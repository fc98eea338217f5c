import Lobu.Queue.Send

namespace Lobu.Queue

open Lobu.Foundation

/-! # What a send returns

`CallAccount` says, for every moment of a call, where the row id comes from that
the call is about to return: from the row it has inserted, from a row it has seen
active, or from the receipt of an earlier durable send.
-/

variable {P : Type} {history : List (SendState P)} {state : SendState P}
variable {index id : Nat} {key : String} {call next : SendCall P}

def Underway (state : SendState P) (index : Nat) : Prop :=
  ∃ call, state.calls[index]? = some call ∧ call.inFlight = true

section

variable (history : List (SendState P))
include history

/-- At some moment the row was active under the key. -/
def Existed (key : String) (id : Nat) : Prop :=
  ∃ state ∈ history, ∃ row ∈ state.runs, row.id = id ∧ activeUnder key row = true

/-- At some moment of the call the row was active under the key. -/
def ActiveDuring (index : Nat) (key : String) (id : Nat) : Prop :=
  ∃ state ∈ history, Underway state index ∧
    ∃ row ∈ state.runs, row.id = id ∧ activeUnder key row = true

def InsertedBy (call : SendCall P) (id : Nat) : Prop :=
  ∃ row, call.row = some row ∧ row.id = id ∧ ∃ state ∈ history, row ∈ state.runs

/-- The call returned the row that will run the payload. -/
def Enqueued (index : Nat) (call : SendCall P) (disposition : Disposition) : Prop :=
  ∃ id, disposition.jobId = toString id ∧
    ((disposition.deduplicated = false ∧ InsertedBy history call id) ∨
      (disposition.deduplicated = true ∧
        ∃ key, call.request.idempotencyKey = some key ∧ ActiveDuring history index key id))

/-- The call returned what the receipt of its key and scope says. -/
def FromReceipt (index : Nat) (call : SendCall P) (disposition : Disposition) : Prop :=
  ∃ state ∈ history, Underway state index ∧ ∃ receipt ∈ state.receipts,
    call.request.durableKey = some receipt.idempotencyKey ∧
      receipt.inScope call.request = true ∧
      disposition = { jobId := receipt.jobId, deduplicated := true } ∧
      ∀ id, receipt.runId = some id → Existed history receipt.idempotencyKey id

/-- Where a row id in a local variable of the call comes from. -/
def Sourced (index : Nat) (call : SendCall P) (id : Nat) (deduplicated : Bool) : Prop :=
  (deduplicated = false ∧ ∃ row, call.row = some row ∧ row.id = id) ∨
    (deduplicated = true ∧
      ∃ key, call.request.truthyKey = some key ∧ ActiveDuring history index key id)

end

structure CallAccount (history : List (SendState P)) (index : Nat) (call : SendCall P) : Prop where
  row : call.inFlight = true → ∀ row, call.row = some row →
    ∃ id now, row = call.request.row id now
  receipt : ∀ receipt, call.receipt = some receipt →
    call.request.durableKey = some receipt.idempotencyKey ∧
      ∀ id, receipt.runId = some id → ∃ deduplicated, Sourced history index call id deduplicated
  unlinked : call.phase = .insertRun → ∀ receipt, call.receipt = some receipt →
    receipt.runId = none
  linking : ∀ id deduplicated, call.phase = .linkReceipt id deduplicated →
    Sourced history index call id deduplicated
  committing : ∀ disposition, call.phase = .committing disposition → disposition.jobId ≠ "" →
    ∃ id, disposition.jobId = toString id ∧ Sourced history index call id disposition.deduplicated
  returned : ∀ disposition, call.phase = .returned disposition → disposition.jobId ≠ "" →
    Enqueued history index call disposition ∨ FromReceipt history index call disposition

structure SendAccount (history : List (SendState P)) (state : SendState P) : Prop where
  calls : ∀ index call, state.calls[index]? = some call → CallAccount history index call
  receipts : ∀ receipt ∈ state.receipts, ∀ id, receipt.runId = some id →
    Existed history receipt.idempotencyKey id

section Past

theorem Existed.later (existed : Existed history key id) : Existed (state :: history) key id := by
  obtain ⟨past, member, rest⟩ := existed
  exact ⟨past, List.mem_cons_of_mem _ member, rest⟩

theorem ActiveDuring.later (active : ActiveDuring history index key id) :
    ActiveDuring (state :: history) index key id := by
  obtain ⟨past, member, rest⟩ := active
  exact ⟨past, List.mem_cons_of_mem _ member, rest⟩

theorem ActiveDuring.existed (active : ActiveDuring history index key id) : Existed history key id := by
  obtain ⟨past, member, _, rest⟩ := active
  exact ⟨past, member, rest⟩

theorem InsertedBy.later (inserted : InsertedBy history call id) : InsertedBy (state :: history) call id := by
  obtain ⟨row, own, named, past, member, rest⟩ := inserted
  exact ⟨row, own, named, past, List.mem_cons_of_mem _ member, rest⟩

theorem Enqueued.later {disposition : Disposition} (enqueued : Enqueued history index call disposition) :
    Enqueued (state :: history) index call disposition := by
  obtain ⟨id, named, source⟩ := enqueued
  refine ⟨id, named, ?_⟩
  rcases source with ⟨fresh, inserted⟩ | ⟨shared, key, keyed, active⟩
  · exact .inl ⟨fresh, inserted.later⟩
  · exact .inr ⟨shared, key, keyed, active.later⟩

theorem FromReceipt.later {disposition : Disposition} (read : FromReceipt history index call disposition) :
    FromReceipt (state :: history) index call disposition := by
  obtain ⟨past, member, underway, receipt, present, durable, scope, result, linked⟩ := read
  exact ⟨past, List.mem_cons_of_mem _ member, underway, receipt, present, durable, scope, result,
    fun id points => (linked id points).later⟩

theorem Sourced.later {deduplicated : Bool} (sourced : Sourced history index call id deduplicated) :
    Sourced (state :: history) index call id deduplicated := by
  rcases sourced with inserted | ⟨shared, key, keyed, active⟩
  · exact .inl inserted
  · exact .inr ⟨shared, key, keyed, active.later⟩

theorem CallAccount.later (account : CallAccount history index call) : CallAccount (state :: history) index call where
  row := account.row
  receipt receipt own := by
    obtain ⟨durable, linked⟩ := account.receipt receipt own
    refine ⟨durable, fun id points => ?_⟩
    obtain ⟨deduplicated, sourced⟩ := linked id points
    exact ⟨deduplicated, sourced.later⟩
  unlinked := account.unlinked
  linking id deduplicated phase := (account.linking id deduplicated phase).later
  committing disposition phase named := by
    obtain ⟨id, same, sourced⟩ := account.committing disposition phase named
    exact ⟨id, same, sourced.later⟩
  returned disposition phase named := by
    rcases account.returned disposition phase named with enqueued | read
    · exact .inl enqueued.later
    · exact .inr read.later

end Past

theorem SendRequest.row_active {request : SendRequest P} {now : Instant}
    (keyed : request.idempotencyKey = some key) : activeUnder key (request.row id now) = true :=
  PartialIndex.holds_iff.mpr ⟨rfl, keyed⟩

theorem CallAccount.of_bare (receipt : call.receipt = none) (row : call.row = none)
    (linking : ∀ id deduplicated, call.phase ≠ .linkReceipt id deduplicated)
    (committing : ∀ disposition, call.phase ≠ .committing disposition)
    (returned : ∀ disposition, call.phase ≠ .returned disposition) : CallAccount history index call where
  row _ own written := by
    rw [row] at written
    contradiction
  receipt own written := by
    rw [receipt] at written
    contradiction
  unlinked _ own written := by
    rw [receipt] at written
    contradiction
  linking id deduplicated phase := absurd phase (linking id deduplicated)
  committing disposition phase := absurd phase (committing disposition)
  returned disposition phase := absurd phase (returned disposition)

theorem CallAccount.rephase {phase : SendPhase} (account : CallAccount history index call)
    (open_ : call.inFlight = true) (later : phase ≠ .insertRun)
    (linking : ∀ id deduplicated, phase = .linkReceipt id deduplicated → Sourced history index call id deduplicated)
    (committing : ∀ disposition, phase = .committing disposition → disposition.jobId ≠ "" →
      ∃ id, disposition.jobId = toString id ∧ Sourced history index call id disposition.deduplicated)
    (returned : ∀ disposition, phase = .returned disposition → disposition.jobId ≠ "" →
      Enqueued history index call disposition ∨ FromReceipt history index call disposition) :
    CallAccount history index { call with phase := phase } where
  row _ := account.row open_
  receipt := account.receipt
  unlinked same := absurd same later
  linking := linking
  committing := committing
  returned := returned

theorem CallAccount.moves (account : CallAccount (state :: history) index call)
    (sends : SendAccount (state :: history) state) (found : state.calls[index]? = some call)
    (moves : call.Moves state next) : CallAccount (state :: history) index next := by
  have now : state ∈ state :: history := List.mem_cons_self
  have open_ := moves.inFlight
  cases moves with
  | receiptFound key durable phase =>
    exact account.rephase open_ (by simp) (by simp) (by simp) (by simp)
  | receiptInserted key now durable phase free alone =>
    refine ⟨fun _ => account.row open_, ?_, ?_, by simp,
      by simp, by simp⟩
    · intro receipt written
      cases written
      exact ⟨durable, by rintro id ⟨⟩⟩
    · intro _ receipt written
      cases written
      rfl
  | deduplicated key receipt durable phase member named scope =>
    refine account.rephase open_ (by simp) (by simp) (by simp) ?_
    rintro disposition same _
    cases same
    refine .inr ⟨state, now, ⟨call, found, open_⟩, receipt, member, ?_, scope, rfl, ?_⟩
    · rw [named]
      exact durable
    · exact sends.receipts receipt member
  | collided phase =>
    exact account.rephase open_ (by simp) (by simp) (by simp) (by simp)
  | rowInserted at_ phase free =>
    have own : Sourced (state :: history) index
        { call with row := some (call.request.row state.nextId at_) } state.nextId false :=
      .inl ⟨rfl, _, rfl, rfl⟩
    refine ⟨?_, ?_, ?_, ?_, ?_, ?_⟩
    · intro _ row written
      cases written
      exact ⟨state.nextId, at_, rfl⟩
    · intro receipt written
      have unlinked := account.unlinked phase receipt written
      refine ⟨(account.receipt receipt written).1, fun id points => ?_⟩
      rw [unlinked] at points
      contradiction
    · intro same
      dsimp only at same
      split at same <;> cases same
    · intro id deduplicated same
      dsimp only at same
      split at same
      · cases same
        exact own
      · cases same
    · intro disposition same _
      dsimp only at same
      split at same
      · cases same
      · cases same
        exact ⟨state.nextId, rfl, own⟩
    · intro disposition same
      dsimp only at same
      split at same <;> cases same
  | rowFound phase taken =>
    refine account.rephase open_ ?_ ?_ ?_ ?_
    · split <;> simp
    · intro id deduplicated same
      split at same <;> cases same
    · intro disposition same named
      split at same
      · cases same
      · cases same
        exact absurd rfl named
    · intro disposition same
      split at same <;> cases same
  | existingFound key row keyed phase member active =>
    have seen : Sourced (state :: history) index call row.id true :=
      .inr ⟨rfl, key, keyed, state, now, ⟨call, found, open_⟩, row, member, rfl, active⟩
    apply account.rephase open_
    · split <;> simp
    · intro id deduplicated same
      split at same
      · cases same
        exact seen
      · cases same
    · intro disposition same _
      split at same
      · cases same
      · cases same
        exact ⟨row.id, rfl, seen⟩
    · intro disposition same
      split at same <;> cases same
  | existingMissed phase =>
    refine account.rephase open_ (by simp) (by simp) ?_ (by simp)
    rintro disposition same named
    cases same
    exact absurd rfl named
  | linked runId deduplicated phase =>
    have sourced := account.linking runId deduplicated phase
    refine ⟨fun _ => account.row open_, ?_, by rintro ⟨⟩,
      by rintro _ _ ⟨⟩, ?_, by rintro _ ⟨⟩⟩
    · intro receipt written
      obtain ⟨old, oldWritten, rfl⟩ := Option.map_eq_some_iff.mp written
      refine ⟨(account.receipt old oldWritten).1, fun id points => ?_⟩
      cases points
      exact ⟨deduplicated, sourced⟩
    · intro disposition same _
      cases same
      exact ⟨runId, rfl, sourced⟩
  | aborted =>
    exact .of_bare rfl rfl (by simp) (by simp) (by simp)

theorem CallAccount.own_row_existed {row : Run P} (account : CallAccount history index call)
    (open_ : call.inFlight = true) (own : call.row = some row)
    (durable : call.request.durableKey = some key) (member : row ∈ state.runs) :
    Existed (state :: history) key row.id := by
  obtain ⟨id, now, rfl⟩ := account.row open_ row own
  exact ⟨state, List.mem_cons_self, _, member, rfl, SendRequest.row_active
    (SendRequest.idempotencyKey_of_truthyKey (SendRequest.truthyKey_of_durableKey durable))⟩

theorem SendAccount.commit {disposition : Disposition} {answered : Bool}
    (sends : SendAccount history state) (found : state.calls[index]? = some call)
    (phase : call.phase = .committing disposition) :
    SendAccount (commitStep state index call disposition answered :: history)
      (commitStep state index call disposition answered) := by
  have account := sends.calls index call found
  have open_ := call.inFlight_of_phase phase rfl
  have written : ∀ row, call.row = some row → row ∈ (commitStep state index call disposition answered).runs := by
    intro row own
    simp [commitStep, own]
  refine ⟨?_, ?_⟩
  · intro place other present
    rcases getElem?_set_cases present with ⟨rfl, rfl⟩ | ⟨_, old⟩
    · refine ⟨fun _ => account.row open_, account.later.receipt, ?_, ?_, ?_, ?_⟩
      · intro same
        dsimp only at same
        split at same <;> cases same
      · intro id deduplicated same
        dsimp only at same
        split at same <;> cases same
      · intro result same
        dsimp only at same
        split at same <;> cases same
      · intro result same named
        dsimp only at same
        split at same
        · cases same
          obtain ⟨id, same, sourced⟩ := account.committing disposition phase named
          refine .inl ⟨id, same, ?_⟩
          rcases sourced with ⟨fresh, row, own, rfl⟩ | ⟨shared, key, keyed, active⟩
          · exact .inl ⟨fresh, row, own, rfl, _, List.mem_cons_self, written row own⟩
          · exact .inr ⟨shared, key, SendRequest.idempotencyKey_of_truthyKey keyed, active.later⟩
        · cases same
    · exact (sends.calls place other old).later
  · intro receipt member id points
    rcases List.mem_append.mp member with old | new
    · exact (sends.receipts receipt old id points).later
    · obtain ⟨durable, linked⟩ := account.receipt receipt (Option.mem_toList.mp new)
      obtain ⟨deduplicated, sourced⟩ := linked id points
      rcases sourced with ⟨_, row, own, rfl⟩ | ⟨_, key, keyed, active⟩
      · exact account.own_row_existed open_ own durable (written row own)
      · have same : some key = some receipt.idempotencyKey :=
          keyed.symm.trans (SendRequest.truthyKey_of_durableKey durable)
        cases same
        exact active.existed.later

theorem SendAccount.later {after : SendState P} (sends : SendAccount history state)
    (calls : after.calls = state.calls) (receipts : ∀ receipt ∈ after.receipts, receipt ∈ state.receipts) :
    SendAccount (after :: history) after where
  calls place other present := by
    rw [calls] at present
    exact (sends.calls place other present).later
  receipts receipt member id points :=
    (sends.receipts receipt (receipts receipt member) id points).later

theorem SendCall.start_account (request : SendRequest P) (accepting : Bool) :
    CallAccount history index (SendCall.start request accepting) := by
  rcases SendCall.start_phase request accepting with phase | phase | phase <;>
    exact .of_bare rfl rfl (by simp [phase]) (by simp [phase]) (by simp [phase])

theorem SendEffect.account {event : SendEvent P} {after : SendState P}
    (effect : SendEffect state event after) (sends : SendAccount (state :: history) state) :
    SendAccount (after :: state :: history) after := by
  cases effect with
  | began request isConnected shuttingDown _ result =>
    subst result
    refine ⟨?_, fun receipt member id points => (sends.receipts receipt member id points).later⟩
    intro place other present
    rcases getElem?_append_singleton_cases present with ⟨_, rfl⟩ | old
    · exact SendCall.start_account request _
    · exact (sends.calls place other old).later
  | moved index call next _ found moves runs receipts _ _ calls _ =>
    refine ⟨?_, ?_⟩
    · intro place other present
      rw [calls] at present
      rcases getElem?_set_cases present with ⟨rfl, rfl⟩ | ⟨_, old⟩
      · exact ((sends.calls place call found).moves sends found moves).later
      · exact (sends.calls place other old).later
    · rw [receipts]
      exact fun receipt member id points => (sends.receipts receipt member id points).later
  | committed index call disposition answered _ found phase result =>
    subst result
    exact sends.commit found phase
  | touched _ _ _ result =>
    rw [result]
    exact sends.later rfl fun _ member => member
  | swept env now _ result =>
    subst result
    exact sends.later rfl fun _ member => (mem_deleteWhere.mp member).1

theorem sending_account {allowed : Discipline (SendState P) (SendEvent P)}
    (run : sending.History allowed (state :: history)) : SendAccount (state :: history) state := by
  have whole := run.invariant (fun states => ∀ now past, states = now :: past → SendAccount states now) ?_ ?_
  · exact whole state history rfl
  · intro state begins now past same
    subst begins
    cases same
    exact ⟨fun index call found => by simp [SendState.initial] at found,
      fun receipt member => absurd member List.not_mem_nil⟩
  · intro before earlier event after _ sends _ stepped now past same
    cases same
    exact (sendStep_effect stepped).account (sends before earlier rfl)

def keyedRequest (durable : Bool) : SendRequest Unit where
  queueName := "messages"
  data := ()
  options := { singletonKey := some "key", durableSingleton := durable }

def sentPlainly (call : Nat) : List (SendEvent Unit) :=
  [.begin (keyedRequest false) true false, .insertRun call 0, .commit call true]

def hasReturned (index : Nat) (disposition : Disposition) : List (SendState Unit) → Bool
  | [] => false
  | state :: _ => state.calls[index]?.any fun call => call.phase == .returned disposition

theorem hasReturned_iff {states : List (SendState Unit)} {disposition : Disposition} :
    hasReturned index disposition states = true ↔ ∃ state past call, states = state :: past ∧
      state.calls[index]? = some call ∧ call.phase = .returned disposition := by
  cases states with
  | nil => simp [hasReturned]
  | cons state past => simp [hasReturned, Option.any_eq_true, and_assoc]

def claimedAndCompleted : List (SendEvent Unit) :=
  [.statement (.claimOne "gateway-a" "messages" 0 []), .statement (.markCompleted "gateway-a" 1 1)]

/-- The first run ends before the second durable send with its key begins. -/
def sentDurablyTwice : List (SendEvent Unit) :=
  [.begin (keyedRequest true) true false, .insertReceipt 0 0, .insertRun 0 0, .linkReceipt 0,
    .commit 0 true] ++ claimedAndCompleted ++
  [.begin (keyedRequest true) true false, .insertReceipt 1 2, .selectReceipt 1]

/-- The run that the second send conflicts with ends before it is looked up. -/
def conflictEnded : List (SendEvent Unit) :=
  sentPlainly 0 ++ [.begin (keyedRequest false) true false, .insertRun 1 0] ++
    claimedAndCompleted ++ [.selectExisting 1, .commit 1 true]

def neverActiveDuring (index : Nat) (states : List (SendState Unit)) : Bool :=
  states.all fun state => !(state.calls[index]?.any SendCall.inFlight) ||
    state.runs.all fun row => !row.status.active

end Lobu.Queue
