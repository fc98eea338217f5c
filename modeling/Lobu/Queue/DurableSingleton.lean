import Lobu.Queue.Send

namespace Lobu.Queue

open Lobu.Foundation

/-! # Durable singletons

When a key is only ever sent through `sendDurable`, its receipt and its row are
inserted in one transaction and the clean-up keeps the receipt while the row is
active.  So a row active under the key always has its receipt, a transaction that
gets past the receipt finds no row to conflict with, and the lookup of an
existing row is never reached.
-/

variable {P : Type} {before after state : SendState P} {event : SendEvent P}
variable {key : String} {index : Nat} {call next : SendCall P} {row : Run P}

/-- Every send with the key goes through `sendDurable`. -/
def DurableOnly (key : String) : Discipline (SendState P) (SendEvent P) := fun _ event =>
  match event with
  | .begin request _ _ =>
    request.idempotencyKey = some key → request.options.durableSingleton = true
  | _ => True

instance (state : SendState P) (event : SendEvent P) : Decidable (DurableOnly key state event) := by
  unfold DurableOnly
  split <;> infer_instance

structure SendIds (state : SendState P) : Prop where
  nodup : (state.runs.map Run.id).Nodup
  below : ∀ row ∈ state.runs, row.id < state.nextId
  own : ∀ (index : Nat) (call : SendCall P) (row : Run P), state.calls[index]? = some call →
    call.inFlight = true → call.row = some row →
      row.id < state.nextId ∧ ∀ other ∈ state.runs, other.id ≠ row.id
  apart : ∀ (first second : Nat) (call other : SendCall P) (row also : Run P),
    state.calls[first]? = some call → state.calls[second]? = some other →
      call.inFlight = true → other.inFlight = true → call.row = some row →
        other.row = some also → row.id = also.id → first = second

theorem SendIds.move (ids : SendIds before) (found : before.calls[index]? = some call)
    (moves : call.Moves before next) (runs : after.runs = before.runs) (nextId : before.nextId ≤ after.nextId)
    (fresh : ∀ row, next.row = some row → call.row = some row ∨ row.id = before.nextId ∧ before.nextId < after.nextId)
    (calls : after.calls = before.calls.set index next) : SendIds after where
  nodup := by
    rw [runs]
    exact ids.nodup
  below row member := by
    rw [runs] at member
    have bound := ids.below row member
    omega
  own place other row present open_ written := by
    rw [calls] at present
    rw [runs]
    rcases getElem?_set_cases present with ⟨rfl, rfl⟩ | ⟨_, old⟩
    · rcases fresh row written with same | ⟨new, room⟩
      · obtain ⟨bound, apart⟩ := ids.own place call row found moves.inFlight same
        exact ⟨by omega, apart⟩
      · refine ⟨by omega, fun other member => ?_⟩
        have bound := ids.below other member
        omega
    · obtain ⟨bound, apart⟩ := ids.own place other row old open_ written
      exact ⟨by omega, apart⟩
  apart first second one other row also present otherPresent open_ otherOpen written otherWritten
      same := by
    rw [calls] at present otherPresent
    rcases getElem?_set_cases present with ⟨rfl, rfl⟩ | ⟨different, old⟩ <;>
      rcases getElem?_set_cases otherPresent with ⟨rfl, rfl⟩ | ⟨otherDifferent, otherOld⟩
    · rfl
    · rcases fresh row written with kept | ⟨new, _⟩
      · exact ids.apart first second call other row also found otherOld moves.inFlight otherOpen
          kept otherWritten same
      · have bound := (ids.own second other also otherOld otherOpen otherWritten).1
        omega
    · rcases fresh also otherWritten with kept | ⟨new, _⟩
      · exact ids.apart first second one call row also old found open_ moves.inFlight written kept same
      · have bound := (ids.own first one row old open_ written).1
        omega
    · exact ids.apart first second one other row also old otherOld open_ otherOpen written otherWritten same

theorem SendIds.commit {disposition : Disposition} {answered : Bool} (ids : SendIds before)
    (found : before.calls[index]? = some call) (open_ : call.inFlight = true) :
    SendIds (commitStep before index call disposition answered) := by
  have closed : ({ call with
      phase := if answered then .returned disposition else .threw } : SendCall P).inFlight =
      false := by
    cases answered <;> rfl
  refine ⟨?_, ?_, ?_, ?_⟩
  · cases own : call.row with
    | none => simpa [commitStep, own] using ids.nodup
    | some row =>
      obtain ⟨_, apart⟩ := ids.own index call row found open_ own
      simp only [commitStep, own, Option.toList_some, List.map_append, List.nodup_append]
      refine ⟨ids.nodup, by simp, ?_⟩
      intro id old fresh new same
      obtain ⟨other, member, rfl⟩ := List.mem_map.mp old
      simp only [List.map_cons, List.map_nil, List.mem_singleton] at new
      exact apart other member (same.trans new)
  · intro row member
    rcases List.mem_append.mp member with old | new
    · exact ids.below row old
    · exact (ids.own index call row found open_ (Option.mem_toList.mp new)).1
  · intro place other row present running written
    rcases getElem?_set_cases present with ⟨rfl, rfl⟩ | ⟨different, old⟩
    · rw [closed] at running
      contradiction
    · obtain ⟨bound, apart⟩ := ids.own place other row old running written
      refine ⟨bound, fun also member => ?_⟩
      rcases List.mem_append.mp member with before | new
      · exact apart also before
      · intro same
        exact different (ids.apart place index other call row also old found running open_ written
          (Option.mem_toList.mp new) same.symm)
  · intro first second one other row also present otherPresent running otherRunning written otherWritten same
    rcases getElem?_set_cases present with ⟨rfl, rfl⟩ | ⟨different, old⟩
    · rw [closed] at running
      contradiction
    · rcases getElem?_set_cases otherPresent with ⟨rfl, rfl⟩ | ⟨otherDifferent, otherOld⟩
      · rw [closed] at otherRunning
        contradiction
      · exact ids.apart first second one other row also old otherOld running otherRunning written otherWritten same

theorem SendEffect.ids (effect : SendEffect before event after) (ids : SendIds before) : SendIds after := by
  cases effect with
  | began request isConnected shuttingDown _ result =>
    subst result
    refine ⟨ids.nodup, ids.below, ?_, ?_⟩
    · intro place other row present open_ written
      rcases getElem?_append_singleton_cases present with ⟨_, rfl⟩ | old
      · cases written
      · exact ids.own place other row old open_ written
    · intro first second one other row also present otherPresent open_ otherOpen written otherWritten same
      rcases getElem?_append_singleton_cases present with ⟨_, rfl⟩ | old
      · cases written
      · rcases getElem?_append_singleton_cases otherPresent with ⟨_, rfl⟩ | otherOld
        · cases otherWritten
        · exact ids.apart first second one other row also old otherOld open_ otherOpen written otherWritten same
  | moved index call next _ found moves runs _ nextId fresh calls _ =>
    exact ids.move found moves runs nextId fresh calls
  | committed index call disposition answered _ found phase result =>
    subst result
    exact ids.commit found (call.inFlight_of_phase phase rfl)
  | touched _ _ sublist result =>
    have known : ∀ row ∈ after.runs, ∃ old ∈ before.runs, old.id = row.id := by
      intro row member
      exact List.mem_map.mp (sublist.subset (List.mem_map_of_mem member))
    have nextId : after.nextId = before.nextId := by rw [result]
    have calls : after.calls = before.calls := by rw [result]
    refine ⟨ids.nodup.sublist sublist, ?_, ?_, ?_⟩
    · intro row member
      obtain ⟨old, oldMember, same⟩ := known row member
      have bound := ids.below old oldMember
      omega
    · rw [calls, nextId]
      intro place other row present open_ written
      obtain ⟨bound, apart⟩ := ids.own place other row present open_ written
      refine ⟨bound, fun also member same => ?_⟩
      obtain ⟨old, oldMember, named⟩ := known also member
      exact apart old oldMember (named.trans same)
    · rw [calls]
      exact ids.apart
  | swept env now _ result =>
    subst result
    exact ⟨ids.nodup, ids.below, ids.own, ids.apart⟩

theorem sending_ids {allowed : Discipline (SendState P) (SendEvent P)}
    (reached : sending.Reachable allowed state) : SendIds state := by
  apply reached.invariant
  · intro state begins
    subst begins
    exact ⟨List.nodup_nil, fun row member => absurd member List.not_mem_nil,
      fun index call row found => by simp [SendState.initial] at found,
      fun first second call other row also found => by simp [SendState.initial] at found⟩
  · intro before event after _ ids _ stepped
    exact (sendStep_effect stepped).ids ids

/-- The call has inserted the receipt of its key and scope. -/
def HoldsOwnReceipt (key : String) (call : SendCall P) (runId : Option Nat) : Prop :=
  ∃ receipt, call.receipt = some receipt ∧ receipt.idempotencyKey = key ∧
    receipt.inScope call.request = true ∧ receipt.runId = runId

/-- Where a durable call stands when its key has no plain senders. -/
def DurableCall (key : String) (call : SendCall P) : Prop :=
  match call.phase with
  | .insertReceipt | .selectReceipt => call.row = none
  | .insertRun => call.row = none ∧ HoldsOwnReceipt key call none
  | .selectExisting => False
  | .linkReceipt id deduplicated =>
    deduplicated = false ∧ ∃ row, call.row = some row ∧ row.id = id ∧
      HoldsOwnReceipt key call none
  | .committing disposition =>
    ∃ row, call.row = some row ∧
      disposition = { jobId := toString row.id, deduplicated := false } ∧
      HoldsOwnReceipt key call (some row.id)
  | .returned _ | .threw => True

/-- What an open transaction has written is under the keys of its request. -/
def WritesOwnKeys (call : SendCall P) : Prop :=
  (∀ receipt, call.receipt = some receipt →
    call.request.durableKey = some receipt.idempotencyKey) ∧
    ∀ row, call.row = some row →
      row.idempotencyKey = call.request.idempotencyKey ∧ row.status = .pending

structure Singleton (key : String) (state : SendState P) : Prop where
  /-- A row active under the key has its receipt. -/
  held : ∀ row ∈ state.runs, activeUnder key row = true →
    ∃ receipt ∈ state.receipts, receipt.idempotencyKey = key ∧ receipt.runId = some row.id
  recorded : ∀ receipt ∈ state.receipts, receipt.idempotencyKey = key →
    ∃ id, receipt.runId = some id ∧ state.durableRuns key = [id]
  unrecorded : (∀ receipt ∈ state.receipts, receipt.idempotencyKey ≠ key) →
    state.durableRuns key = []
  one : ∀ receipt ∈ state.receipts, ∀ other ∈ state.receipts, receipt.idempotencyKey = key →
    other.idempotencyKey = key → receipt = other
  /-- While a transaction holds the receipt there is no other. -/
  holder : ∀ (index : Nat) (call : SendCall P), state.calls[index]? = some call →
    call.holdsReceipt key = true → (∀ receipt ∈ state.receipts, receipt.idempotencyKey ≠ key) ∧
      ∀ (place : Nat) (other : SendCall P), state.calls[place]? = some other →
        other.holdsReceipt key = true → place = index
  durable : ∀ (index : Nat) (call : SendCall P), state.calls[index]? = some call →
    call.request.idempotencyKey = some key → call.request.durableKey = some key
  calls : ∀ (index : Nat) (call : SendCall P), state.calls[index]? = some call →
    call.request.durableKey = some key → DurableCall key call
  written : ∀ (index : Nat) (call : SendCall P), state.calls[index]? = some call →
    call.inFlight = true → WritesOwnKeys call

theorem SendRequest.receipt_inScope (request : SendRequest P) (key : String) (now : Instant) :
    (request.receipt key now).inScope request = true := by
  simp [Receipt.inScope, SendRequest.receipt]

theorem DurableCall.of_closed (closed : call.inFlight = false) : DurableCall key call := by
  rw [DurableCall]
  cases phase : call.phase with
  | returned | threw => trivial
  | insertReceipt | selectReceipt | insertRun | selectExisting | linkReceipt | committing =>
    simp [SendCall.inFlight, phase] at closed

theorem HoldsOwnReceipt.holdsReceipt {runId : Option Nat} (own : HoldsOwnReceipt key call runId)
    (open_ : call.inFlight = true) : call.holdsReceipt key = true := by
  obtain ⟨receipt, holds, named, _⟩ := own
  simp [SendCall.holdsReceipt, open_, holds, named]

theorem Singleton.no_conflict {runId : Option Nat} (singleton : Singleton key state)
    (found : state.calls[index]? = some call) (durable : call.request.durableKey = some key)
    (own : HoldsOwnReceipt key call runId) (open_ : call.inFlight = true) :
    runsIdempotencyKeyUniq.conflicts call.request.idempotencyKey state.runs = false := by
  rw [← Bool.not_eq_true]
  intro taken
  obtain ⟨other, keyed, row, member, active⟩ := PartialIndex.conflicts_iff.mp taken
  rw [SendRequest.idempotencyKey_of_durableKey durable] at keyed
  cases keyed
  obtain ⟨receipt, receiptMember, named, _⟩ := singleton.held row member active
  exact (singleton.holder index call found (own.holdsReceipt open_)).1 receipt receiptMember named

theorem DurableCall.moves (stands : DurableCall key call) (singleton : Singleton key state)
    (found : state.calls[index]? = some call) (durable : call.request.durableKey = some key)
    (moves : call.Moves state next) : DurableCall key next := by
  have open_ := moves.inFlight
  simp only [DurableCall] at stands
  cases moves with
  | receiptFound other named phase =>
    rw [phase] at stands
    exact stands
  | receiptInserted other now named phase free alone =>
    rw [phase] at stands
    rw [durable] at named
    cases named
    exact ⟨stands, _, rfl, rfl, SendRequest.receipt_inScope _ _ _, rfl⟩
  | deduplicated => trivial
  | collided => trivial
  | rowInserted now phase free =>
    rw [phase] at stands
    simp only [DurableCall, durable, Option.isSome_some, if_true]
    exact ⟨trivial, _, rfl, rfl, stands.2⟩
  | rowFound phase taken =>
    rw [phase] at stands
    rw [singleton.no_conflict found durable stands.2 open_] at taken
    contradiction
  | existingFound _ _ _ phase | existingMissed phase =>
    rw [phase] at stands
    exact stands.elim
  | linked runId deduplicated phase =>
    rw [phase] at stands
    obtain ⟨rfl, row, own, rfl, receipt, holds, named, scope, _⟩ := stands
    exact ⟨row, own, rfl, { receipt with runId := some row.id }, by simp [linkReceiptStep, holds], named, scope, rfl⟩
  | aborted => trivial

theorem SendCall.Moves.request (moves : call.Moves state next) : next.request = call.request := by
  cases moves <;> rfl

theorem SendCall.Moves.holdsReceipt (moves : call.Moves state next)
    (holds : next.holdsReceipt key = true) : call.holdsReceipt key = true ∨
      (∀ receipt ∈ state.receipts, receipt.idempotencyKey ≠ key) ∧
        ∀ other ∈ state.calls, other.holdsReceipt key = false := by
  have open_ := moves.inFlight
  simp only [SendCall.holdsReceipt, Bool.and_eq_true] at holds ⊢
  obtain ⟨running, names⟩ := holds
  cases moves with
  | receiptInserted other now durable phase free alone =>
    have same : other = key := by simpa [SendRequest.receipt] using names
    subst same
    exact .inr ⟨free, fun call member => by simpa [SendCall.holdsReceipt] using alone call member⟩
  | receiptFound | rowInserted | rowFound | existingFound | existingMissed =>
    exact .inl ⟨open_, names⟩
  | linked =>
    refine .inl ⟨open_, ?_⟩
    simpa [linkReceiptStep, Option.any_map] using names
  | deduplicated | collided | aborted => contradiction

theorem WritesOwnKeys.moves (writes : WritesOwnKeys call) (moves : call.Moves state next) : WritesOwnKeys next := by
  cases moves with
  | receiptInserted other now durable phase free alone =>
    refine ⟨fun receipt holds => ?_, writes.2⟩
    cases holds
    exact durable
  | rowInserted now phase free =>
    refine ⟨writes.1, fun row own => ?_⟩
    cases own
    exact ⟨rfl, rfl⟩
  | linked runId deduplicated phase =>
    refine ⟨fun receipt holds => ?_, writes.2⟩
    obtain ⟨old, held, rfl⟩ := Option.map_eq_some_iff.mp holds
    exact writes.1 old held
  | receiptFound | deduplicated | collided | rowFound | existingFound | existingMissed =>
    exact writes
  | aborted => exact ⟨fun _ holds => (by cases holds), fun _ own => (by cases own)⟩

theorem Singleton.move (singleton : Singleton key before)
    (found : before.calls[index]? = some call) (moves : call.Moves before next)
    (runs : after.runs = before.runs) (receipts : after.receipts = before.receipts)
    (calls : after.calls = before.calls.set index next)
    (durableRuns : after.durableRuns = before.durableRuns) : Singleton key after where
  held := by
    rw [runs, receipts]
    exact singleton.held
  recorded := by
    rw [receipts, durableRuns]
    exact singleton.recorded
  unrecorded := by
    rw [receipts, durableRuns]
    exact singleton.unrecorded
  one := by
    rw [receipts]
    exact singleton.one
  holder place other present holds := by
    rw [calls] at present
    rw [receipts, calls]
    rcases getElem?_set_cases present with ⟨rfl, rfl⟩ | ⟨different, old⟩
    · rcases moves.holdsReceipt holds with held | ⟨free, alone⟩
      · obtain ⟨none_, only⟩ := singleton.holder place call found held
        refine ⟨none_, fun second also alsoPresent alsoHolds => ?_⟩
        rcases getElem?_set_cases alsoPresent with ⟨same, _⟩ | ⟨_, alsoOld⟩
        · exact same
        · exact only second also alsoOld alsoHolds
      · refine ⟨free, fun second also alsoPresent alsoHolds => ?_⟩
        rcases getElem?_set_cases alsoPresent with ⟨same, _⟩ | ⟨_, alsoOld⟩
        · exact same
        · rw [alone also (List.mem_of_getElem? alsoOld)] at alsoHolds
          contradiction
    · obtain ⟨none_, only⟩ := singleton.holder place other old holds
      refine ⟨none_, fun second also alsoPresent alsoHolds => ?_⟩
      rcases getElem?_set_cases alsoPresent with ⟨rfl, rfl⟩ | ⟨_, alsoOld⟩
      · rcases moves.holdsReceipt alsoHolds with held | ⟨_, alone⟩
        · exact only second call found held
        · rw [alone other (List.mem_of_getElem? old)] at holds
          contradiction
      · exact only second also alsoOld alsoHolds
  durable place other present keyed := by
    rw [calls] at present
    rcases getElem?_set_cases present with ⟨rfl, rfl⟩ | ⟨_, old⟩
    · rw [moves.request] at keyed ⊢
      exact singleton.durable place call found keyed
    · exact singleton.durable place other old keyed
  calls place other present durable := by
    rw [calls] at present
    rcases getElem?_set_cases present with ⟨rfl, rfl⟩ | ⟨_, old⟩
    · rw [moves.request] at durable
      exact (singleton.calls place call found durable).moves singleton found durable moves
    · exact singleton.calls place other old durable
  written place other present open_ := by
    rw [calls] at present
    rcases getElem?_set_cases present with ⟨rfl, rfl⟩ | ⟨_, old⟩
    · exact (singleton.written place call found moves.inFlight).moves moves
    · exact singleton.written place other old open_

section Commit

variable {disposition : Disposition} {answered : Bool}

theorem commit_closed {place : Nat} {other : SendCall P}
    (present : (commitStep before index call disposition answered).calls[place]? = some other) :
    (place = index ∧ other.inFlight = false ∧ other.request = call.request) ∨
      (place ≠ index ∧ before.calls[place]? = some other) := by
  rcases getElem?_set_cases present with ⟨rfl, rfl⟩ | old
  · refine .inl ⟨rfl, ?_, rfl⟩
    cases answered <;> rfl
  · exact .inr old

theorem Singleton.commit_calls (singleton : Singleton key before)
    (found : before.calls[index]? = some call) {place : Nat} {other : SendCall P}
    (present : (commitStep before index call disposition answered).calls[place]? = some other) :
    (other.request.idempotencyKey = some key → other.request.durableKey = some key) ∧
      (other.request.durableKey = some key → DurableCall key other) ∧
      (other.inFlight = true → WritesOwnKeys other) := by
  rcases commit_closed present with ⟨_, closed, request⟩ | ⟨_, old⟩
  · refine ⟨?_, ?_, ?_⟩
    · rw [request]
      exact singleton.durable index call found
    · exact fun _ => .of_closed closed
    · rw [closed]
      intro open_
      contradiction
  · exact ⟨singleton.durable place other old, singleton.calls place other old, singleton.written place other old⟩

theorem Singleton.commit_own (singleton : Singleton key before)
    (found : before.calls[index]? = some call) (phase : call.phase = .committing disposition)
    (durable : call.request.durableKey = some key) :
    Singleton key (commitStep before index call disposition answered) ∧
      ∃ id, (commitStep before index call disposition answered).durableRuns key = [id] ∧
        disposition.jobId = toString id ∧ ∃ receipt ∈ (commitStep before index call disposition answered).receipts,
          receipt.idempotencyKey = key ∧ receipt.inScope call.request = true ∧ receipt.runId = some id := by
  have open_ := call.inFlight_of_phase phase rfl
  have stands := singleton.calls index call found durable
  simp only [DurableCall] at stands
  rw [phase] at stands
  obtain ⟨row, own, rfl, holding⟩ := stands
  obtain ⟨free, only⟩ := singleton.holder index call found (holding.holdsReceipt open_)
  obtain ⟨receipt, holds, named, scope, points⟩ := holding
  have receipts : (commitStep before index call
      { jobId := toString row.id, deduplicated := false } answered).receipts =
      before.receipts ++ [receipt] := by
    simp [commitStep, holds]
  have runs : (commitStep before index call
      { jobId := toString row.id, deduplicated := false } answered).runs = before.runs ++ [row] := by
    simp [commitStep, own]
  have counted : (commitStep before index call
      { jobId := toString row.id, deduplicated := false } answered).durableRuns key = [row.id] := by
    simp [commitStep, durable, own, singleton.unrecorded free]
  have last : ∀ other ∈ before.receipts ++ [receipt], other.idempotencyKey = key → other = receipt := by
    intro other member same
    rcases List.mem_append.mp member with old | new
    · exact absurd same (free other old)
    · exact List.mem_singleton.mp new
  have present : receipt ∈ before.receipts ++ [receipt] := by simp
  refine ⟨⟨?_, ?_, ?_, ?_, ?_, ?_, ?_, ?_⟩, row.id, counted, rfl, receipt, ?_, named, scope, points⟩
  · rw [runs, receipts]
    intro other member active
    rcases List.mem_append.mp member with old | new
    · obtain ⟨earlier, earlierMember, earlierNamed, _⟩ := singleton.held other old active
      exact absurd earlierNamed (free earlier earlierMember)
    · rw [List.mem_singleton.mp new]
      exact ⟨receipt, present, named, points⟩
  · rw [receipts, counted]
    intro other member same
    rw [last other member same]
    exact ⟨row.id, points, rfl⟩
  · rw [receipts]
    intro none_
    exact absurd named (none_ receipt present)
  · rw [receipts]
    intro first firstMember second secondMember firstNamed secondNamed
    rw [last first firstMember firstNamed, last second secondMember secondNamed]
  · intro place other found_ holdsIt
    rcases commit_closed found_ with ⟨_, closed, _⟩ | ⟨different, old⟩
    · simp [SendCall.holdsReceipt, closed] at holdsIt
    · exact absurd (only place other old holdsIt) different
  · exact fun place other found_ => (singleton.commit_calls found found_).1
  · exact fun place other found_ => (singleton.commit_calls found found_).2.1
  · exact fun place other found_ => (singleton.commit_calls found found_).2.2
  · rw [receipts]
    exact present

theorem Singleton.commit_other (singleton : Singleton key before)
    (found : before.calls[index]? = some call) (phase : call.phase = .committing disposition)
    (other : call.request.durableKey ≠ some key) :
    Singleton key (commitStep before index call disposition answered) := by
  have open_ := call.inFlight_of_phase phase rfl
  obtain ⟨receiptKey, rowKey⟩ := singleton.written index call found open_
  have receipts : ∀ receipt ∈ (commitStep before index call disposition answered).receipts,
      receipt.idempotencyKey = key → receipt ∈ before.receipts := by
    intro receipt member same
    rcases List.mem_append.mp member with old | new
    · exact old
    · have durable := receiptKey receipt (Option.mem_toList.mp new)
      rw [same] at durable
      exact absurd durable other
  have kept : ∀ receipt ∈ before.receipts, receipt ∈ (commitStep before index call disposition answered).receipts :=
    fun receipt member => List.mem_append_left _ member
  have counted : (commitStep before index call disposition answered).durableRuns key = before.durableRuns key := by
    simp [commitStep, other]
  refine ⟨?_, ?_, ?_, ?_, ?_, ?_, ?_, ?_⟩
  · intro row member active
    rcases List.mem_append.mp member with old | new
    · obtain ⟨receipt, receiptMember, rest⟩ := singleton.held row old active
      exact ⟨receipt, kept receipt receiptMember, rest⟩
    · have keyed := (PartialIndex.holds_iff.mp active).2
      change row.idempotencyKey = some key at keyed
      rw [(rowKey row (Option.mem_toList.mp new)).1] at keyed
      exact absurd (singleton.durable index call found keyed) other
  · rw [counted]
    exact fun receipt member named =>
      singleton.recorded receipt (receipts receipt member named) named
  · rw [counted]
    exact fun free => singleton.unrecorded fun receipt member => free receipt (kept receipt member)
  · exact fun first firstMember second secondMember firstNamed secondNamed =>
      singleton.one first (receipts first firstMember firstNamed) second
        (receipts second secondMember secondNamed) firstNamed secondNamed
  · intro place caller found_ holdsIt
    rcases commit_closed found_ with ⟨_, closed, _⟩ | ⟨_, old⟩
    · simp [SendCall.holdsReceipt, closed] at holdsIt
    · obtain ⟨free, only⟩ := singleton.holder place caller old holdsIt
      refine ⟨fun receipt member named => free receipt (receipts receipt member named) named, ?_⟩
      intro second also alsoFound alsoHolds
      rcases commit_closed alsoFound with ⟨_, closed, _⟩ | ⟨_, alsoOld⟩
      · simp [SendCall.holdsReceipt, closed] at alsoHolds
      · exact only second also alsoOld alsoHolds
  · exact fun place caller found_ => (singleton.commit_calls found found_).1
  · exact fun place caller found_ => (singleton.commit_calls found found_).2.1
  · exact fun place caller found_ => (singleton.commit_calls found found_).2.2

end Commit

theorem Singleton.begin {request : SendRequest P} {accepting : Bool} (singleton : Singleton key before)
    (only : request.idempotencyKey = some key → request.options.durableSingleton = true) (positive : key ≠ "") :
    Singleton key { before with calls := before.calls ++ [SendCall.start request accepting] } where
  held := singleton.held
  recorded := singleton.recorded
  unrecorded := singleton.unrecorded
  one := singleton.one
  holder place other present holds := by
    rcases getElem?_append_singleton_cases present with ⟨_, rfl⟩ | old
    · simp [SendCall.holdsReceipt, SendCall.start] at holds
    · obtain ⟨free, alone⟩ := singleton.holder place other old holds
      refine ⟨free, fun second also alsoPresent alsoHolds => ?_⟩
      rcases getElem?_append_singleton_cases alsoPresent with ⟨_, rfl⟩ | alsoOld
      · simp [SendCall.holdsReceipt, SendCall.start] at alsoHolds
      · exact alone second also alsoOld alsoHolds
  durable place other present keyed := by
    rcases getElem?_append_singleton_cases present with ⟨_, rfl⟩ | old
    · change request.idempotencyKey = some key at keyed
      change request.durableKey = some key
      simp [SendRequest.durableKey, only keyed, SendRequest.truthyKey, keyed, positive]
    · exact singleton.durable place other old keyed
  calls place other present durable := by
    rcases getElem?_append_singleton_cases present with ⟨_, rfl⟩ | old
    · change request.durableKey = some key at durable
      cases accepting with
      | true => simp [DurableCall, SendCall.start, durable]
      | false => exact .of_closed rfl
    · exact singleton.calls place other old durable
  written place other present open_ := by
    rcases getElem?_append_singleton_cases present with ⟨_, rfl⟩ | old
    · exact ⟨fun _ holds => (by cases holds), fun _ own => (by cases own)⟩
    · exact singleton.written place other old open_

theorem Singleton.touch (singleton : Singleton key before) {runs : List (Run P)}
    (persists : ∀ row ∈ runs, ∃ old ∈ before.runs, Persists old row) :
    Singleton key { before with runs := runs } where
  held row member active := by
    obtain ⟨old, oldMember, persists⟩ := persists row member
    obtain ⟨receipt, receiptMember, named, points⟩ :=
      singleton.held old oldMember (persists.active active)
    exact ⟨receipt, receiptMember, named, by rw [points, persists.id]⟩
  recorded := singleton.recorded
  unrecorded := singleton.unrecorded
  one := singleton.one
  holder := singleton.holder
  durable := singleton.durable
  calls := singleton.calls
  written := singleton.written

theorem mem_sweptReceipts {env : RetentionEnv} {now : Instant} {receipt : Receipt}
    (member : receipt ∈ state.sweptReceipts env now) : receipt ∈ state.receipts ∧
      ∀ row ∈ state.runs, receipt.runId = some row.id → row.status.active = false := by
  have candidate := List.mem_of_mem_take member
  rw [List.mem_insertionSort, List.mem_filter] at candidate
  obtain ⟨present, suitable⟩ := candidate
  refine ⟨present, fun row rowMember points => ?_⟩
  have ended := List.all_eq_true.mp (Bool.and_eq_true_iff.mp suitable).2 row rowMember
  simpa [points] using ended

theorem Singleton.sweep {env : RetentionEnv} {now : Instant} (singleton : Singleton key before) :
    Singleton key (sweepReceiptsStep before env now) := by
  have kept : ∀ receipt ∈ (sweepReceiptsStep before env now).receipts,
      receipt ∈ before.receipts := fun receipt member => (mem_deleteWhere.mp member).1
  have holder : ∀ (place : Nat) (other : SendCall P), (sweepReceiptsStep before env now).calls[place]? = some other →
        other.holdsReceipt key = true →
          (∀ receipt ∈ (sweepReceiptsStep before env now).receipts,
            receipt.idempotencyKey ≠ key) ∧
          ∀ (second : Nat) (also : SendCall P),
            (sweepReceiptsStep before env now).calls[second]? = some also →
              also.holdsReceipt key = true → second = place := by
    intro place other present holds
    obtain ⟨free, alone⟩ := singleton.holder place other present holds
    exact ⟨fun receipt member => free receipt (kept receipt member), alone⟩
  have one : ∀ receipt ∈ (sweepReceiptsStep before env now).receipts,
      ∀ other ∈ (sweepReceiptsStep before env now).receipts, receipt.idempotencyKey = key →
        other.idempotencyKey = key → receipt = other := fun first firstMember second secondMember =>
    singleton.one first (kept first firstMember) second (kept second secondMember)
  by_cases swept : key ∈ (before.sweptReceipts env now).map Receipt.idempotencyKey
  · have gone : ∀ receipt ∈ (sweepReceiptsStep before env now).receipts, receipt.idempotencyKey ≠ key := by
      intro receipt member same
      have left := (mem_deleteWhere.mp member).2
      rw [same] at left
      simp [swept] at left
    have counted : (sweepReceiptsStep before env now).durableRuns key = [] := if_pos swept
    obtain ⟨receipt, receiptMember, named⟩ := List.mem_map.mp swept
    obtain ⟨present, ended⟩ := mem_sweptReceipts receiptMember
    refine ⟨?_, ?_, fun _ => counted, one, holder, singleton.durable, singleton.calls, singleton.written⟩
    · intro row member active
      obtain ⟨other, otherMember, otherNamed, points⟩ := singleton.held row member active
      have same := singleton.one receipt present other otherMember named otherNamed
      have final := ended row member (same ▸ points)
      have running := (PartialIndex.holds_iff.mp active).1
      change row.status.active = true at running
      rw [final] at running
      contradiction
    · exact fun other member same => absurd same (gone other member)
  · have survives : ∀ receipt ∈ before.receipts, receipt.idempotencyKey = key →
        receipt ∈ (sweepReceiptsStep before env now).receipts := by
      intro receipt member same
      refine mem_deleteWhere.mpr ⟨member, ?_⟩
      rw [same]
      simpa using swept
    have counted : (sweepReceiptsStep before env now).durableRuns key = before.durableRuns key :=
      if_neg swept
    refine ⟨?_, ?_, ?_, one, holder, singleton.durable, singleton.calls, singleton.written⟩
    · intro row member active
      obtain ⟨receipt, receiptMember, named, points⟩ := singleton.held row member active
      exact ⟨receipt, survives receipt receiptMember named, named, points⟩
    · rw [counted]
      exact fun receipt member => singleton.recorded receipt (kept receipt member)
    · rw [counted]
      exact fun free => singleton.unrecorded fun receipt member same =>
        free receipt (survives receipt member same) same

theorem SendEffect.singleton (effect : SendEffect before event after) (ids : SendIds before)
    (positive : key ≠ "") (permitted : DurableOnly key before event)
    (singleton : Singleton key before) : Singleton key after := by
  cases effect with
  | began request isConnected shuttingDown asked result =>
    subst asked result
    exact singleton.begin permitted positive
  | moved index call next _ found moves runs receipts _ _ calls durableRuns =>
    exact singleton.move found moves runs receipts calls durableRuns
  | committed index call disposition answered _ found phase result =>
    subst result
    by_cases durable : call.request.durableKey = some key
    · exact (singleton.commit_own found phase durable).1
    · exact singleton.commit_other found phase durable
  | touched _ persists _ result =>
    rw [result]
    exact singleton.touch (persists ids.nodup)
  | swept env now _ result =>
    subst result
    exact singleton.sweep

theorem sending_singleton (positive : key ≠ "")
    (reached : sending.Reachable (DurableOnly key) state) : Singleton key state := by
  apply reached.invariant
  · intro state begins
    subst begins
    refine ⟨fun row member => absurd member List.not_mem_nil,
      fun receipt member => absurd member List.not_mem_nil, fun _ => rfl,
      fun receipt member => absurd member List.not_mem_nil, ?_, ?_, ?_, ?_⟩ <;>
    · intro index call found
      simp [SendState.initial] at found
  · intro before event after reached singleton permitted stepped
    exact (sendStep_effect stepped).singleton (sending_ids reached) positive permitted singleton

/-- What a step may do to a durable key. -/
structure DurableStep (key : String) (before : SendState P) (event : SendEvent P)
    (after : SendState P) : Prop where
  /-- The receipt names the one row inserted through `sendDurable` in its lifetime. -/
  one : ∀ receipt ∈ after.receipts, receipt.idempotencyKey = key →
    ∃ id, receipt.runId = some id ∧ after.durableRuns key = [id]
  /-- A call that returns now returns that row, from a receipt of its own scope. -/
  returns : ∀ (index : Nat) (earlier call : SendCall P) (disposition : Disposition),
    before.calls[index]? = some earlier → earlier.inFlight = true →
      after.calls[index]? = some call → call.request.durableKey = some key →
        call.phase = .returned disposition →
          ∃ id, after.durableRuns key = [id] ∧ disposition.jobId = toString id ∧
            ∃ receipt ∈ after.receipts, receipt.idempotencyKey = key ∧
              receipt.inScope call.request = true ∧ receipt.runId = some id
  /-- A call that reads a receipt of another scope throws. -/
  collides : ∀ (index : Nat) (call : SendCall P), event = .selectReceipt index →
    before.calls[index]? = some call → call.request.durableKey = some key →
      ∀ receipt ∈ before.receipts, receipt.idempotencyKey = key →
        receipt.inScope call.request = false →
          after = before.setCall index { call with phase := .threw }
  /-- Before its commit a call changes neither table. -/
  unwritten : ∀ index, event.call = some index → (∀ answered, event ≠ .commit index answered) →
    after.runs = before.runs ∧ after.receipts = before.receipts

theorem Singleton.returns (singleton : Singleton key before) {earlier : SendCall P}
    {disposition : Disposition} (effect : SendEffect before event after)
    (found : before.calls[index]? = some earlier) (open_ : earlier.inFlight = true)
    (present : after.calls[index]? = some call) (durable : call.request.durableKey = some key)
    (phase : call.phase = .returned disposition) :
    ∃ id, after.durableRuns key = [id] ∧ disposition.jobId = toString id ∧
      ∃ receipt ∈ after.receipts, receipt.idempotencyKey = key ∧
        receipt.inScope call.request = true ∧ receipt.runId = some id := by
  have unfinished {other : SendCall P} (same : before.calls[index]? = some other)
      (ended : other.phase = .returned disposition) : False := by
    rw [found] at same
    cases same
    simp [SendCall.inFlight, ended] at open_
  cases effect with
  | began request isConnected shuttingDown _ result =>
    subst result
    rcases getElem?_append_singleton_cases present with ⟨_, rfl⟩ | old
    · rcases SendCall.start_phase request (isConnected && !shuttingDown) with start | start | start
      all_goals
        rw [start] at phase
        contradiction
    · exact (unfinished old phase).elim
  | moved place mover next _ moverFound moves runs receipts _ _ calls durableRuns =>
    rw [calls] at present
    rcases getElem?_set_cases present with ⟨rfl, rfl⟩ | ⟨_, old⟩
    · have stands := (singleton.calls index mover moverFound (moves.request ▸ durable)).moves
        singleton moverFound (moves.request ▸ durable) moves
      cases moves with
      | deduplicated other receipt named _ member same scope =>
        cases phase
        have keyed : some other = some key := named.symm.trans durable
        cases keyed
        obtain ⟨id, points, counted⟩ := singleton.recorded receipt member same
        rw [durableRuns, receipts]
        exact ⟨id, counted, by simp [Receipt.jobId, points], receipt, member, same, scope, points⟩
      | receiptFound | receiptInserted | collided | existingMissed | linked | aborted =>
        cases phase
      | rowInserted | existingFound =>
        dsimp only at phase
        split at phase <;> cases phase
      | rowFound =>
        dsimp only at phase
        split at phase <;> cases phase
    · exact (unfinished old phase).elim
  | committed place committer result answered _ committerFound committing same =>
    subst same
    rcases getElem?_set_cases present with ⟨rfl, rfl⟩ | ⟨_, old⟩
    · dsimp only at phase
      split at phase
      · cases phase
        exact (singleton.commit_own committerFound committing durable).2
      · cases phase
    · exact (unfinished old phase).elim
  | touched _ _ _ result =>
    rw [result] at present
    exact (unfinished present phase).elim
  | swept env now _ result =>
    subst result
    exact (unfinished present phase).elim

theorem Singleton.collides (singleton : Singleton key before) {receipt : Receipt}
    (stepped : sendStep before (.selectReceipt index) = some after)
    (found : before.calls[index]? = some call) (durable : call.request.durableKey = some key)
    (member : receipt ∈ before.receipts) (named : receipt.idempotencyKey = key)
    (scope : receipt.inScope call.request = false) : after = before.setCall index { call with phase := .threw } := by
  simp only [sendStep, found, Option.bind_eq_bind, Option.bind_some] at stepped
  split at stepped
  · obtain ⟨next, moved, rfl⟩ := Option.map_eq_some_iff.mp stepped
    have present : before.findReceipt key = some receipt := by
      cases search : before.findReceipt key with
      | none =>
        have missing := List.find?_eq_none.mp search receipt member
        simp [named] at missing
      | some other =>
        obtain ⟨otherMember, otherNamed⟩ := findReceipt_some search
        rw [singleton.one receipt member other otherMember named otherNamed]
    simp only [selectReceiptStep, durable, present, scope] at moved
    cases moved
    rfl
  · contradiction

/-- A key that is only sent through `sendDurable` has at most one row inserted in
the lifetime of its receipt, and every durable send with it returns that row. -/
theorem durable_singleton :
    ∀ (key : String) (before : SendState P) (event : SendEvent P) (after : SendState P),
      key ≠ "" → sending.Reachable (DurableOnly key) before → DurableOnly key before event →
        sending.step before event = some after → DurableStep key before event after := by
  intro key before event after positive reached permitted stepped
  have singleton := sending_singleton positive reached
  have effect := sendStep_effect stepped
  refine ⟨(sending_singleton positive (reached.step permitted stepped)).recorded, ?_, ?_, ?_⟩
  · intro index earlier call disposition found open_ present durable phase
    exact singleton.returns effect found open_ present durable phase
  · rintro index call rfl found durable receipt member named scope
    exact singleton.collides stepped found durable member named scope
  · intro index caller uncommitted
    cases effect with
    | began _ _ _ asked =>
      subst asked
      cases caller
    | moved _ _ _ _ _ _ runs receipts => exact ⟨runs, receipts⟩
    | committed place _ _ answered asked =>
      subst asked
      cases caller
      exact absurd rfl (uncommitted answered)
    | touched none_ =>
      rw [none_] at caller
      cases caller
    | swept _ _ none_ =>
      rw [none_] at caller
      cases caller

def durableRequest : SendRequest Unit where
  queueName := "messages"
  data := ()
  options := { singletonKey := some "key", durableSingleton := true }

/-- The first row has ended when the second send reads the receipt. -/
def sentAgainAfterCompletion : List (SendEvent Unit) :=
  [.begin durableRequest true false, .insertReceipt 0 0, .insertRun 0 0, .linkReceipt 0,
    .commit 0 true, .statement (.claimOne "gateway-a" "messages" 0 []),
    .statement (.markCompleted "gateway-a" 1 1), .begin durableRequest true false,
    .insertReceipt 1 2]

theorem durable_singleton_after_completion :
    ∃ before after : SendState Unit, sending.Reachable (DurableOnly "key") before ∧
      sending.step before (.selectReceipt 1) = some after ∧
      (after.calls[1]?.any fun call =>
        call.phase == .returned { jobId := "1", deduplicated := true }) = true ∧
      DurableStep "key" before (.selectReceipt 1) after := by
  obtain ⟨before, reached, tested⟩ := Machine.exists_of_replay sending (DurableOnly "key")
    SendState.initial sentAgainAfterCompletion
    (fun before => (sending.step before (.selectReceipt 1)).any fun after =>
      after.calls[1]?.any fun call =>
        call.phase == .returned { jobId := "1", deduplicated := true })
    rfl (by decide)
  obtain ⟨after, stepped, returned⟩ := (Option.any_eq_true ..).mp tested
  exact ⟨before, after, reached, stepped, returned,
    durable_singleton "key" before _ after (by decide) reached trivial stepped⟩

end Lobu.Queue
