import Lobu.Foundation.Machine

namespace Lobu.Queue

open Lobu.Foundation

/-! # The consumer lease of one queue

`work`, `pauseWorker`, `resumeWorker` and `stop` as they touch the lease of one
queue in one process, with the heartbeat timers, the chain of heartbeat writes
and the row of the lease store.  The code between two awaits is one step.

`epoch` counts the calls that resume the consumer; `owner`, `beats` and the calls'
own epochs are read by no function.
-/

/-- `LeaseLifecycleState`, with the epoch of the call that installed it and the
number of heartbeats written for it. -/
structure LeaseLifecycle where
  generation : Nat
  active : Bool
  owner : Nat
  beats : Nat

inductive LeaseCallKind where
  | pauseWorker
  | resumeWorker
  | work (startPaused : Bool)
  | stop
deriving DecidableEq

/-- What a call is waiting for.  A `waiting` call awaits the write tail as it was
when `target` links had been appended. -/
inductive LeasePhase where
  | waiting (target : Nat)
  | expiring
  | deactivated
  | installing
  | beating (target generation : Nat)
  | draining
  | looping
  | resolved
deriving DecidableEq

structure LeaseCall where
  kind : LeaseCallKind
  phase : LeasePhase
  epoch : Nat

/-- One link of the write tail; `writing` once its check has passed. -/
structure TailLink where
  generation : Nat
  writing : Bool

inductive StoredLease where
  | beaten
  | expired
deriving DecidableEq

/-- `tail` holds the unfinished links, `timer` the entry of `consumerLeaseTimers`,
`orphans` the intervals that were never cleared and have no entry. -/
structure LeaseState where
  isConnected : Bool
  shuttingDown : Bool
  registered : Bool
  lifecycle : Option LeaseLifecycle
  tail : List TailLink
  appended : Nat
  finished : Nat
  timer : Option Nat
  orphans : List Nat
  lease : Option StoredLease
  calls : List LeaseCall
  epoch : Nat

inductive LeaseEvent where
  | start
  | pauseWorker
  | resumeWorker
  | work (startPaused : Bool)
  | stop
  | stopClears (call : Nat)
  | stopVisits (call : Nat)
  | stopEnds (call : Nat)
  | tailAwaited (call : Nat)
  | expires (call : Nat) (applied : Bool)
  | proceeds (call : Nat)
  | install (call : Nat)
  | firstBeatDone (call : Nat)
  | timerFires (generation : Nat)
  | linkStarts
  | linkWrites (applied : Bool)

def LeaseState.initial : LeaseState where
  isConnected := false
  shuttingDown := false
  registered := false
  lifecycle := none
  tail := []
  appended := 0
  finished := 0
  timer := none
  orphans := []
  lease := none
  calls := []
  epoch := 0

namespace LeaseState

section

variable (state : LeaseState)
include state

def begins (kind : LeaseCallKind) (phase : LeasePhase) : LeaseState :=
  { state with calls := state.calls ++ [{ kind, phase, epoch := state.epoch }] }

def advance (index : Nat) (phase : LeasePhase) : LeaseState :=
  { state with calls := state.calls.modify index fun call => { call with phase } }

def phaseOf (index : Nat) : Option LeasePhase :=
  (state.calls[index]?).map LeaseCall.phase

def activeAt (generation : Nat) : Bool :=
  state.lifecycle.any fun lifecycle => lifecycle.active && lifecycle.generation == generation

def inactive : Bool :=
  state.lifecycle.all fun lifecycle => !lifecycle.active

/-- `deactivateConsumerLease` up to its first await. -/
def deactivate : LeaseState :=
  { state with
    lifecycle := state.lifecycle.map fun lifecycle =>
      { lifecycle with active := false, generation := lifecycle.generation + 1 }
    timer := none }

/-- Where a call is after the first part of `deactivateConsumerLease(queueName)`. -/
def deactivating : LeasePhase :=
  if state.lifecycle.isNone then .deactivated else .waiting state.appended

def appendLink (generation : Nat) : LeaseState :=
  { state with
    tail := state.tail ++ [{ generation, writing := false }]
    appended := state.appended + 1 }

/-- `heartbeat()` up to its await. -/
def heartbeat (generation : Nat) : LeaseState :=
  if state.activeAt generation then state.appendLink generation else state

/-- `startConsumerLeaseHeartbeat` between its two awaits. -/
def install (owner : Nat) : LeaseState :=
  let generation := (state.lifecycle.map (·.generation)).getD 0 + 1
  { state with lifecycle := some { generation, active := true, owner, beats := 0 } }.heartbeat
    generation

def setInterval (generation : Nat) : LeaseState :=
  { state with
    timer := some generation
    orphans := state.orphans ++ state.timer.toList }

/-- `consumerLeaseTimers.clear()`, which clears no interval. -/
def clearTimers : LeaseState :=
  { state with
    timer := none
    orphans := state.orphans ++ state.timer.toList }

end

section Lease

variable (state : LeaseState) (kind : LeaseCallKind) (phase : LeasePhase)
variable (index generation owner : Nat)

@[simp] theorem begins_lease : (state.begins kind phase).lease = state.lease := rfl

@[simp] theorem advance_lease : (state.advance index phase).lease = state.lease := rfl

@[simp] theorem deactivate_lease : state.deactivate.lease = state.lease := rfl

@[simp] theorem heartbeat_lease : (state.heartbeat generation).lease = state.lease := by
  rw [heartbeat]
  split <;> rfl

@[simp] theorem install_lease : (state.install owner).lease = state.lease :=
  heartbeat_lease _ _

@[simp] theorem setInterval_lease : (state.setInterval generation).lease = state.lease := rfl

@[simp] theorem clearTimers_lease : state.clearTimers.lease = state.lease := rfl

end Lease

end LeaseState

def leaseStep (state : LeaseState) : LeaseEvent → Option LeaseState
  | .start =>
    if state.isConnected then some state
    else some { state with isConnected := true, shuttingDown := false }
  | .pauseWorker =>
    if state.registered then some (state.deactivate.begins .pauseWorker state.deactivating)
    else some (state.begins .pauseWorker .resolved)
  | .resumeWorker =>
    if state.registered then
      some ({ state.deactivate with epoch := state.epoch + 1 }.begins .resumeWorker .installing)
    else some state
  | .work startPaused =>
    if !state.isConnected || state.shuttingDown then none
    else if state.registered then
      some ({ state.deactivate with epoch := state.epoch + 1 }.begins (.work startPaused)
        state.deactivating)
    else if startPaused then
      some ({ state with registered := true, epoch := state.epoch + 1 }.begins (.work startPaused)
        .resolved)
    else
      some ({ state.deactivate with registered := true, epoch := state.epoch + 1 }.begins
        (.work startPaused) .installing)
  | .stop =>
    some ({ state with isConnected := false, shuttingDown := true }.begins .stop .draining)
  | .stopClears index =>
    match state.calls[index]? with
    | some { kind := .stop, phase := .draining, .. } =>
      some ({ state with registered := false }.advance index .looping)
    | _ => none
  | .stopVisits index =>
    match state.calls[index]? with
    | some { kind := .stop, phase := .looping, .. } =>
      if state.lifecycle.isNone then none
      else some (state.deactivate.advance index (.waiting state.appended))
    | _ => none
  | .stopEnds index =>
    match state.calls[index]? with
    | some { kind := .stop, phase := .looping, .. } =>
      if state.lifecycle.isNone then some (state.clearTimers.advance index .resolved) else none
    | _ => none
  | .tailAwaited index =>
    match state.phaseOf index with
    | some (.waiting target) =>
      if target ≤ state.finished then some (state.advance index .expiring) else none
    | _ => none
  | .expires index applied =>
    match state.phaseOf index with
    | some .expiring =>
      some ({ state with
        lease := if applied then state.lease.map fun _ => .expired else state.lease }.advance
          index .deactivated)
    | _ => none
  | .proceeds index =>
    match state.calls[index]? with
    | some { kind := .pauseWorker, phase := .deactivated, .. } =>
      some (state.advance index .resolved)
    | some { kind := .work true, phase := .deactivated, .. } =>
      some ({ state with registered := true }.advance index .resolved)
    | some { kind := .work false, phase := .deactivated, .. } =>
      some ({ state.deactivate with registered := true }.advance index .installing)
    | some { kind := .stop, phase := .deactivated, .. } =>
      some (state.clearTimers.advance index .resolved)
    | _ => none
  | .install index =>
    match state.calls[index]? with
    | some { phase := .installing, epoch, .. } =>
      let installed := state.install epoch
      some (installed.advance index
        (.beating installed.appended ((state.lifecycle.map (·.generation)).getD 0 + 1)))
    | _ => none
  | .firstBeatDone index =>
    match state.phaseOf index with
    | some (.beating target generation) =>
      if target ≤ state.finished then
        some ((state.setInterval generation).advance index .resolved)
      else none
    | _ => none
  | .timerFires generation =>
    if state.timer = some generation ∨ generation ∈ state.orphans then
      some (state.heartbeat generation)
    else none
  | .linkStarts =>
    match state.tail with
    | { generation, writing := false } :: rest =>
      if state.activeAt generation then
        some { state with tail := { generation, writing := true } :: rest }
      else some { state with tail := rest, finished := state.finished + 1 }
    | _ => none
  | .linkWrites applied =>
    match state.tail with
    | { generation, writing := true } :: rest =>
      let written := { state with tail := rest, finished := state.finished + 1 }
      if applied then
        some { written with
          lease := some .beaten
          lifecycle := written.lifecycle.map fun lifecycle =>
            if lifecycle.generation = generation then
              { lifecycle with beats := lifecycle.beats + 1 }
            else lifecycle }
      else some written
    | _ => none

def leasing : Machine LeaseState LeaseEvent where
  starts state := state = LeaseState.initial
  step := leaseStep

def LeaseCallKind.releases : LeaseCallKind → Bool
  | .pauseWorker | .stop => true
  | .resumeWorker | .work _ => false

/-- A pause or stop has resolved and nothing has been called to resume the consumer since. -/
def LeaseState.released (state : LeaseState) : Bool :=
  state.calls.any fun call =>
    call.kind.releases && call.phase == .resolved && call.epoch == state.epoch

/-- The lease was resumed after the call and its new heartbeat has been written. -/
def LeaseState.renewedSince (state : LeaseState) (index : Nat) : Bool :=
  (state.calls[index]?).any fun call =>
    state.lifecycle.any fun lifecycle =>
      lifecycle.active && call.epoch < lifecycle.owner && 0 < lifecycle.beats

structure LeaseKept (before : LeaseState) (event : LeaseEvent) (after : LeaseState) : Prop where
  heartbeatsStop : event = .linkWrites true → before.released = false
  staysDeactivated : before.released = true → before.lease = some .expired →
    after.lease = some .expired
  renewalKept : ∀ call, event = .expires call true → before.renewedSince call = false

/-- The call still has to install a new lifecycle. -/
def LeaseCall.willInstall (call : LeaseCall) : Bool :=
  match call.phase with
  | .installing => true
  | .waiting _ | .expiring | .deactivated => call.kind == .work false
  | .beating .. | .draining | .looping | .resolved => false

/-- The call has deactivated the lease and has not expired its row yet. -/
def LeaseCall.isDeactivating (call : LeaseCall) : Bool :=
  match call.phase with
  | .waiting _ | .expiring => true
  | .deactivated | .installing | .beating .. | .draining | .looping | .resolved => false

def LeaseState.installs (state : LeaseState) : Bool :=
  state.calls.any LeaseCall.willInstall

/-- The lease is deactivated while no earlier call still has to install it, and
installed while no earlier call still has to expire it. -/
def Sequenced : Discipline LeaseState LeaseEvent := fun state event =>
  match event with
  | .pauseWorker => state.installs = false ∧
      (state.registered = false → state.inactive = true ∧ state.tail = [])
  | .stopVisits _ | .stopEnds _ => state.installs = false
  | .install _ => ∀ call ∈ state.calls, call.isDeactivating = false
  | _ => True

instance (state : LeaseState) (event : LeaseEvent) : Decidable (Sequenced state event) := by
  unfold Sequenced
  split <;> infer_instance

/-- What a pause or stop has achieved by the time it is in a phase, while no later
call resumes the consumer. -/
def LeaseCall.Settled (state : LeaseState) (call : LeaseCall) : Prop :=
  match call.phase with
  | .waiting target => target = state.appended ∧ state.inactive = true ∧ state.installs = false
  | .expiring | .deactivated | .resolved =>
    state.tail = [] ∧ state.inactive = true ∧ state.installs = false
  | .draining | .looping => True
  | .installing | .beating .. => False

structure CallInvariant (state : LeaseState) (call : LeaseCall) : Prop where
  bounded : call.epoch ≤ state.epoch
  silent : call.isDeactivating = true → state.inactive = true
  settled : call.kind.releases = true → call.epoch = state.epoch → call.Settled state

structure LeaseInvariant (state : LeaseState) : Prop where
  counted : state.appended = state.finished + state.tail.length
  fresh : state.lifecycle = none → state.tail = []
  calls : ∀ call ∈ state.calls, CallInvariant state call

/-- What a step that installs nothing leaves alone. -/
structure LeaseFrame (before after : LeaseState) : Prop where
  epoch : after.epoch = before.epoch
  inactive : before.inactive = true → after.inactive = true
  installs : before.installs = false → after.installs = false
  appended : before.inactive = true → after.appended = before.appended
  tail : before.inactive = true → before.tail = [] → after.tail = []

section Steps

variable {state before after base : LeaseState} {event : LeaseEvent} {call : LeaseCall}
variable {index generation : Nat} {phase : LeasePhase} {kind : LeaseCallKind}

theorem CallInvariant.frame (held : CallInvariant before call) (frame : LeaseFrame before after) :
    CallInvariant after call := by
  refine ⟨by rw [frame.epoch]; exact held.bounded,
    fun deactivating => frame.inactive (held.silent deactivating), fun releases current => ?_⟩
  have settled := held.settled releases (current.trans frame.epoch)
  simp only [LeaseCall.Settled] at settled ⊢
  cases reached : call.phase with
  | waiting target =>
    simp only [reached] at settled ⊢
    obtain ⟨awaited, inactive, installs⟩ := settled
    exact ⟨awaited.trans (frame.appended inactive).symm, frame.inactive inactive, frame.installs installs⟩
  | expiring | deactivated | resolved =>
    simp only [reached] at settled ⊢
    obtain ⟨empty, inactive, installs⟩ := settled
    exact ⟨frame.tail inactive empty, frame.inactive inactive, frame.installs installs⟩
  | draining | looping => trivial
  | installing | beating => simp only [reached] at settled

theorem CallInvariant.overtaken (held : CallInvariant before call) (later : before.epoch < after.epoch)
    (inactive : before.inactive = true → after.inactive = true) : CallInvariant after call := by
  have bounded := held.bounded
  refine ⟨by omega, fun deactivating => inactive (held.silent deactivating), fun _ current => ?_⟩
  omega

theorem LeaseState.inactive_deactivate (state : LeaseState) : state.deactivate.inactive = true := by
  cases lifecycle : state.lifecycle <;> simp [inactive, deactivate, lifecycle]

theorem LeaseState.activeAt_inactive (inactive : state.inactive = true) : state.activeAt generation = false := by
  cases lifecycle : state.lifecycle with
  | none => simp [activeAt, lifecycle]
  | some held =>
    simp only [LeaseState.inactive, lifecycle, Option.all_some, Bool.not_eq_true'] at inactive
    simp [activeAt, lifecycle, inactive]

theorem LeaseState.mem_advance (found : state.calls[index]? = some call) {other : LeaseCall}
    (member : other ∈ (state.advance index phase).calls) : other ∈ state.calls ∨ other = { call with phase } := by
  obtain ⟨position, stored⟩ := List.mem_iff_getElem?.mp member
  simp only [advance, List.getElem?_modify] at stored
  by_cases same : index = position
  · subst position
    simp only [found, ite_true, Option.map_eq_map, Option.map_some, Option.some.injEq] at stored
    exact .inr stored.symm
  · simp only [same, ite_false, Option.map_eq_map, Option.map_id'] at stored
    exact .inl (List.mem_of_getElem? stored)

theorem LeaseState.installs_begins (idle : LeaseCall.willInstall ⟨kind, phase, state.epoch⟩ = false) :
    (state.begins kind phase).installs = state.installs := by
  simp [installs, begins, idle]

theorem LeaseState.installs_advance (found : state.calls[index]? = some call)
    (kept : ({ call with phase } : LeaseCall).willInstall = true → call.willInstall = true)
    (none_ : state.installs = false) : (state.advance index phase).installs = false := by
  simp only [installs, List.any_eq_false] at none_ ⊢
  intro other member
  rcases mem_advance found member with old | moved
  · exact none_ other old
  · subst moved
    have idle := none_ call (List.mem_of_getElem? found)
    intro pending
    exact idle (kept pending)

theorem LeaseState.phaseOf_some (found : state.phaseOf index = some phase) :
    ∃ call, state.calls[index]? = some call ∧ call.phase = phase :=
  Option.map_eq_some_iff.mp found

theorem LeaseFrame.deactivate (state : LeaseState) : LeaseFrame state state.deactivate :=
  ⟨rfl, fun _ => state.inactive_deactivate, id, fun _ => rfl, fun _ => id⟩

section

variable (invariant : LeaseInvariant state)
include invariant

theorem LeaseInvariant.advance (frame : LeaseFrame state base)
    (same : base.calls = state.calls) (found : state.calls[index]? = some call)
    (kept : ({ call with phase } : LeaseCall).willInstall = true → call.willInstall = true)
    (counted : base.appended = base.finished + base.tail.length) (fresh : base.lifecycle = none → base.tail = [])
    (silent : ({ call with phase } : LeaseCall).isDeactivating = true → base.inactive = true)
    (settled : (state.installs = false → (base.advance index phase).installs = false) →
      call.kind.releases = true → call.Settled state →
        ({ call with phase } : LeaseCall).Settled (base.advance index phase)) :
    LeaseInvariant (base.advance index phase) := by
  have idle : state.installs = false → (base.advance index phase).installs = false :=
    fun none_ => LeaseState.installs_advance (by rw [same]; exact found) kept (frame.installs none_)
  have moved : LeaseFrame state (base.advance index phase) :=
    ⟨frame.epoch, frame.inactive, idle, frame.appended, frame.tail⟩
  refine ⟨counted, fresh, fun other member => ?_⟩
  rcases LeaseState.mem_advance (by rw [same]; exact found) member with old | new
  · rw [same] at old
    exact (invariant.calls other old).frame moved
  · have held := invariant.calls call (List.mem_of_getElem? found)
    rw [new]
    exact ⟨by rw [moved.epoch]; exact held.bounded, silent,
      fun releases current => settled idle releases (held.settled releases (current.trans moved.epoch))⟩

theorem LeaseInvariant.begins (frame : LeaseFrame state base)
    (same : base.calls = state.calls) (idle : LeaseCall.willInstall ⟨kind, phase, base.epoch⟩ = false)
    (counted : base.appended = base.finished + base.tail.length) (fresh : base.lifecycle = none → base.tail = [])
    (begun : CallInvariant (base.begins kind phase) ⟨kind, phase, base.epoch⟩) :
    LeaseInvariant (base.begins kind phase) := by
  have moved : LeaseFrame state (base.begins kind phase) := by
    refine ⟨frame.epoch, frame.inactive, fun none_ => ?_, frame.appended, frame.tail⟩
    exact (LeaseState.installs_begins idle).trans (frame.installs none_)
  refine ⟨counted, fresh, fun other member => ?_⟩
  rcases List.mem_append.mp member with old | new
  · rw [same] at old
    exact (invariant.calls other old).frame moved
  · rw [List.mem_singleton.mp new]
    exact begun

theorem LeaseInvariant.resumes (later : base.epoch = state.epoch + 1) (same : base.calls = state.calls)
    (inactive : state.inactive = true → base.inactive = true)
    (counted : base.appended = base.finished + base.tail.length)
    (fresh : base.lifecycle = none → base.tail = []) (resuming : kind.releases = false)
    (silent : LeaseCall.isDeactivating ⟨kind, phase, base.epoch⟩ = true → base.inactive = true) :
    LeaseInvariant (base.begins kind phase) := by
  refine ⟨counted, fresh, fun other member => ?_⟩
  rcases List.mem_append.mp member with old | new
  · rw [same] at old
    exact (invariant.calls other old).overtaken (show state.epoch < base.epoch by omega) inactive
  · rw [List.mem_singleton.mp new]
    refine ⟨Nat.le_refl _, silent, fun releases => ?_⟩
    rw [resuming] at releases
    contradiction

theorem LeaseInvariant.tailStep (frame : LeaseFrame state after)
    (same : after.calls = state.calls) (counted : after.appended = after.finished + after.tail.length)
    (fresh : after.lifecycle = none → after.tail = []) : LeaseInvariant after := by
  refine ⟨counted, fresh, fun call member => ?_⟩
  rw [same] at member
  exact (invariant.calls call member).frame frame

theorem LeaseInvariant.deactivatedTail : state.deactivate.lifecycle = none → state.deactivate.tail = [] := by
  intro none_
  exact invariant.fresh (Option.map_eq_none_iff.mp none_)

theorem LeaseInvariant.heartbeat : LeaseInvariant (state.heartbeat generation) := by
  rw [LeaseState.heartbeat]
  split
  · rename_i active
    have running : ¬ state.inactive = true := by
      intro inactive
      rw [LeaseState.activeAt_inactive inactive] at active
      contradiction
    have counted := invariant.counted
    refine invariant.tailStep ⟨rfl, id, id, fun inactive => absurd inactive running,
      fun inactive => absurd inactive running⟩ rfl ?_ ?_
    · simp only [LeaseState.appendLink, List.length_append, List.length_singleton]
      omega
    · intro none_
      simp only [LeaseState.appendLink] at none_
      exact absurd (by simp [LeaseState.inactive, none_]) running
  · exact invariant

theorem LeaseInvariant.linkStarts (stepped : leaseStep state .linkStarts = some after) : LeaseInvariant after := by
  have counted := invariant.counted
  simp only [leaseStep] at stepped
  split at stepped
  · rename_i generation rest tail
    have linked : state.lifecycle ≠ none := fun none_ => by simp [invariant.fresh none_] at tail
    rw [tail, List.length_cons] at counted
    split at stepped
    · cases stepped
      refine invariant.tailStep ⟨rfl, id, id, fun _ => rfl, fun _ empty => ?_⟩ rfl counted
        fun none_ => absurd none_ linked
      rw [tail] at empty
      contradiction
    · cases stepped
      refine invariant.tailStep ⟨rfl, id, id, fun _ => rfl, fun _ empty => ?_⟩ rfl ?_ fun none_ => absurd none_ linked
      · rw [tail] at empty
        contradiction
      · dsimp only
        omega
  · contradiction

theorem LeaseInvariant.linkWrites {applied : Bool}
    (stepped : leaseStep state (.linkWrites applied) = some after) : LeaseInvariant after := by
  have counted := invariant.counted
  simp only [leaseStep] at stepped
  split at stepped
  · rename_i generation rest tail
    have linked : state.lifecycle ≠ none := fun none_ => by simp [invariant.fresh none_] at tail
    have unwritten : state.tail ≠ [] := by rw [tail]; exact List.cons_ne_nil _ _
    rw [tail, List.length_cons] at counted
    split at stepped
    · cases stepped
      refine invariant.tailStep ⟨rfl, fun inactive => ?_, id, fun _ => rfl,
        fun _ empty => absurd empty unwritten⟩ rfl ?_ fun none_ => ?_
      · cases lifecycle : state.lifecycle with
        | none => exact absurd lifecycle linked
        | some held =>
          simp only [LeaseState.inactive, lifecycle, Option.map_some, Option.all_some] at inactive ⊢
          split <;> exact inactive
      · dsimp only
        omega
      · exact absurd (Option.map_eq_none_iff.mp none_) linked
    · cases stepped
      refine invariant.tailStep ⟨rfl, id, id, fun _ => rfl, fun _ empty => absurd empty unwritten⟩
        rfl ?_ fun none_ => absurd none_ linked
      dsimp only
      omega
  · contradiction

/-- An installation leaves no earlier pause or stop that still counts on an
inactive lease: it was pending, and none is deactivating. -/
theorem LeaseInvariant.install (found : state.calls[index]? = some call) (installing : call.phase = .installing)
    (alone : ∀ other ∈ state.calls, other.isDeactivating = false) {target : Nat} :
    LeaseInvariant ((state.install call.epoch).advance index (.beating target generation)) := by
  have counted := invariant.counted
  have pending : state.installs = true := by
    refine List.any_eq_true.mpr ⟨call, List.mem_of_getElem? found, ?_⟩
    simp [LeaseCall.willInstall, installing]
  have installed : state.install call.epoch = { state with
      lifecycle := some ⟨(state.lifecycle.map (·.generation)).getD 0 + 1, true, call.epoch, 0⟩
      tail := state.tail ++ [⟨(state.lifecycle.map (·.generation)).getD 0 + 1, false⟩]
      appended := state.appended + 1 } := by
    simp [LeaseState.install, LeaseState.heartbeat, LeaseState.activeAt, LeaseState.appendLink]
  rw [installed]
  refine ⟨?_, fun none_ => (by cases none_), fun other member => ?_⟩
  · simp only [LeaseState.advance, List.length_append, List.length_singleton]
    omega
  rcases LeaseState.mem_advance found member with old | new
  · have held := invariant.calls other old
    refine ⟨held.bounded, fun deactivating => ?_, fun releases current => ?_⟩
    · rw [alone other old] at deactivating
      contradiction
    · have settled := held.settled releases current
      simp only [LeaseCall.Settled] at settled ⊢
      cases reached : other.phase <;> simp_all
  · have held := invariant.calls call (List.mem_of_getElem? found)
    rw [new]
    refine ⟨held.bounded, fun deactivating => (by cases deactivating), fun releases current => ?_⟩
    have settled := held.settled releases current
    simp only [LeaseCall.Settled, installing] at settled

theorem LeaseInvariant.pauseWorker (permitted : Sequenced state .pauseWorker)
    (stepped : leaseStep state .pauseWorker = some after) : LeaseInvariant after := by
  obtain ⟨none_, unregistered⟩ := permitted
  simp only [leaseStep] at stepped
  split at stepped
  · cases stepped
    have inactive := state.inactive_deactivate
    rw [LeaseState.deactivating]
    split
    · rename_i fresh
      refine invariant.begins (LeaseFrame.deactivate state) rfl rfl invariant.counted
        invariant.deactivatedTail ⟨Nat.le_refl _, fun deactivating => (by cases deactivating), ?_⟩
      intro _ _
      exact ⟨invariant.fresh (Option.isNone_iff_eq_none.mp fresh), inactive,
        (LeaseState.installs_begins rfl).trans none_⟩
    · refine invariant.begins (LeaseFrame.deactivate state) rfl rfl invariant.counted
        invariant.deactivatedTail ⟨Nat.le_refl _, fun _ => inactive, fun _ _ => ?_⟩
      exact ⟨rfl, inactive, (LeaseState.installs_begins rfl).trans none_⟩
  · rename_i absent
    obtain ⟨inactive, empty⟩ := unregistered (by simpa using absent)
    cases stepped
    refine invariant.begins ⟨rfl, id, id, fun _ => rfl, fun _ => id⟩ rfl rfl invariant.counted
      invariant.fresh ⟨Nat.le_refl _, fun deactivating => (by cases deactivating), fun _ _ => ?_⟩
    exact ⟨empty, inactive, (LeaseState.installs_begins rfl).trans none_⟩

theorem LeaseInvariant.resolves (frame : LeaseFrame state base)
    (same : base.calls = state.calls) (found : state.calls[index]? = some call)
    (deactivated : call.phase = .deactivated) (counted : base.appended = base.finished + base.tail.length)
    (fresh : base.lifecycle = none → base.tail = []) : LeaseInvariant (base.advance index .resolved) := by
  refine invariant.advance frame same found (fun pending => (by cases pending)) counted fresh
    (fun deactivating => (by cases deactivating)) fun idle releases settled => ?_
  simp only [LeaseCall.Settled, deactivated] at settled
  obtain ⟨empty, inactive, none_⟩ := settled
  exact ⟨frame.tail inactive empty, frame.inactive inactive, idle none_⟩

theorem LeaseInvariant.proceeds
    (stepped : leaseStep state (.proceeds index) = some after) : LeaseInvariant after := by
  have same : LeaseFrame state state := ⟨rfl, id, id, fun _ => rfl, fun _ => id⟩
  simp only [leaseStep] at stepped
  split at stepped
  · rename_i epoch found
    cases stepped
    exact invariant.resolves same rfl found rfl invariant.counted invariant.fresh
  · rename_i epoch found
    cases stepped
    exact invariant.resolves ⟨rfl, id, id, fun _ => rfl, fun _ => id⟩ rfl found rfl invariant.counted invariant.fresh
  · rename_i epoch found
    cases stepped
    exact invariant.advance ⟨rfl, fun _ => state.inactive_deactivate, id, fun _ => rfl,
      fun _ => id⟩ rfl found (fun _ => rfl) invariant.counted invariant.deactivatedTail
      (fun deactivating => (by cases deactivating)) fun _ releases => (by cases releases)
  · rename_i epoch found
    cases stepped
    exact invariant.resolves ⟨rfl, id, id, fun _ => rfl, fun _ => id⟩ rfl found rfl invariant.counted invariant.fresh
  · contradiction

theorem LeaseInvariant.step (permitted : Sequenced state event)
    (stepped : leaseStep state event = some after) : LeaseInvariant after := by
  have counted := invariant.counted
  have held {call : LeaseCall} {index : Nat} (found : state.calls[index]? = some call) :=
    invariant.calls call (List.mem_of_getElem? found)
  cases event with
  | start =>
    simp only [leaseStep] at stepped
    split at stepped <;> cases stepped
    · exact invariant
    · exact invariant.tailStep ⟨rfl, id, id, fun _ => rfl, fun _ => id⟩ rfl counted invariant.fresh
  | pauseWorker => exact invariant.pauseWorker permitted stepped
  | resumeWorker =>
    simp only [leaseStep] at stepped
    split at stepped <;> cases stepped
    · exact invariant.resumes rfl rfl (fun _ => state.inactive_deactivate) counted
        invariant.deactivatedTail rfl fun deactivating => (by cases deactivating)
    · exact invariant
  | work startPaused =>
    simp only [leaseStep] at stepped
    split at stepped
    · contradiction
    split at stepped
    · cases stepped
      exact invariant.resumes rfl rfl (fun _ => state.inactive_deactivate) counted
        invariant.deactivatedTail rfl fun _ => state.inactive_deactivate
    split at stepped <;> cases stepped
    · exact invariant.resumes rfl rfl id counted invariant.fresh rfl fun deactivating => (by cases deactivating)
    · exact invariant.resumes rfl rfl (fun _ => state.inactive_deactivate) counted
        invariant.deactivatedTail rfl fun deactivating => (by cases deactivating)
  | stop =>
    cases stepped
    exact invariant.begins ⟨rfl, id, id, fun _ => rfl, fun _ => id⟩ rfl rfl counted
      invariant.fresh ⟨Nat.le_refl _, fun deactivating => (by cases deactivating),
        fun _ _ => trivial⟩
  | stopClears index =>
    simp only [leaseStep] at stepped
    split at stepped
    · rename_i epoch found
      cases stepped
      exact invariant.advance ⟨rfl, id, id, fun _ => rfl, fun _ => id⟩ rfl found
        (fun pending => (by cases pending)) counted invariant.fresh
        (fun deactivating => (by cases deactivating)) fun _ _ _ => trivial
    · contradiction
  | stopVisits index =>
    simp only [leaseStep] at stepped
    split at stepped
    · rename_i epoch found
      split at stepped
      · contradiction
      · cases stepped
        exact invariant.advance (LeaseFrame.deactivate state) rfl found
          (fun pending => (by cases pending)) counted invariant.deactivatedTail
          (fun _ => state.inactive_deactivate)
          fun idle _ _ => ⟨rfl, state.inactive_deactivate, idle permitted⟩
    · contradiction
  | stopEnds index =>
    simp only [leaseStep] at stepped
    split at stepped
    · rename_i epoch found
      split at stepped
      · rename_i fresh
        have fresh := Option.isNone_iff_eq_none.mp fresh
        cases stepped
        refine invariant.advance ⟨rfl, id, id, fun _ => rfl, fun _ => id⟩ rfl found
          (fun pending => (by cases pending)) counted invariant.fresh
          (fun deactivating => (by cases deactivating)) fun idle _ _ => ?_
        exact ⟨invariant.fresh fresh, by simp [LeaseState.inactive, LeaseState.advance,
          LeaseState.clearTimers, fresh], idle permitted⟩
      · contradiction
    · contradiction
  | tailAwaited index =>
    simp only [leaseStep] at stepped
    split at stepped
    · rename_i target phase
      obtain ⟨call, found, waiting⟩ := LeaseState.phaseOf_some phase
      split at stepped
      · rename_i awaited
        cases stepped
        refine invariant.advance ⟨rfl, id, id, fun _ => rfl, fun _ => id⟩ rfl found ?_ counted
          invariant.fresh ?_ fun idle releases settled => ?_
        · simp [LeaseCall.willInstall, waiting]
        · exact fun _ => (held found).silent (by simp [LeaseCall.isDeactivating, waiting])
        · simp only [LeaseCall.Settled, waiting] at settled
          obtain ⟨whole, inactive, none_⟩ := settled
          have empty : state.tail = [] := List.eq_nil_of_length_eq_zero (by omega)
          exact ⟨empty, inactive, idle none_⟩
      · contradiction
    · contradiction
  | expires index applied =>
    simp only [leaseStep] at stepped
    split at stepped
    · rename_i phase
      obtain ⟨call, found, expiring⟩ := LeaseState.phaseOf_some phase
      cases stepped
      refine invariant.advance ⟨rfl, id, id, fun _ => rfl, fun _ => id⟩ rfl found ?_ counted
        invariant.fresh (fun deactivating => (by cases deactivating)) fun idle releases settled => ?_
      · simp [LeaseCall.willInstall, expiring]
      · simp only [LeaseCall.Settled, expiring] at settled
        obtain ⟨empty, inactive, none_⟩ := settled
        exact ⟨empty, inactive, idle none_⟩
    · contradiction
  | proceeds index => exact invariant.proceeds stepped
  | install index =>
    simp only [leaseStep] at stepped
    split at stepped
    · rename_i kind epoch found
      cases stepped
      exact invariant.install found rfl permitted
    · contradiction
  | firstBeatDone index =>
    simp only [leaseStep] at stepped
    split at stepped
    · rename_i target generation phase
      obtain ⟨call, found, beating⟩ := LeaseState.phaseOf_some phase
      split at stepped
      · cases stepped
        refine invariant.advance ⟨rfl, id, id, fun _ => rfl, fun _ => id⟩ rfl found
          (fun pending => (by cases pending)) counted invariant.fresh
          (fun deactivating => (by cases deactivating)) fun idle releases settled => ?_
        simp only [LeaseCall.Settled, beating] at settled
      · contradiction
    · contradiction
  | timerFires generation =>
    simp only [leaseStep] at stepped
    split at stepped
    · cases stepped
      exact invariant.heartbeat
    · contradiction
  | linkStarts => exact invariant.linkStarts stepped
  | linkWrites applied => exact invariant.linkWrites stepped

end

end Steps

theorem leasing_invariant {state : LeaseState} (reached : leasing.Reachable Sequenced state) :
    LeaseInvariant state := by
  apply reached.invariant
  · intro state begins
    subst begins
    exact ⟨rfl, fun _ => rfl, fun call member => (by cases member)⟩
  · intro before event after _ invariant permitted stepped
    exact invariant.step permitted stepped

theorem LeaseInvariant.released {state : LeaseState} (invariant : LeaseInvariant state)
    (released : state.released = true) : state.tail = [] := by
  obtain ⟨call, member, resolved⟩ := List.any_eq_true.mp released
  simp only [Bool.and_eq_true, beq_iff_eq] at resolved
  obtain ⟨⟨releases, resolved⟩, current⟩ := resolved
  have settled := (invariant.calls call member).settled releases current
  simp only [LeaseCall.Settled, resolved] at settled
  exact settled.1

theorem leaseStep_expired {before after : LeaseState} {event : LeaseEvent}
    (stepped : leaseStep before event = some after) (quiet : event ≠ .linkWrites true)
    (expired : before.lease = some .expired) : after.lease = some .expired := by
  cases event with
  | linkWrites applied =>
    have lost : applied = false := by simpa using quiet
    subst lost
    simp only [leaseStep] at stepped
    split at stepped
    · cases stepped
      exact expired
    · contradiction
  | _ =>
    simp only [leaseStep] at stepped
    repeat' split at stepped
    all_goals cases stepped
    all_goals first
      | simpa using expired
      | simp [expired]

/-- While pauses and stops are sequenced with pending installations, a paused
lease stays deactivated and a renewed one is not expired by an earlier pause. -/
theorem consumer_lease_kept :
    ∀ before event after, leasing.Reachable Sequenced before → Sequenced before event →
      leasing.step before event = some after → LeaseKept before event after := by
  intro before event after reached permitted stepped
  have invariant := leasing_invariant reached
  have silent : event = .linkWrites true → before.released = false := by
    rintro rfl
    refine Bool.eq_false_iff.mpr fun released => ?_
    simp [leasing, leaseStep, invariant.released released] at stepped
  refine ⟨silent, fun released expired => ?_, ?_⟩
  · refine leaseStep_expired stepped (fun writes => ?_) expired
    rw [silent writes] at released
    contradiction
  · rintro index rfl
    simp only [leasing, leaseStep] at stepped
    split at stepped
    · rename_i phase
      obtain ⟨call, found, expiring⟩ := LeaseState.phaseOf_some phase
      have inactive := (invariant.calls call (List.mem_of_getElem? found)).silent
        (by simp [LeaseCall.isDeactivating, expiring])
      simp only [LeaseState.renewedSince, found, Option.any_some]
      cases lifecycle : before.lifecycle with
      | none => rfl
      | some held =>
        simp only [LeaseState.inactive, lifecycle, Option.all_some, Bool.not_eq_true'] at inactive
        simp [inactive]
    · contradiction

/-- A worker is registered, resumed and paused, each after the other. -/
def resumedThenPaused : List LeaseEvent :=
  [.start, .work false, .install 0, .linkStarts, .linkWrites true, .firstBeatDone 0,
    .timerFires 1, .pauseWorker, .linkStarts, .tailAwaited 1, .expires 1 true, .proceeds 1,
    .resumeWorker, .install 2, .linkStarts, .linkWrites true, .firstBeatDone 2, .timerFires 4,
    .linkStarts, .pauseWorker]

theorem consumer_lease_kept_when_paused_again :
    ∃ before after, leasing.Reachable Sequenced before ∧ before.lease = some .beaten ∧
      leasing.step before (.linkWrites true) = some after ∧ LeaseKept before (.linkWrites true) after := by
  obtain ⟨before, reached, tested⟩ := Machine.exists_of_replay leasing Sequenced LeaseState.initial resumedThenPaused
    (fun state => state.lease == some .beaten && (leaseStep state (.linkWrites true)).isSome)
    rfl (by decide)
  simp only [Bool.and_eq_true, beq_iff_eq] at tested
  obtain ⟨after, stepped⟩ := Option.isSome_iff_exists.mp tested.2
  exact ⟨before, after, reached, tested.1, stepped, consumer_lease_kept before _ after reached trivial stepped⟩

/-- A worker is resumed and paused before the resumption has installed its lease. -/
def pausedWhileResuming : List LeaseEvent :=
  [.start, .work false, .install 0, .linkStarts, .linkWrites true, .firstBeatDone 0,
    .resumeWorker, .pauseWorker, .install 1, .linkStarts, .linkWrites true, .tailAwaited 2,
    .expires 2 true, .proceeds 2, .firstBeatDone 1, .timerFires 4, .linkStarts]

/-- A worker is resumed while the expiry of an earlier pause is on its way. -/
def resumedWhilePausing : List LeaseEvent :=
  [.start, .work false, .install 0, .linkStarts, .linkWrites true, .firstBeatDone 0,
    .pauseWorker, .tailAwaited 1, .resumeWorker, .install 2, .linkStarts, .linkWrites true]

theorem consumer_lease_not_kept :
    (¬ ∀ before event after, leasing.Reachable unrestricted before →
      leasing.step before event = some after → LeaseKept before event after) ∧
    (∃ before after, leasing.Reachable unrestricted before ∧ before.released = true ∧
      before.lease = some .expired ∧ leasing.step before (.linkWrites true) = some after ∧
      after.lease = some .beaten) ∧
    ∃ before after, leasing.Reachable unrestricted before ∧ before.renewedSince 1 = true ∧
      leasing.step before (.expires 1 true) = some after ∧ after.lease = some .expired := by
  obtain ⟨before, reached, tested⟩ := Machine.exists_of_replay leasing unrestricted
    LeaseState.initial pausedWhileResuming
    (fun state => state.released && state.lease == some .expired &&
      (leaseStep state (.linkWrites true)).any fun after => after.lease == some .beaten)
    rfl (by decide)
  obtain ⟨earlier, met, checked⟩ := Machine.exists_of_replay leasing unrestricted
    LeaseState.initial resumedWhilePausing
    (fun state => state.renewedSince 1 &&
      (leaseStep state (.expires 1 true)).any fun after => after.lease == some .expired)
    rfl (by decide)
  simp only [Bool.and_eq_true, beq_iff_eq, Option.any_eq_true] at tested checked
  obtain ⟨⟨released, expired⟩, after, stepped, beaten⟩ := tested
  obtain ⟨renewed, later, moved, gone⟩ := checked
  refine ⟨fun always => ?_, ⟨before, after, reached, released, expired, stepped, beaten⟩,
    earlier, later, met, renewed, moved, gone⟩
  have silent := (always before (.linkWrites true) after reached stepped).heartbeatsStop rfl
  rw [released] at silent
  contradiction

end Lobu.Queue
