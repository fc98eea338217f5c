import Lobu.Foundation.Machine
import Lobu.Foundation.OrderedMap
import Mathlib.Data.List.Perm.Basic

namespace Lobu.Proxy

open Lobu.Foundation

/-! # The circuit breaker of the egress judge

Calls of the judge overlap, and each reports its outcome once, whatever has become of the breaker
since it was admitted.
-/

structure BreakerEntry where
  consecutiveFailures : Nat
  openUntil : Nat
  halfOpenInFlight : Bool

abbrev BreakerState := OrderedMap String BreakerEntry

def maxTrackedPolicies : Nat := 1000

structure CircuitBreaker where
  failureThreshold : Nat
  cooldownMs : Nat

def canProceed (state : BreakerState) (now : Nat) (policyHash : String) : Bool × BreakerState :=
  match state.get? policyHash with
  | none => (true, state)
  | some entry =>
    if entry.openUntil = 0 then (true, state)
    else if entry.openUntil ≤ now then
      if entry.halfOpenInFlight then (false, state)
      else (true, state.set policyHash { entry with halfOpenInFlight := true })
    else (false, state)

def onSuccess (state : BreakerState) (policyHash : String) : BreakerState :=
  state.delete policyHash

/-- What makes room for a policy that is not tracked yet. -/
def evicted (state : BreakerState) (policyHash : String) : Option String :=
  if !state.has policyHash && decide (maxTrackedPolicies ≤ state.size) then state.oldest? else none

namespace CircuitBreaker

variable (breaker : CircuitBreaker)

def failed (entry : BreakerEntry) (now : Nat) : BreakerEntry where
  consecutiveFailures := entry.consecutiveFailures + 1
  openUntil :=
    if breaker.failureThreshold ≤ entry.consecutiveFailures + 1 then now + breaker.cooldownMs
    else entry.openUntil
  halfOpenInFlight := false

def onFailure (state : BreakerState) (now : Nat) (policyHash : String) : BreakerState :=
  let entry := (state.get? policyHash).getD ⟨0, 0, false⟩
  let room :=
    match evicted state policyHash with
    | some oldest => state.delete oldest
    | none => state
  room.set policyHash (breaker.failed entry now)

end CircuitBreaker

/-- What the breaker stands for. -/
inductive Circuit where
  | closed
  | tripped (cooledAt : Nat)
deriving DecidableEq

def Circuit.isTripped : Circuit → Bool
  | .closed => false
  | .tripped _ => true

/-- A call that was admitted and has not reported; a probe was admitted while the circuit was
tripped. -/
structure JudgeCall where
  policyHash : String
  probe : Bool

/-- The circuits are not the code's: a circuit is tripped by the failure that reaches the threshold,
and stays so until a probe succeeds. -/
structure JudgeCalls where
  state : BreakerState
  circuits : String → Circuit
  inFlight : List JudgeCall

inductive JudgeEvent where
  | asks (policyHash : String) (now : Nat)
  | succeeds (place : Nat)
  | fails (place : Nat) (now : Nat)

namespace CircuitBreaker

variable (breaker : CircuitBreaker)

def circuitAfterFailure (entry : BreakerEntry) (circuit : Circuit) (probe : Bool) (now : Nat) : Circuit :=
  if probe || decide (breaker.failureThreshold ≤ entry.consecutiveFailures + 1) then
    .tripped (now + breaker.cooldownMs)
  else circuit

/-- The clock is past its epoch. -/
def step (calls : JudgeCalls) : JudgeEvent → Option JudgeCalls
  | .asks policyHash now =>
    if now = 0 then none
    else
      match canProceed calls.state now policyHash with
      | (true, state) =>
        let call : JudgeCall := ⟨policyHash, (calls.circuits policyHash).isTripped⟩
        some { calls with state, inFlight := calls.inFlight ++ [call] }
      | (false, state) => some { calls with state }
  | .succeeds place =>
    match calls.inFlight[place]? with
    | none => none
    | some call =>
      let circuit := if call.probe then .closed else calls.circuits call.policyHash
      some {
        state := onSuccess calls.state call.policyHash
        circuits := Function.update calls.circuits call.policyHash circuit
        inFlight := calls.inFlight.eraseIdx place }
  | .fails place now =>
    match calls.inFlight[place]? with
    | none => none
    | some call =>
      if now = 0 then none
      else
        let entry := (calls.state.get? call.policyHash).getD ⟨0, 0, false⟩
        let circuit := breaker.circuitAfterFailure entry (calls.circuits call.policyHash)
          call.probe now
        some {
          state := breaker.onFailure calls.state now call.policyHash
          circuits := Function.update calls.circuits call.policyHash circuit
          inFlight := calls.inFlight.eraseIdx place }

def judge : Machine JudgeCalls JudgeEvent where
  starts calls := calls.state = .empty ∧ calls.circuits = (fun _ => .closed) ∧ calls.inFlight = []
  step := breaker.step

end CircuitBreaker

def isTripped (state : BreakerState) (policyHash : String) : Bool :=
  (state.get? policyHash).any fun entry => entry.openUntil != 0

def isProbing (state : BreakerState) (policyHash : String) : Bool :=
  (state.get? policyHash).any BreakerEntry.halfOpenInFlight

def maySucceed (calls : JudgeCalls) (call : JudgeCall) : Bool :=
  call.probe || !isTripped calls.state call.policyHash

def mayFail (calls : JudgeCalls) (call : JudgeCall) : Bool :=
  (call.probe || !isProbing calls.state call.policyHash) &&
    (evicted calls.state call.policyHash).all fun oldest => !isTripped calls.state oldest

/-- Where the breaker is tripped, no success is reported but a probe's, and while a probe is in
flight no failure but its own; no entry of a tripped breaker is evicted. -/
def undisturbed : Discipline JudgeCalls JudgeEvent
  | _, .asks _ _ => True
  | calls, .succeeds place => (calls.inFlight[place]?.all (maySucceed calls)) = true
  | calls, .fails place _ => (calls.inFlight[place]?.all (mayFail calls)) = true

instance (calls : JudgeCalls) (event : JudgeEvent) : Decidable (undisturbed calls event) :=
  match event with
  | .asks _ _ => .isTrue trivial
  | .succeeds place =>
    inferInstanceAs (Decidable ((calls.inFlight[place]?.all (maySucceed calls)) = true))
  | .fails place _ =>
    inferInstanceAs (Decidable ((calls.inFlight[place]?.all (mayFail calls)) = true))

def probesOf (policyHash : String) (inFlight : List JudgeCall) : Nat :=
  inFlight.countP fun call => call.policyHash == policyHash && call.probe

namespace CircuitBreaker

variable {breaker : CircuitBreaker} {calls after : JudgeCalls} {policyHash : String}
variable {entry : Option BreakerEntry} {circuit : Circuit} {probes : Nat}

/-- The entry of a policy says how its circuit is, and whether a probe is in flight. -/
inductive Tracks (breaker : CircuitBreaker) : Option BreakerEntry → Circuit → Nat → Prop where
  | untracked : Tracks breaker none .closed 0
  | closed (failures : Nat) : Tracks breaker (some ⟨failures, 0, false⟩) .closed 0
  | cooling {failures openUntil : Nat} (isOpen : openUntil ≠ 0)
      (reached : breaker.failureThreshold ≤ failures) :
      Tracks breaker (some ⟨failures, openUntil, false⟩) (.tripped openUntil) 0
  | probing {failures openUntil : Nat} (isOpen : openUntil ≠ 0)
      (reached : breaker.failureThreshold ≤ failures) :
      Tracks breaker (some ⟨failures, openUntil, true⟩) (.tripped openUntil) 1

section

variable (tracks : Tracks breaker entry circuit probes)
include tracks

theorem Tracks.closed_of
    (untripped : entry.any (fun entry => entry.openUntil != 0) = false) : circuit = .closed ∧ probes = 0 := by
  cases tracks with
  | untracked => exact ⟨rfl, rfl⟩
  | closed failures => exact ⟨rfl, rfl⟩
  | cooling isOpen => simp [isOpen] at untripped
  | probing isOpen => simp [isOpen] at untripped

theorem Tracks.idle_of (idle : entry.any BreakerEntry.halfOpenInFlight = false) : probes = 0 := by
  cases tracks with
  | probing => cases idle
  | _ => rfl

theorem Tracks.probes_le : probes ≤ 1 := by
  cases tracks <;> omega

theorem Tracks.failed {probe : Bool} {now : Nat} (later : now ≠ 0) (known : probe = true → probes ≠ 0) :
    Tracks breaker (some (breaker.failed (entry.getD ⟨0, 0, false⟩) now))
      (breaker.circuitAfterFailure (entry.getD ⟨0, 0, false⟩) circuit probe now) 0 := by
  have trips {failures openUntil : Nat} {probing : Bool} (reached : breaker.failureThreshold ≤ failures + 1) :
      Tracks breaker (some (breaker.failed ⟨failures, openUntil, probing⟩ now))
        (breaker.circuitAfterFailure ⟨failures, openUntil, probing⟩ circuit probe now) 0 := by
    simp only [CircuitBreaker.failed, circuitAfterFailure, reached, decide_true, Bool.or_true, if_true]
    exact .cooling (by omega) reached
  have counts {failures : Nat} (idle : probe = false) (below : ¬ breaker.failureThreshold ≤ failures + 1) :
      Tracks breaker (some (breaker.failed ⟨failures, 0, false⟩ now))
        (breaker.circuitAfterFailure ⟨failures, 0, false⟩ .closed probe now) 0 := by
    simp only [CircuitBreaker.failed, circuitAfterFailure, below, idle, decide_false, Bool.or_false,
      if_false, Bool.false_eq_true]
    exact .closed _
  have none_ (nothing : probes = 0) : probe = false := by
    by_contra probing
    exact known (by simpa using probing) nothing
  cases tracks with
  | untracked =>
    by_cases reached : breaker.failureThreshold ≤ 0 + 1
    · exact trips reached
    · exact counts (none_ rfl) reached
  | closed failures =>
    by_cases reached : breaker.failureThreshold ≤ failures + 1
    · exact trips reached
    · exact counts (none_ rfl) reached
  | cooling isOpen reached => exact trips (by omega)
  | probing isOpen reached => exact trips (by omega)

end

theorem Tracks.admits {state : BreakerState} (now : Nat)
    (tracks : Tracks breaker (state.get? policyHash) circuit probes) :
    (circuit = .closed ∧ canProceed state now policyHash = (true, state)) ∨
    (∃ cooledAt admitted, circuit = .tripped cooledAt ∧ cooledAt ≤ now ∧ probes = 0 ∧
      canProceed state now policyHash = (true, state.set policyHash admitted) ∧
      Tracks breaker (some admitted) circuit 1) ∨ canProceed state now policyHash = (false, state) := by
  unfold canProceed
  generalize state.get? policyHash = entry at tracks
  cases tracks with
  | untracked => exact .inl ⟨rfl, rfl⟩
  | closed failures => exact .inl ⟨rfl, rfl⟩
  | @cooling failures openUntil isOpen reached =>
    by_cases cooled : openUntil ≤ now
    · refine .inr (.inl ⟨openUntil, ⟨failures, openUntil, true⟩, rfl, cooled, rfl, ?_, ?_⟩)
      · simp [isOpen, cooled]
      · exact .probing isOpen reached
    · exact .inr (.inr (by simp [isOpen, cooled]))
  | @probing failures openUntil isOpen reached =>
    exact .inr (.inr (by simp [isOpen]))

abbrev Tracked (breaker : CircuitBreaker) (calls : JudgeCalls) (policyHash : String) : Prop :=
  Tracks breaker (calls.state.get? policyHash) (calls.circuits policyHash)
    (probesOf policyHash calls.inFlight)

theorem probesOf_append (policyHash : String) (inFlight : List JudgeCall) (call : JudgeCall) :
    probesOf policyHash (inFlight ++ [call]) = probesOf policyHash inFlight +
      if call.policyHash = policyHash ∧ call.probe = true then 1 else 0 := by
  simp [probesOf, List.countP_append, List.countP_cons]

variable {inFlight : List JudgeCall} {call : JudgeCall} {place : Nat}

theorem probesOf_erase (found : inFlight[place]? = some call) (policyHash : String) :
    probesOf policyHash inFlight = probesOf policyHash (inFlight.eraseIdx place) +
      if call.policyHash = policyHash ∧ call.probe = true then 1 else 0 := by
  obtain ⟨bound, rfl⟩ := List.getElem?_eq_some_iff.mp found
  have split := (List.getElem_cons_eraseIdx_perm bound).countP_eq
    fun call => call.policyHash == policyHash && call.probe
  rw [List.countP_cons] at split
  simpa [probesOf] using split.symm

theorem probesOf_elsewhere
    (found : inFlight[place]? = some call) (apart : policyHash ≠ call.policyHash) :
    probesOf policyHash (inFlight.eraseIdx place) = probesOf policyHash inFlight := by
  have before := probesOf_erase found policyHash
  rw [if_neg fun same => apart same.1.symm] at before
  omega

theorem probesOf_ne_zero (found : inFlight[place]? = some call) (probe : call.probe = true) :
    probesOf call.policyHash inFlight ≠ 0 := by
  have before := probesOf_erase found call.policyHash
  rw [if_pos ⟨rfl, probe⟩] at before
  omega

theorem Tracked.reported (tracks : Tracked breaker calls call.policyHash) (found : calls.inFlight[place]? = some call)
    (alone : call.probe = true ∨ probesOf call.policyHash calls.inFlight = 0) :
    probesOf call.policyHash (calls.inFlight.eraseIdx place) = 0 := by
  have before := probesOf_erase found call.policyHash
  rcases alone with probe | nothing
  · rw [if_pos ⟨rfl, probe⟩] at before
    have atMost := tracks.probes_le
    omega
  · omega

theorem Tracked.asks {now : Nat} {asked : String} (tracks : ∀ policyHash, Tracked breaker calls policyHash)
    (stepped : breaker.step calls (.asks asked now) = some after) (policyHash : String) :
    Tracked breaker after policyHash := by
  have own := tracks policyHash
  simp only [step] at stepped
  split at stepped
  · contradiction
  · rcases (tracks asked).admits now with ⟨closed, admitted⟩ |
      ⟨cooledAt, entry, tripped, -, idle, admitted, probing⟩ | refused
    · rw [admitted] at stepped
      cases stepped
      have inFlight : probesOf policyHash (calls.inFlight ++
          [⟨asked, (calls.circuits asked).isTripped⟩]) = probesOf policyHash calls.inFlight := by
        rw [probesOf_append, closed]
        simp [Circuit.isTripped]
      simpa only [Tracked, inFlight] using own
    · rw [admitted] at stepped
      cases stepped
      simp only [Tracked, probesOf_append, tripped, Circuit.isTripped, and_true]
      by_cases same : asked = policyHash
      · subst same
        rw [if_pos rfl, idle, OrderedMap.get?_set_same]
        exact probing
      · rw [if_neg same, OrderedMap.get?_set_other (Ne.symm same)]
        exact own
    · rw [refused] at stepped
      cases stepped
      exact own

theorem Tracked.succeeds (tracks : ∀ policyHash, Tracked breaker calls policyHash)
    (permitted : undisturbed calls (.succeeds place))
    (stepped : breaker.step calls (.succeeds place) = some after) (policyHash : String) :
    Tracked breaker after policyHash := by
  simp only [step] at stepped
  split at stepped
  · contradiction
  · rename_i call found
    cases stepped
    have lawful : call.probe = true ∨ isTripped calls.state call.policyHash = false := by
      simpa only [undisturbed, found, Option.all_some, maySucceed, Bool.or_eq_true, Bool.not_eq_true'] using permitted
    by_cases same : policyHash = call.policyHash
    · subst same
      have own := tracks call.policyHash
      simp only [Tracked, onSuccess, Function.update_self, OrderedMap.get?_delete_same]
      rcases lawful with probe | closed
      · rw [if_pos probe, own.reported found (.inl probe)]
        exact .untracked
      · obtain ⟨circuit, nothing⟩ := own.closed_of closed
        rw [circuit, ite_self, own.reported found (.inr nothing)]
        exact .untracked
    · simp only [Tracked, onSuccess, Function.update_of_ne same, OrderedMap.get?_delete_other same,
        probesOf_elsewhere found same]
      exact tracks policyHash

theorem get?_onFailure_same (state : BreakerState) (now : Nat) (policyHash : String) :
    (breaker.onFailure state now policyHash).get? policyHash =
      some (breaker.failed ((state.get? policyHash).getD ⟨0, 0, false⟩) now) :=
  OrderedMap.get?_set_same _ _ _

theorem get?_onFailure_other {state : BreakerState} {other : String} (now : Nat) (apart : policyHash ≠ other) :
    (breaker.onFailure state now other).get? policyHash =
      if evicted state other = some policyHash then none else state.get? policyHash := by
  rw [onFailure, OrderedMap.get?_set_other apart]
  cases room : evicted state other with
  | none => simp
  | some oldest =>
    by_cases same : oldest = policyHash
    · subst same
      simp
    · simp [OrderedMap.get?_delete_other (Ne.symm same), same]

theorem Tracked.fails {place now : Nat} (tracks : ∀ policyHash, Tracked breaker calls policyHash)
    (permitted : undisturbed calls (.fails place now))
    (stepped : breaker.step calls (.fails place now) = some after) (policyHash : String) :
    Tracked breaker after policyHash := by
  simp only [step] at stepped
  split at stepped
  · contradiction
  · rename_i call found
    split at stepped
    · contradiction
    · rename_i later
      cases stepped
      obtain ⟨alone, room⟩ : (call.probe = true ∨ isProbing calls.state call.policyHash = false) ∧
          ∀ oldest ∈ evicted calls.state call.policyHash, isTripped calls.state oldest = false := by
        simpa [undisturbed, found, mayFail, Option.all_eq_true] using permitted
      by_cases same : policyHash = call.policyHash
      · subst same
        have own := tracks call.policyHash
        simp only [Tracked, Function.update_self, get?_onFailure_same]
        rw [own.reported found (alone.imp_right own.idle_of)]
        exact own.failed later fun probe => probesOf_ne_zero found probe
      · simp only [Tracked, Function.update_of_ne same, get?_onFailure_other now same, probesOf_elsewhere found same]
        split
        · rename_i gone
          obtain ⟨circuit, nothing⟩ := (tracks policyHash).closed_of (room policyHash gone)
          rw [circuit, nothing]
          exact .untracked
        · exact tracks policyHash

def AllTracked (breaker : CircuitBreaker) (calls : JudgeCalls) : Prop :=
  ∀ policyHash, Tracked breaker calls policyHash

theorem tracked (reached : breaker.judge.Reachable undisturbed calls) : AllTracked breaker calls := by
  refine reached.invariant ?_ ?_
  · rintro calls ⟨fresh, closed, nothing⟩ policyHash
    rw [Tracked, fresh, closed, nothing]
    exact .untracked
  · intro calls event after _ tracks permitted stepped
    cases event with
    | asks asked now => exact Tracked.asks tracks stepped
    | succeeds place => exact Tracked.succeeds tracks permitted stepped
    | fails place now => exact Tracked.fails tracks permitted stepped

/-- In every run in which no outcome disturbs a tripped breaker and none is evicted, a call is
admitted while the circuit is tripped only when it has cooled down and no probe is in flight. -/
theorem one_probe_after_cooldown (reached : breaker.judge.Reachable undisturbed calls) (policyHash : String) :
    (∀ now cooledAt, calls.circuits policyHash = .tripped cooledAt →
      (canProceed calls.state now policyHash).1 = true → cooledAt ≤ now ∧ probesOf policyHash calls.inFlight = 0) ∧
    probesOf policyHash calls.inFlight ≤ 1 := by
  have tracks := tracked reached policyHash
  refine ⟨?_, tracks.probes_le⟩
  intro now cooledAt tripped admitted
  rcases tracks.admits now with ⟨closed, -⟩ | ⟨cooledThen, entry, isOpen, cooled, idle, -⟩ | refused
  · cases tripped.symm.trans closed
  · cases tripped.symm.trans isOpen
    exact ⟨cooled, idle⟩
  · rw [refused] at admitted
    cases admitted

section Runs

def hasty : CircuitBreaker where
  failureThreshold := 1
  cooldownMs := 10

def untried : JudgeCalls := ⟨.empty, fun _ => .closed, []⟩

theorem untried_starts : hasty.judge.starts untried := ⟨rfl, rfl, rfl⟩

/-- Two calls are admitted; the first trips the breaker until 12, and then the other succeeds. -/
def staleSuccess : List JudgeEvent :=
  [.asks "policy" 1, .asks "policy" 1, .fails 0 2, .succeeds 0]

def isAdmittedEarly (now : Nat) (calls : JudgeCalls) : Bool :=
  decide (calls.circuits "policy" = .tripped 12) && (canProceed calls.state now "policy").1

theorem admitted_before_cooldown : ¬ ∀ (calls : JudgeCalls) (policyHash : String),
    hasty.judge.Reachable unrestricted calls → ∀ now cooledAt, calls.circuits policyHash = .tripped cooledAt →
        (canProceed calls.state now policyHash).1 = true →
          cooledAt ≤ now ∧ probesOf policyHash calls.inFlight = 0 := by
  intro safe
  obtain ⟨calls, reached, tested⟩ := Machine.exists_of_replay hasty.judge unrestricted untried
    staleSuccess (isAdmittedEarly 4) untried_starts (by decide +kernel)
  simp only [isAdmittedEarly, Bool.and_eq_true, decide_eq_true_eq] at tested
  have cooled := (safe calls "policy" reached 4 12 tested.1 tested.2).1
  omega

/-- The first call fails at 2, a probe is admitted at 12, and the second call fails at 13; from 23 on
another probe is admitted though the first is in flight. -/
def staleFailure : List JudgeEvent :=
  [.asks "policy" 1, .asks "policy" 1, .fails 0 2, .asks "policy" 12, .fails 0 13, .asks "policy" 23]

example : (hasty.judge.replay unrestricted untried staleFailure).map
    (fun calls => probesOf "policy" calls.inFlight) = some 2 := by decide +kernel

/-- A probe that fails, and the next one. -/
def probed : List JudgeEvent :=
  [.asks "policy" 1, .fails 0 2, .asks "policy" 12, .fails 0 13, .asks "policy" 23]

theorem one_probe_after_cooldown_probed : ∃ calls : JudgeCalls,
    calls.circuits "policy" = .tripped 23 ∧ probesOf "policy" calls.inFlight = 1 ∧
      ((canProceed calls.state 30 "policy").1 = true → 23 ≤ 30 ∧ probesOf "policy" calls.inFlight = 0) := by
  obtain ⟨calls, reached, tested⟩ := Machine.exists_of_replay hasty.judge undisturbed untried probed
    (fun calls => decide (calls.circuits "policy" = .tripped 23) &&
      decide (probesOf "policy" calls.inFlight = 1)) untried_starts (by decide +kernel)
  simp only [Bool.and_eq_true, decide_eq_true_eq] at tested
  exact ⟨calls, tested.1, tested.2, (one_probe_after_cooldown reached "policy").1 30 23 tested.1⟩

end Runs

end CircuitBreaker

end Lobu.Proxy
