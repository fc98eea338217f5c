import Mathlib.Logic.Relation

namespace Lobu.Foundation

/-! # Guarded machines

A machine is an executable guarded step: `step state event` is `some after`
when the event is enabled and `none` otherwise.  Nondeterminism lives in the
events, so a run is a list of events and a concrete run can be replayed.

Many results hold only for runs in which some events happen in suitable states.
A `Discipline` names those states; `Reachable` and `Later` are relative to one.
-/

universe u v w

/-- Which events a group of results lets happen in which states. -/
abbrev Discipline (σ : Type u) (ε : Type v) := σ → ε → Prop

/-- The discipline that rules nothing out. -/
abbrev unrestricted {σ : Type u} {ε : Type v} : Discipline σ ε := fun _ _ => True

structure Machine (σ : Type u) (ε : Type v) where
  starts : σ → Prop
  step : σ → ε → Option σ

namespace Machine

variable {σ : Type u} {ε : Type v} {machine : Machine σ ε}
variable {allowed stricter : Discipline σ ε}

/-- One enabled and allowed step, its event forgotten. -/
def Moves (machine : Machine σ ε) (allowed : Discipline σ ε) (before after : σ) : Prop :=
  ∃ event, allowed before event ∧ machine.step before event = some after

/-- The states of the runs that begin in a starting state. -/
inductive Reachable (machine : Machine σ ε) (allowed : Discipline σ ε) : σ → Prop where
  | start (begins : machine.starts state) : Reachable machine allowed state
  | step (reached : Reachable machine allowed before) (permitted : allowed before event)
      (moved : machine.step before event = some after) : Reachable machine allowed after

/-- The states of the runs that begin in a given state. -/
abbrev Later (machine : Machine σ ε) (allowed : Discipline σ ε) : σ → σ → Prop :=
  Relation.ReflTransGen (machine.Moves allowed)

theorem Reachable.moves (reached : machine.Reachable allowed before)
    (moved : machine.Moves allowed before after) : machine.Reachable allowed after := by
  obtain ⟨event, permitted, stepped⟩ := moved
  exact .step reached permitted stepped

theorem Reachable.later (reached : machine.Reachable allowed before)
    (later : machine.Later allowed before after) : machine.Reachable allowed after := by
  induction later with
  | refl => exact reached
  | tail _ moved ih => exact ih.moves moved

theorem Reachable.mono (weaken : ∀ state event, stricter state event → allowed state event)
    (reached : machine.Reachable stricter state) : machine.Reachable allowed state := by
  induction reached with
  | start begins => exact .start begins
  | step _ permitted moved ih => exact .step ih (weaken _ _ permitted) moved

theorem Later.mono (weaken : ∀ state event, stricter state event → allowed state event)
    (later : machine.Later stricter before after) : machine.Later allowed before after := by
  induction later with
  | refl => exact .refl
  | tail _ moved ih =>
    obtain ⟨event, permitted, stepped⟩ := moved
    exact .tail ih ⟨event, weaken _ _ permitted, stepped⟩

/-- The invariant rule: what holds at the start and survives every allowed step
holds of every reachable state.  The step may use that its source is reachable. -/
theorem Reachable.invariant {property : σ → Prop} (initially : ∀ state, machine.starts state → property state)
    (preserved : ∀ before event after, machine.Reachable allowed before → property before →
      allowed before event → machine.step before event = some after → property after)
    (reached : machine.Reachable allowed state) : property state := by
  induction reached with
  | start begins => exact initially _ begins
  | step reached permitted moved ih => exact preserved _ _ _ reached ih permitted moved

/-- A transitive relation that every step from a reachable state satisfies
relates a reachable state to everything later. -/
theorem Later.related (relation : σ → σ → Prop) (reflexive : ∀ state, relation state state)
    (transitive : ∀ first second third, relation first second → relation second third → relation first third)
    (stepwise : ∀ before event after, machine.Reachable allowed before →
      allowed before event → machine.step before event = some after → relation before after)
    (reached : machine.Reachable allowed before) (later : machine.Later allowed before after) :
    relation before after := by
  induction later with
  | refl => exact reflexive _
  | tail earlier moved ih =>
    obtain ⟨event, permitted, stepped⟩ := moved
    exact transitive _ _ _ ih (stepwise _ _ _ (reached.later earlier) permitted stepped)

/-- The states a run has gone through, the latest first. -/
inductive History (machine : Machine σ ε) (allowed : Discipline σ ε) : List σ → Prop where
  | start (begins : machine.starts state) : History machine allowed [state]
  | step (run : History machine allowed (before :: earlier)) (permitted : allowed before event)
      (moved : machine.step before event = some after) :
      History machine allowed (after :: before :: earlier)

/-- The invariant rule for properties of the whole past. -/
theorem History.invariant (property : List σ → Prop) (initially : ∀ state, machine.starts state → property [state])
    (preserved : ∀ before earlier event after, machine.History allowed (before :: earlier) →
      property (before :: earlier) → allowed before event → machine.step before event = some after →
        property (after :: before :: earlier)) {history : List σ}
    (run : machine.History allowed history) : property history := by
  induction run with
  | start begins => exact initially _ begins
  | step run permitted moved ih => exact preserved _ _ _ _ run ih permitted moved

section Replay

variable [∀ state event, Decidable (allowed state event)]

/-- Replay a list of events, refusing disabled and disallowed ones. -/
def replay (machine : Machine σ ε) (allowed : Discipline σ ε)
    [∀ state event, Decidable (allowed state event)] : σ → List ε → Option σ
  | state, [] => some state
  | state, event :: events =>
    if allowed state event then
      match machine.step state event with
      | none => none
      | some after => machine.replay allowed after events
    else none

theorem later_of_replay {events : List ε} (replayed : machine.replay allowed before events = some after) :
    machine.Later allowed before after := by
  induction events generalizing before with
  | nil =>
    cases replayed
    exact .refl
  | cons event events ih =>
    simp only [Machine.replay] at replayed
    split at replayed
    · rename_i permitted
      cases stepped : machine.step before event with
      | none => simp [stepped] at replayed
      | some next =>
        rw [stepped] at replayed
        exact .head ⟨event, permitted, stepped⟩ (ih replayed)
    · contradiction

/-- A replay that ends where `test` holds exhibits a later state of that kind. -/
theorem exists_later_of_replay (machine : Machine σ ε) (allowed : Discipline σ ε)
    [∀ state event, Decidable (allowed state event)] (state : σ) (events : List ε)
    (test : σ → Bool) (replayed : (machine.replay allowed state events).any test = true) :
    ∃ after, machine.Later allowed state after ∧ test after = true := by
  cases ended : machine.replay allowed state events with
  | none => simp [ended] at replayed
  | some after =>
    rw [ended] at replayed
    exact ⟨after, later_of_replay ended, replayed⟩

/-- A replay that ends where `test` holds exhibits a reachable state of that kind. -/
theorem exists_of_replay (machine : Machine σ ε) (allowed : Discipline σ ε)
    [∀ state event, Decidable (allowed state event)] (state : σ) (events : List ε)
    (test : σ → Bool) (begins : machine.starts state)
    (replayed : (machine.replay allowed state events).any test = true) :
    ∃ after, machine.Reachable allowed after ∧ test after = true := by
  obtain ⟨after, later, tested⟩ := exists_later_of_replay machine allowed state events test replayed
  exact ⟨after, (Reachable.start begins).later later, tested⟩

/-- Replay a list of events and keep the states. -/
def trace (machine : Machine σ ε) (allowed : Discipline σ ε)
    [∀ state event, Decidable (allowed state event)] : σ → List σ → List ε → Option (List σ)
  | state, earlier, [] => some (state :: earlier)
  | state, earlier, event :: events =>
    if allowed state event then
      match machine.step state event with
      | none => none
      | some after => machine.trace allowed after (state :: earlier) events
    else none

theorem history_of_trace {events : List ε} {earlier history : List σ} {state : σ}
    (run : machine.History allowed (state :: earlier))
    (traced : machine.trace allowed state earlier events = some history) : machine.History allowed history := by
  induction events generalizing state earlier with
  | nil =>
    cases traced
    exact run
  | cons event events ih =>
    simp only [Machine.trace] at traced
    split at traced
    · rename_i permitted
      cases stepped : machine.step state event with
      | none => simp [stepped] at traced
      | some next =>
        rw [stepped] at traced
        exact ih (run.step permitted stepped) traced
    · contradiction

/-- A replay that ends before an enabled event with `test` refutes that every
enabled event has `property`. -/
theorem refutes_of_replay {property : σ → ε → Prop}
    [∀ state event, Decidable (property state event)] (state : σ) (events : List ε) (event : ε)
    (begins : machine.starts state)
    (replayed : (machine.replay allowed state events).any (fun after =>
      (machine.step after event).isSome && !decide (property after event)) = true) :
    ¬ ∀ before event after, machine.Reachable allowed before →
      machine.step before event = some after → property before event := by
  intro always
  obtain ⟨before, reached, tested⟩ := exists_of_replay machine allowed state events _ begins replayed
  simp only [Bool.and_eq_true, Bool.not_eq_true', decide_eq_false_iff_not] at tested
  obtain ⟨after, stepped⟩ := Option.isSome_iff_exists.mp tested.1
  exact tested.2 (always before event after reached stepped)

theorem refutes_later_of_replay {relation : σ → σ → Prop}
    [∀ before after, Decidable (relation before after)] (state : σ) (earlier later : List ε)
    (begins : machine.starts state)
    (replayed : (machine.replay allowed state earlier).any (fun before =>
      (machine.replay allowed before later).any
        fun after => !decide (relation before after)) = true) :
    ¬ ∀ before after, machine.Reachable allowed before → machine.Later allowed before after →
      relation before after := by
  intro always
  obtain ⟨before, reached, tested⟩ :=
    exists_of_replay machine allowed state earlier _ begins replayed
  obtain ⟨after, ended, unrelated⟩ := (Option.any_eq_true ..).mp tested
  simp only [Bool.not_eq_true', decide_eq_false_iff_not] at unrelated
  exact unrelated (always before after reached (later_of_replay ended))

end Replay

end Machine

end Lobu.Foundation
