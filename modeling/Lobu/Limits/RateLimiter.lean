import Lobu.Foundation.Machine
import Lobu.Foundation.OrderedMap
import Lobu.Foundation.SlidingWindow

namespace Lobu.Limits

open Lobu.Foundation

/-! # The rate limiter

One pair of counters for each key, in memory.  Seconds are those of the clock since its epoch.
-/

structure RateLimitConfig where
  limit : ℚ
  windowSeconds : Nat
  errorMessage : Option String
  deriving DecidableEq

structure RateLimitResult where
  allowed : Bool
  count : Int
  limit : ℚ
  resetInSeconds : Int
  errorMessage : Option String

structure WindowState where
  prevCount : Nat
  currCount : Nat
  windowStart : Nat

abbrev WindowStates := OrderedMap String WindowState

/-- The counters of a key after one more call. -/
def WindowState.advance (windowSeconds currentWindow : Nat) : Option WindowState → WindowState
  | none => { prevCount := 0, currCount := 1, windowStart := currentWindow }
  | some state =>
    if currentWindow > state.windowStart + windowSeconds then
      { prevCount := 0, currCount := 1, windowStart := currentWindow }
    else if currentWindow > state.windowStart then
      { prevCount := state.currCount, currCount := 1, windowStart := currentWindow }
    else { state with currCount := state.currCount + 1 }

def effectiveCount (windowSeconds now : Nat) (state : WindowState) : ℚ :=
  let elapsed : Int := now - state.windowStart
  state.prevCount * max 0 (((windowSeconds - elapsed : Int) : ℚ) / windowSeconds) + state.currCount

/-- `config.errorMessage || ...` -/
def refusalMessage (config : RateLimitConfig) (resetInSeconds : Int) : String :=
  match config.errorMessage with
  | some message =>
    if message = "" then s!"Rate limit exceeded. Try again in {resetInSeconds} seconds." else message
  | none => s!"Rate limit exceeded. Try again in {resetInSeconds} seconds."

def checkLimit (windows : WindowStates) (key : String) (config : RateLimitConfig) (now : Nat) :
    WindowStates × RateLimitResult :=
  let currentWindow := now - now % config.windowSeconds
  let state := WindowState.advance config.windowSeconds currentWindow (windows.get? key)
  let elapsed : Int := now - state.windowStart
  let effective := effectiveCount config.windowSeconds now state
  let allowed := decide (effective ≤ config.limit)
  let resetInSeconds := max 0 (config.windowSeconds - elapsed)
  (windows.set key state,
    { allowed := allowed
      count := effective.ceil
      limit := config.limit
      resetInSeconds := resetInSeconds
      errorMessage := if allowed then none else some (refusalMessage config resetInSeconds) })

def defaultMaxAgeSeconds : Int := 86400

/-- Deletes what is older than the cutoff, and counts it. -/
def cleanup (windows : WindowStates) (now : Nat) (maxAgeSeconds : Int) : WindowStates × Nat :=
  let cutoff := now - maxAgeSeconds
  let kept := windows.filter fun _ state => !decide ((state.windowStart : Int) < cutoff)
  (kept, windows.size - kept.size)

/-- The limiter, the last second at which it was used, and the calls made so far with their
answers, the latest first. -/
structure Usage where
  windows : WindowStates
  clock : Nat
  calls : List (String × Call)

inductive Action where
  | checkLimit (key : String) (config : RateLimitConfig) (now : Nat)
  | cleanup (now : Nat)

def Usage.initial : Usage where
  windows := OrderedMap.empty
  clock := 0
  calls := []

/-- The clock does not go back. -/
def Usage.act (usage : Usage) : Action → Option Usage
  | .checkLimit key config now =>
    if usage.clock ≤ now then
      some { windows := (checkLimit usage.windows key config now).1
             clock := now
             calls := (key, ⟨now, (checkLimit usage.windows key config now).2.allowed⟩) :: usage.calls }
    else none
  | .cleanup now =>
    if usage.clock ≤ now then
      some { usage with
        windows := (cleanup usage.windows now defaultMaxAgeSeconds).1
        clock := now }
    else none

def limiter : Machine Usage Action where
  starts usage := usage = Usage.initial
  step := Usage.act

/-- A key is only ever used with one configuration; the others are free. -/
def usesOnly (key : String) (config : RateLimitConfig) : Discipline Usage Action
  | _, .checkLimit other given _ => other = key → given = config
  | _, .cleanup _ => True

instance (key : String) (config : RateLimitConfig) (usage : Usage) (action : Action) :
    Decidable (usesOnly key config usage action) := by
  cases action with
  | checkLimit other given _ => exact inferInstanceAs (Decidable (other = key → given = config))
  | cleanup _ => exact inferInstanceAs (Decidable True)

def callsOf (key : String) (calls : List (String × Call)) : List Call :=
  calls.filterMap fun call => if call.1 = key then some call.2 else none

@[simp] theorem callsOf_cons_same (key : String) (call : Call) (calls : List (String × Call)) :
    callsOf key ((key, call) :: calls) = call :: callsOf key calls := by
  simp [callsOf]

theorem callsOf_cons_other {key other : String} (apart : other ≠ key) (call : Call)
    (calls : List (String × Call)) : callsOf key ((other, call) :: calls) = callsOf key calls := by
  simp [callsOf, apart]

section Counters

variable {windowSeconds now clock : Nat} {calls : List Call} {entry : Option WindowState}
  {windows : WindowStates} {key : String} {config : RateLimitConfig}

/-- The counters of a key are those of its calls in the window of the last one and in the window
before; those that were cleaned up are of windows long past. -/
def Counted (windowSeconds clock : Nat) (calls : List Call) : Option WindowState → Prop
  | none => ∀ call ∈ calls, windowSeconds * (call.second / windowSeconds) + 86400 < clock
  | some state => ∃ window, state.windowStart = windowSeconds * window ∧
      windowSeconds * window ≤ clock ∧ (∀ call ∈ calls, call.second / windowSeconds ≤ window) ∧
      state.currCount = Call.made windowSeconds window calls ∧
      state.prevCount = Call.madeBefore windowSeconds window calls

theorem made_of_earlier {window : Nat} (past : ∀ call ∈ calls, call.second / windowSeconds < window) :
    Call.made windowSeconds window calls = 0 := by
  rw [Call.made, List.countP_eq_zero]
  intro call member
  have := past call member
  simp only [decide_eq_true_eq]
  omega

theorem madeBefore_of_earlier {window : Nat} (past : ∀ call ∈ calls, call.second / windowSeconds + 1 < window) :
    Call.madeBefore windowSeconds window calls = 0 := by
  rw [Call.madeBefore, List.countP_eq_zero]
  intro call member
  have := past call member
  simp only [decide_eq_true_eq]
  omega

theorem madeBefore_succ (window : Nat) :
    Call.madeBefore windowSeconds (window + 1) calls = Call.made windowSeconds window calls := by
  simp [Call.madeBefore, Call.made]

theorem sub_mod_eq : now - now % windowSeconds = windowSeconds * (now / windowSeconds) := by
  have split := Nat.div_add_mod now windowSeconds
  omega

theorem cleaned_before (positive : 1 ≤ windowSeconds) (short : windowSeconds ≤ 3600)
    (cleaned : Counted windowSeconds clock calls none) (later : clock ≤ now) :
    ∀ call ∈ calls, call.second / windowSeconds + 1 < now / windowSeconds := by
  intro call member
  have past := cleaned call member
  have present : now < windowSeconds * (now / windowSeconds) + windowSeconds :=
    Nat.lt_mul_div_succ now positive
  have begins : windowSeconds * (call.second / windowSeconds + 1) < windowSeconds * (now / windowSeconds) := by
    rw [Nat.mul_succ]
    omega
  exact Nat.lt_of_mul_lt_mul_left begins

theorem advance_counts (positive : 1 ≤ windowSeconds) (short : windowSeconds ≤ 3600)
    (counted : Counted windowSeconds clock calls entry) (later : clock ≤ now) :
    WindowState.advance windowSeconds (now - now % windowSeconds) entry =
      { prevCount := Call.madeBefore windowSeconds (now / windowSeconds) calls
        currCount := Call.made windowSeconds (now / windowSeconds) calls + 1
        windowStart := windowSeconds * (now / windowSeconds) } := by
  rw [sub_mod_eq]
  cases entry with
  | none =>
    have past := cleaned_before positive short counted later
    rw [made_of_earlier fun call member => Nat.lt_of_succ_lt (past call member), madeBefore_of_earlier past]
    rfl
  | some state =>
    obtain ⟨window, started, begun, last, current, previous⟩ := counted
    have present : window ≤ now / windowSeconds := by
      rw [Nat.le_div_iff_mul_le positive, Nat.mul_comm]
      omega
    simp only [WindowState.advance, started]
    by_cases skipped : window + 1 < now / windowSeconds
    · have passed := Nat.mul_lt_mul_of_pos_left skipped positive
      rw [Nat.mul_succ] at passed
      rw [if_pos passed, made_of_earlier fun call member => by have := last call member; omega,
        madeBefore_of_earlier fun call member => by have := last call member; omega]
    · by_cases rolled : window < now / windowSeconds
      · have next : now / windowSeconds = window + 1 := by omega
        rw [next, if_neg (by rw [Nat.mul_succ]; omega), if_pos (by rw [Nat.mul_succ]; omega),
          made_of_earlier fun call member => by have := last call member; omega, madeBefore_succ,
          ← current]
      · have same : now / windowSeconds = window := by omega
        rw [same, if_neg (by omega), if_neg (by omega), ← current, ← previous, ← started]

theorem effectiveCount_eq (positive : 1 ≤ windowSeconds) (previous current : Nat) :
    effectiveCount windowSeconds now
        { prevCount := previous, currCount := current,
          windowStart := windowSeconds * (now / windowSeconds) } =
      previous * (((windowSeconds - now % windowSeconds : Nat) : ℚ) / windowSeconds) + current := by
  have below := Nat.mod_lt now positive
  have split := Nat.div_add_mod now windowSeconds
  have rest : (windowSeconds : Int) - ((now : Int) - (windowSeconds * (now / windowSeconds) : Nat)) =
      (windowSeconds - now % windowSeconds : Nat) := by omega
  simp only [effectiveCount]
  rw [rest, max_eq_right (by positivity)]
  push_cast
  rfl

theorem allowed_iff (positive : 1 ≤ config.windowSeconds) (short : config.windowSeconds ≤ 3600)
    (counted : Counted config.windowSeconds clock calls (windows.get? key)) (later : clock ≤ now) :
    (checkLimit windows key config now).2.allowed = true ↔
      Call.estimate config.windowSeconds now calls ≤ config.limit := by
  simp only [checkLimit, advance_counts positive short counted later, effectiveCount_eq positive,
    decide_eq_true_eq, Call.estimate]
  push_cast
  rfl

theorem counted_checkLimit (positive : 1 ≤ config.windowSeconds) (short : config.windowSeconds ≤ 3600)
    (counted : Counted config.windowSeconds clock calls (windows.get? key)) (later : clock ≤ now)
    (past : ∀ call ∈ calls, call.second ≤ clock) (allowed : Bool) :
    Counted config.windowSeconds now (⟨now, allowed⟩ :: calls)
      ((checkLimit windows key config now).1.get? key) := by
  simp only [checkLimit, OrderedMap.get?_set_same, advance_counts positive short counted later]
  refine ⟨now / config.windowSeconds, rfl, Nat.mul_div_le _ _, ?_, ?_, ?_⟩
  · intro call member
    rcases List.mem_cons.mp member with rfl | before
    · exact Nat.le_refl _
    · exact Nat.div_le_div_right ((past call before).trans later)
  · rw [Call.made_cons, if_pos rfl]
  · simp only [Call.madeBefore_cons, Nat.succ_ne_self, if_false, Nat.add_zero]

theorem counted_later (counted : Counted windowSeconds clock calls entry) (later : clock ≤ now) :
    Counted windowSeconds now calls entry := by
  cases entry with
  | none => exact fun call member => (counted call member).trans_le later
  | some state =>
    obtain ⟨window, started, begun, rest⟩ := counted
    exact ⟨window, started, begun.trans later, rest⟩

theorem counted_cleanup (counted : Counted windowSeconds clock calls (windows.get? key)) (later : clock ≤ now) :
    Counted windowSeconds now calls ((cleanup windows now defaultMaxAgeSeconds).1.get? key) := by
  simp only [cleanup, OrderedMap.get?_filter]
  generalize windows.get? key = entry at counted
  cases entry with
  | none => exact counted_later counted later
  | some state =>
    by_cases stale : (state.windowStart : Int) < now - defaultMaxAgeSeconds
    · rw [Option.filter_some, if_neg (by rw [decide_eq_true stale]; decide)]
      obtain ⟨window, started, _, last, _⟩ := counted
      intro call member
      have order := Nat.mul_le_mul_left windowSeconds (last call member)
      rw [defaultMaxAgeSeconds, started] at stale
      omega
    · rw [Option.filter_some, if_pos (by rw [decide_eq_false stale]; rfl)]
      exact counted_later counted later

end Counters

section Runs

variable {key : String} {config : RateLimitConfig} {usage after : Usage} {action : Action}

structure Usage.Kept (key : String) (config : RateLimitConfig) (usage : Usage) : Prop where
  past : ∀ call ∈ callsOf key usage.calls, call.second ≤ usage.clock
  counted : Counted config.windowSeconds usage.clock (callsOf key usage.calls) (usage.windows.get? key)
  judged : Call.Judged config.windowSeconds config.limit (callsOf key usage.calls)

theorem Usage.kept_initial : Usage.Kept key config Usage.initial where
  past _ member := by cases member
  counted _ member := by cases member
  judged := trivial

theorem Usage.Kept.act (positive : 1 ≤ config.windowSeconds) (short : config.windowSeconds ≤ 3600)
    (kept : usage.Kept key config) (permitted : usesOnly key config usage action)
    (moved : usage.act action = some after) : after.Kept key config := by
  cases action with
  | checkLimit other given now =>
    simp only [Usage.act] at moved
    split at moved
    · rename_i later
      cases moved
      by_cases same : other = key
      · cases same
        cases permitted rfl
        refine ⟨?_, ?_, ?_⟩
        · intro call member
          rw [callsOf_cons_same] at member
          rcases List.mem_cons.mp member with rfl | before
          · exact Nat.le_refl _
          · exact (kept.past call before).trans later
        · rw [callsOf_cons_same]
          exact counted_checkLimit positive short kept.counted later kept.past _
        · rw [callsOf_cons_same]
          exact ⟨fun before member => (kept.past before member).trans later,
            allowed_iff positive short kept.counted later, kept.judged⟩
      · refine ⟨?_, ?_, ?_⟩
        · intro call member
          rw [callsOf_cons_other same] at member
          exact (kept.past call member).trans later
        · rw [callsOf_cons_other same]
          simp only [Limits.checkLimit, OrderedMap.get?_set_other (Ne.symm same)]
          exact counted_later kept.counted later
        · rw [callsOf_cons_other same]
          exact kept.judged
    · cases moved
  | cleanup now =>
    simp only [Usage.act] at moved
    split at moved
    · rename_i later
      cases moved
      exact ⟨fun call member => (kept.past call member).trans later,
        counted_cleanup kept.counted later, kept.judged⟩
    · cases moved

theorem Usage.kept_of_reachable (positive : 1 ≤ config.windowSeconds) (short : config.windowSeconds ≤ 3600)
    (reached : limiter.Reachable (usesOnly key config) usage) : usage.Kept key config := by
  refine reached.invariant ?_ ?_
  · intro _ begins
    exact begins ▸ Usage.kept_initial
  · intro _ _ _ _ kept permitted moved
    exact kept.act positive short permitted moved

/-- In every run in which a key is used with one configuration: in an aligned window no more calls
are let through than the limit, in any stretch as long as a window fewer than twice the limit, and
a call is turned away only when more calls than the limit were made until then, itself among them,
in its own window and the one before. -/
theorem checkLimit_bounds (atLeastOne : 1 ≤ config.limit) (positive : 1 ≤ config.windowSeconds)
    (short : config.windowSeconds ≤ 3600) (reached : limiter.Reachable (usesOnly key config) usage) :
    (∀ window : Nat, (Call.admitted (config.windowSeconds * window)
      (config.windowSeconds * window + config.windowSeconds) (callsOf key usage.calls) : ℚ) ≤ config.limit) ∧
    (∀ start : Nat, (Call.admitted start (start + config.windowSeconds)
      (callsOf key usage.calls) : ℚ) < 2 * config.limit) ∧
    ∀ later call earlier, callsOf key usage.calls = later ++ call :: earlier → call.allowed = false →
        config.limit < (Call.made config.windowSeconds (call.second / config.windowSeconds) (call :: earlier) +
          Call.madeBefore config.windowSeconds (call.second / config.windowSeconds) (call :: earlier) : Nat) := by
  have judged := (Usage.kept_of_reachable positive short reached).judged
  refine ⟨?_, ?_, ?_⟩
  · exact Call.admitted_aligned positive (by linarith) judged
  · exact Call.admitted_sliding positive atLeastOne judged
  · intro later call earlier whole refused
    rw [whole] at judged
    exact Call.refused_crowded judged.of_append refused

/-- Two calls of a minute, and a third one as the next minute begins, after another key was used
and a cleanup. -/
theorem checkLimit_bounds_minute : ∃ usage : Usage,
    (callsOf "ip" usage.calls).map Call.allowed = [false, true, true] ∧
    (Call.admitted (60 * 0) (60 * 0 + 60) (callsOf "ip" usage.calls) : ℚ) ≤ 2 ∧
    (Call.admitted 30 90 (callsOf "ip" usage.calls) : ℚ) < 2 * 2 ∧
    ∀ call earlier, callsOf "ip" usage.calls = call :: earlier → call.allowed = false →
      (2 : ℚ) < (Call.made 60 (call.second / 60) (call :: earlier) +
        Call.madeBefore 60 (call.second / 60) (call :: earlier) : Nat) := by
  obtain ⟨usage, reached, tested⟩ := Machine.exists_of_replay limiter (usesOnly "ip" ⟨2, 60, none⟩) Usage.initial
    [.checkLimit "ip" ⟨2, 60, none⟩ 58, .checkLimit "other" ⟨1, 3600, none⟩ 58,
      .checkLimit "ip" ⟨2, 60, none⟩ 59, .cleanup 60, .checkLimit "ip" ⟨2, 60, none⟩ 60]
    (fun usage => (callsOf "ip" usage.calls).map Call.allowed == [false, true, true]) rfl
    (by decide +kernel)
  have bounds := checkLimit_bounds (by decide) (by decide) (by decide) reached
  refine ⟨usage, eq_of_beq tested, bounds.1 0, bounds.2.1 30, ?_⟩
  intro call earlier whole refused
  exact bounds.2.2 [] call earlier whole refused

/-- A key is answered by the times of its own calls alone: runs that differ in the calls of other keys
and in the cleanups answer it alike. -/
theorem checkLimit_apart {other : Usage} {now : Nat} (positive : 1 ≤ config.windowSeconds)
    (short : config.windowSeconds ≤ 3600) (reached : limiter.Reachable (usesOnly key config) usage)
    (otherReached : limiter.Reachable (usesOnly key config) other)
    (same : (callsOf key usage.calls).map Call.second = (callsOf key other.calls).map Call.second)
    (later : usage.clock ≤ now) (otherLater : other.clock ≤ now) :
    (checkLimit usage.windows key config now).2 = (checkLimit other.windows key config now).2 := by
  have counts (test : Nat → Bool) :
      (callsOf key usage.calls).countP (test ∘ Call.second) = (callsOf key other.calls).countP (test ∘ Call.second) := by
    rw [← List.countP_map, same, List.countP_map]
  have made (window : Nat) : Call.made config.windowSeconds window (callsOf key usage.calls) =
      Call.made config.windowSeconds window (callsOf key other.calls) :=
    counts fun second => decide (second / config.windowSeconds = window)
  have madeBefore (window : Nat) : Call.madeBefore config.windowSeconds window (callsOf key usage.calls) =
      Call.madeBefore config.windowSeconds window (callsOf key other.calls) :=
    counts fun second => decide (second / config.windowSeconds + 1 = window)
  have counted := (Usage.kept_of_reachable positive short reached).counted
  have otherCounted := (Usage.kept_of_reachable positive short otherReached).counted
  simp only [checkLimit, advance_counts positive short counted later,
    advance_counts positive short otherCounted otherLater, made, madeBefore]

/-- After another key and a cleanup, and without them. -/
theorem checkLimit_apart_cleaned : ∃ usage other : Usage, (callsOf "ip" usage.calls).map Call.second = [9] ∧
    (checkLimit usage.windows "ip" ⟨2, 60, none⟩ 90000).2 = (checkLimit other.windows "ip" ⟨2, 60, none⟩ 90000).2 := by
  have run (actions : List Action) := Machine.exists_of_replay limiter (usesOnly "ip" ⟨2, 60, none⟩) Usage.initial
    actions (fun usage => (callsOf "ip" usage.calls).map Call.second == [9] && usage.clock ≤ 90000) rfl
  obtain ⟨usage, reached, tested⟩ :=
    run [.checkLimit "ip" ⟨2, 60, none⟩ 9, .checkLimit "other" ⟨1, 60, none⟩ 9, .cleanup 90000] (by decide +kernel)
  obtain ⟨other, otherReached, otherTested⟩ := run [.checkLimit "ip" ⟨2, 60, none⟩ 9] (by decide +kernel)
  simp only [Bool.and_eq_true, beq_iff_eq, decide_eq_true_eq] at tested otherTested
  exact ⟨usage, other, tested.1, checkLimit_apart (by decide) (by decide) reached otherReached
    (tested.1.trans otherTested.1.symm) tested.2 otherTested.2⟩

end Runs

end Lobu.Limits
