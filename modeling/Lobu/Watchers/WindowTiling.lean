import Lobu.Foundation.Machine
import Lobu.Watchers.PendingWindow

namespace Lobu.Watchers

open Lobu.Foundation

/-! # Windows one after the other

A watcher that completes its pending window at any instants.
-/

section Tiles

variable {first : Int} {windows : List WindowDates} {window : WindowDates}

/-- The windows follow one another from `first` on. -/
def Tiles (first : Int) : List WindowDates → Prop
  | [] => True
  | window :: windows =>
    window.windowStart = first ∧ window.windowStart < window.windowEnd ∧
      Tiles window.windowEnd windows

def tiledUntil (first : Int) : List WindowDates → Int
  | [] => first
  | window :: windows => tiledUntil window.windowEnd windows

def covers (instant : Int) (window : WindowDates) : Bool :=
  decide (window.windowStart ≤ instant) && decide (instant < window.windowEnd)

theorem tiledUntil_append : tiledUntil first (windows ++ [window]) = window.windowEnd := by
  induction windows generalizing first with
  | nil => rfl
  | cons other windows ih => exact ih

theorem Tiles.append (tiles : Tiles first windows) (follows : window.windowStart = tiledUntil first windows)
    (proper : window.windowStart < window.windowEnd) : Tiles first (windows ++ [window]) := by
  induction windows generalizing first with
  | nil => exact ⟨follows, proper, trivial⟩
  | cons other windows ih =>
    obtain ⟨begins, otherProper, rest⟩ := tiles
    exact ⟨begins, otherProper, ih rest follows⟩

theorem Tiles.le (tiles : Tiles first windows) : first ≤ tiledUntil first windows := by
  induction windows generalizing first with
  | nil => exact le_rfl
  | cons window windows ih =>
    obtain ⟨begins, proper, rest⟩ := tiles
    have later := ih rest
    rw [tiledUntil]
    omega

theorem Tiles.covered (tiles : Tiles first windows) (instant : Int) :
    windows.countP (covers instant) = if first ≤ instant ∧ instant < tiledUntil first windows then 1 else 0 := by
  induction windows generalizing first with
  | nil =>
    rw [if_neg (by rw [tiledUntil]; omega)]
    rfl
  | cons window windows ih =>
    obtain ⟨begins, proper, rest⟩ := tiles
    have later := rest.le
    have reach : tiledUntil first (window :: windows) = tiledUntil window.windowEnd windows := rfl
    rw [List.countP_cons, ih rest, reach]
    simp only [covers, Bool.and_eq_true, decide_eq_true_eq]
    rcases lt_or_ge instant window.windowEnd with inWindow | afterWindow
    · rw [if_neg (by omega)]
      by_cases inside : window.windowStart ≤ instant
      · rw [if_pos ⟨inside, inWindow⟩, if_pos (by omega)]
      · rw [if_neg (by omega), if_neg (by omega)]
    · rw [if_neg (show ¬(window.windowStart ≤ instant ∧ instant < window.windowEnd) by omega)]
      by_cases inRest : instant < tiledUntil window.windowEnd windows
      · rw [if_pos ⟨afterWindow, inRest⟩, if_pos (by omega)]
      · rw [if_neg (by omega), if_neg (by omega)]

end Tiles

structure Completed where
  now : Int
  window : WindowDates

/-- The table, and the windows that have been completed, which nothing reads. -/
structure WatcherState where
  table : List WatcherWindow
  completed : List Completed

inductive WatcherEvent where
  | evaluated (now : Int)
  -- a row of another watcher, or of a rollup
  | inserted (row : WatcherWindow)

section Watching

variable (watcherId : Nat) (granularity : WatcherTimeGranularity)

/-- There is nothing left before the end of the current period. -/
def isCaughtUp (table : List WatcherWindow) (now : Int) : Bool :=
  (lastWindow table watcherId).any fun last =>
    decide (currentPeriodEnd now granularity ≤ last.windowEnd)

def complete (state : WatcherState) (now : Int) : WatcherState :=
  let window := computePendingWindow state.table watcherId granularity now
  { table := state.table ++ [⟨watcherId, window.windowStart, window.windowEnd, some false⟩]
    completed := state.completed ++ [⟨now, window⟩] }

def watcherStep (state : WatcherState) : WatcherEvent → Option WatcherState
  | .evaluated now =>
    if isCaughtUp watcherId granularity state.table now then none
    else some (complete watcherId granularity state now)
  | .inserted row =>
    if isLeafOf watcherId row then none else some { state with table := state.table ++ [row] }

/-- From a table whose last window ends where a period begins. -/
def watching (start : Int) : Machine WatcherState WatcherEvent where
  starts state := state.completed = [] ∧
    (lastWindow state.table watcherId).map WatcherWindow.windowEnd =
      some (periodStart granularity start)
  step := watcherStep watcherId granularity

end Watching

section Last

variable {watcherId : Nat} {table : List WatcherWindow} {row last : WatcherWindow}

theorem firstBy_endsLater_max {rows : List WatcherWindow} (found : firstBy endsLater rows = some last) :
    ∀ row ∈ rows, row.windowEnd ≤ last.windowEnd := by
  intro row present
  have least := firstBy_least (fun row => -row.windowEnd) (by simp [endsLater]) found row present
  omega

theorem firstBy_endsLater_append {rows : List WatcherWindow}
    (before : ∀ other ∈ rows, other.windowEnd < row.windowEnd) : firstBy endsLater (rows ++ [row]) = some row := by
  induction rows with
  | nil => rfl
  | cons head rows ih =>
    rw [List.cons_append, firstBy, ih fun other present => before other (.tail _ present)]
    simp [endsLater, before head (.head _)]

theorem lastWindow_append_leaf (leaf : isLeafOf watcherId row = true)
    (found : lastWindow table watcherId = some last) (later : last.windowEnd < row.windowEnd) :
    lastWindow (table ++ [row]) watcherId = some row := by
  rw [lastWindow, List.filter_append, List.filter_cons_of_pos leaf]
  refine firstBy_endsLater_append fun other present => ?_
  exact (firstBy_endsLater_max found other present).trans_lt later

theorem lastWindow_append_other (other : ¬ isLeafOf watcherId row = true) :
    lastWindow (table ++ [row]) watcherId = lastWindow table watcherId := by
  rw [lastWindow, List.filter_append, List.filter_cons_of_neg other, List.filter_nil, List.append_nil, lastWindow]

end Last

section Runs

variable {watcherId : Nat} {granularity : WatcherTimeGranularity} {start now : Int}
variable {state after : WatcherState} {event : WatcherEvent}

def WatcherState.windows (state : WatcherState) : List WindowDates :=
  state.completed.map Completed.window

/-- The period that comes next. -/
def nextPeriod (start : Int) (state : WatcherState) : Int := start + state.completed.length

structure Gapless (watcherId : Nat) (granularity : WatcherTimeGranularity) (start : Int)
    (state : WatcherState) : Prop where
  last : (lastWindow state.table watcherId).map WatcherWindow.windowEnd =
    some (periodStart granularity (nextPeriod start state))
  tiles : Tiles (periodStart granularity start) state.windows
  reaches : tiledUntil (periodStart granularity start) state.windows =
    periodStart granularity (nextPeriod start state)
  capped : ∀ done ∈ state.completed, done.window.windowEnd ≤ currentPeriodEnd done.now granularity

theorem isCaughtUp_iff {period next : Int} {table : List WatcherWindow}
    (last : (lastWindow table watcherId).map WatcherWindow.windowEnd = some (periodStart granularity next))
    (inside : InPeriod granularity period now) :
    isCaughtUp watcherId granularity table now = true ↔ period < next := by
  obtain ⟨row, found, ends⟩ := Option.map_eq_some_iff.mp last
  rw [isCaughtUp, found, Option.any_some, decide_eq_true_eq, currentPeriodEnd_eq inside, ends]
  constructor
  · intro reached
    by_contra upTo
    have starts := periodStart_lt granularity (show next < period + 1 by omega)
    omega
  · intro before
    exact periodStart_le granularity (by omega)

theorem computePendingWindow_of_last {period next : Int} {table : List WatcherWindow}
    (last : (lastWindow table watcherId).map WatcherWindow.windowEnd = some (periodStart granularity next))
    (inside : InPeriod granularity period now) (behind : next ≤ period) :
    computePendingWindow table watcherId granularity now =
      ⟨periodStart granularity next, periodStart granularity (next + 1)⟩ := by
  obtain ⟨row, found, ends⟩ := Option.map_eq_some_iff.mp last
  rw [computePendingWindow, found]
  simp only [ends]
  exact windowFrom_periodStart inside behind

theorem Gapless.complete {period : Int} (gapless : Gapless watcherId granularity start state)
    (inside : InPeriod granularity period now) (behind : nextPeriod start state ≤ period) :
    Gapless watcherId granularity start (complete watcherId granularity state now) := by
  have window := computePendingWindow_of_last gapless.last inside behind
  have later := periodStart_lt granularity (show nextPeriod start state < nextPeriod start state + 1 by omega)
  have next : nextPeriod start (Watchers.complete watcherId granularity state now) =
      nextPeriod start state + 1 := by
    simp only [nextPeriod, Watchers.complete, List.length_append, List.length_cons, List.length_nil]
    omega
  have windows : (Watchers.complete watcherId granularity state now).windows = state.windows ++
      [⟨periodStart granularity (nextPeriod start state),
        periodStart granularity (nextPeriod start state + 1)⟩] := by
    simp only [WatcherState.windows, Watchers.complete, window, List.map_append, List.map_cons, List.map_nil]
  obtain ⟨row, found, ends⟩ := Option.map_eq_some_iff.mp gapless.last
  refine ⟨?_, ?_, ?_, ?_⟩
  · rw [next]
    simp only [Watchers.complete, window]
    rw [lastWindow_append_leaf (by simp [isLeafOf]) found (by rw [ends]; exact later)]
    rfl
  · rw [windows]
    exact gapless.tiles.append gapless.reaches.symm later
  · rw [windows, tiledUntil_append, next]
  · intro done present
    rcases List.mem_append.mp present with earlier | fresh
    · exact gapless.capped done earlier
    · rw [List.mem_singleton.mp fresh]
      simp only [window, currentPeriodEnd_eq inside]
      exact periodStart_le granularity (by omega)

theorem Gapless.step (gapless : Gapless watcherId granularity start state)
    (moved : watcherStep watcherId granularity state event = some after) :
    Gapless watcherId granularity start after := by
  cases event with
  | evaluated now =>
    obtain ⟨period, -, inside⟩ := align_spec granularity now
    simp only [watcherStep] at moved
    split at moved
    · cases moved
    · rename_i behind
      cases moved
      rw [isCaughtUp_iff gapless.last inside] at behind
      exact gapless.complete inside (not_lt.mp behind)
  | inserted row =>
    simp only [watcherStep] at moved
    split at moved
    · cases moved
    · rename_i other
      cases moved
      refine ⟨?_, gapless.tiles, gapless.reaches, gapless.capped⟩
      rw [lastWindow_append_other other]
      exact gapless.last

theorem gapless_of_reachable (reached : (watching watcherId granularity start).Reachable unrestricted state) :
    Gapless watcherId granularity start state := by
  refine reached.invariant ?_ ?_
  · rintro state ⟨nothing, last⟩
    refine ⟨?_, ?_, ?_, ?_⟩
    · rw [last, nextPeriod, nothing]
      simp
    · rw [WatcherState.windows, nothing]
      trivial
    · rw [WatcherState.windows, nextPeriod, nothing]
      simp [tiledUntil]
    · rw [nothing]
      intro done present
      cases present
  · intro before event after _ gapless _ moved
    exact gapless.step moved

theorem Gapless.catches_up (gapless : Gapless watcherId granularity start state) (now : Int) :
    ∃ after, (watching watcherId granularity start).Later (fun _ event => event = .evaluated now)
      state after ∧ isCaughtUp watcherId granularity after.table now = true := by
  obtain ⟨period, -, inside⟩ := align_spec granularity now
  generalize missing : (period + 1 - nextPeriod start state).toNat = count
  induction count generalizing state with
  | zero =>
    refine ⟨state, .refl, ?_⟩
    rw [isCaughtUp_iff gapless.last inside]
    omega
  | succ count ih =>
    have behind : nextPeriod start state ≤ period := by omega
    have next : nextPeriod start (Watchers.complete watcherId granularity state now) =
        nextPeriod start state + 1 := by
      simp only [nextPeriod, Watchers.complete, List.length_append, List.length_cons, List.length_nil]
      omega
    obtain ⟨after, later, caughtUp⟩ := ih (gapless.complete inside behind) (by omega)
    refine ⟨after, .head ⟨.evaluated now, rfl, ?_⟩ later, caughtUp⟩
    have notYet : ¬ isCaughtUp watcherId granularity state.table now = true := by
      rw [isCaughtUp_iff gapless.last inside]
      omega
    exact if_neg notYet

end Runs

/-- The completed windows tile the time from the first period on, and a watcher catches up. -/
theorem completed_windows_tile (watcherId : Nat) (granularity : WatcherTimeGranularity) (start : Int)
    {state : WatcherState} (reached : (watching watcherId granularity start).Reachable unrestricted state) :
    Tiles (periodStart granularity start) state.windows ∧ (∀ instant, state.windows.countP (covers instant) =
        if periodStart granularity start ≤ instant ∧
          instant < tiledUntil (periodStart granularity start) state.windows then 1 else 0) ∧
      (lastWindow state.table watcherId).map WatcherWindow.windowEnd =
        some (tiledUntil (periodStart granularity start) state.windows) ∧ (∀ done ∈ state.completed,
        done.window.windowEnd ≤ currentPeriodEnd done.now granularity) ∧
      ∀ now, ∃ after, (watching watcherId granularity start).Later
        (fun _ event => event = .evaluated now) state after ∧
          isCaughtUp watcherId granularity after.table now = true := by
  have gapless := gapless_of_reachable reached
  refine ⟨gapless.tiles, gapless.tiles.covered, ?_, gapless.capped, gapless.catches_up⟩
  rw [gapless.last, gapless.reaches]

/-- From January 2024 on, evaluated on the 20th of February: January, and February with its 29
days. -/
theorem completed_windows_tile_february : ∃ state, (watching 1 .monthly 24288).Reachable unrestricted state ∧
      state.windows = [⟨1704067200000, 1706745600000⟩, ⟨1706745600000, 1709251200000⟩] ∧
      Tiles (periodStart .monthly 24288) state.windows := by
  obtain ⟨state, reached, tested⟩ := Machine.exists_of_replay (watching 1 .monthly 24288)
    unrestricted ⟨[⟨1, 1701388800000, 1704067200000, none⟩], []⟩
    [.evaluated 1708430400000, .inserted ⟨2, 0, 1000, none⟩, .evaluated 1708430400000]
    (fun state => decide (state.windows =
      [⟨1704067200000, 1706745600000⟩, ⟨1706745600000, 1709251200000⟩]))
    ⟨rfl, by decide +kernel⟩ (by decide +kernel)
  exact ⟨state, reached, of_decide_eq_true tested, (completed_windows_tile 1 .monthly 24288 reached).1⟩

end Lobu.Watchers
