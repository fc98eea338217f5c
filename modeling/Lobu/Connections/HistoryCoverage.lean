import Lobu.Connections.HistoryUpdates

namespace Lobu.Connections

open Lobu.Foundation

variable {ε : Type} {calls after : HistoryCalls ε}

/-! # What the index covers

In every run that takes nothing off the index but settled channels, an entry that has not expired is
of a channel that the index lists at least as long, or of an append that has still to list it.
-/

section Coverage

variable {place other : Nat} {moment : HistoryMoment} {call : HistoryCall ε}
variable {request : HistoryStep ε} {next : HistoryAnswer ε request → HistoryProcess ε HistoryReply}
variable {answer : HistoryAnswer ε request} {shared : HistoryRows ε} {channelId : String} {time : Int}

/-- The index lists the channel at least up to that time. -/
def HistoryRows.ListsUntil (rows : HistoryRows ε) (channelId : String) (time : Int) : Prop :=
  ∃ index, rows.index? = some index ∧ channelId ∈ index.channels ∧ time ≤ index.expiresAt

/-- An append that has still to write the index. -/
def IsPending (channelId : String) (call : HistoryCall ε) : Prop :=
  call.command.appendsTo channelId = true ∧ hasWritten call.said = false

structure Covers (calls : HistoryCalls ε) : Prop where
  names : ∀ call ∈ calls.members, ∀ channelId, call.command.appendsTo channelId = true →
    channelId ≠ "__proto__"
  rows : ∀ row ∈ calls.shared.lists, row.expiresAt ≤ calls.shared.now + HISTORY_TTL_MS
  starts : ∀ call ∈ calls.members, ∀ started, startedAt call.said = some started →
    started ≤ calls.shared.now
  listing : ∀ call ∈ calls.members, ∀ channelId started, hasListed channelId call = true →
    startedAt call.said = some started → calls.shared.now < started + HISTORY_TTL_MS →
      calls.shared.ListsUntil channelId (started + HISTORY_TTL_MS)
  entries : ∀ row ∈ calls.shared.lists, calls.shared.now < row.expiresAt →
    calls.shared.ListsUntil row.channelId row.expiresAt ∨
      ∃ call ∈ calls.members, IsPending row.channelId call

section

variable (answering : Answering calls place moment call request next answer shared)
include answering

theorem index_of_stored {channels : List String}
    (stored : shared.cache .historyIndex = some ⟨channels, moment.clock + HISTORY_TTL_MS⟩) :
    shared.index? = some ⟨channels, moment.now + HISTORY_TTL_MS⟩ := by
  rw [answering.agreeing] at stored
  refine Option.filter_eq_some_iff.mpr ⟨stored, decide_eq_true ?_⟩
  rw [now_of_perform answering.performed]
  change moment.now < moment.now + HISTORY_TTL_MS
  unfold HISTORY_TTL_MS
  omega

theorem stays_listed (reached : historyStore.Reachable Careful calls) (lists : calls.shared.ListsUntil channelId time)
    (ahead : moment.now < time) (bounded : time ≤ moment.now + HISTORY_TTL_MS)
    (unsettled : isSettled (calls.shared.atTime moment.now) calls.members channelId = false) :
    shared.ListsUntil channelId time := by
  obtain ⟨index, cached, among, lasts⟩ := lists
  have live : (calls.shared.atTime moment.now).index? = some index :=
    (HistoryRows.index_atTime answering.forward).mpr ⟨cached, by omega⟩
  have kept (writes : writesIndex request = true) : channelId ∈ writtenBy request := by
    have upToDate := readers_upToDate reached call (List.mem_of_getElem? answering.found)
    rcases dropped_settled answering upToDate writes
      (HistoryRows.mem_listed.mpr ⟨index, live, among⟩) with written | settled
    · exact written
    · rw [unsettled] at settled
      cases settled
  rcases index_of_perform answering.performed with ⟨-, same⟩ | ⟨channels, rfl, stored⟩ | ⟨rfl, -⟩
  · exact ⟨index, same.trans live, among, lasts⟩
  · exact ⟨_, index_of_stored answering stored, kept rfl, bounded⟩
  · cases kept rfl

theorem append_lists (appends : call.command.appendsTo channelId = true) (named : channelId ≠ "__proto__")
    (writes : writesIndex request = true) : shared.ListsUntil channelId (moment.now + HISTORY_TTL_MS) := by
  have updates : call.command.update? = some (withChannel channelId) := by
    cases command : call.command with
    | appendHistory appended entry schedule =>
      rw [command] at appends
      rw [← eq_of_beq appends]
      rfl
    | _ =>
      rw [command] at appends
      cases appends
  obtain ⟨found, -, -, written⟩ := written_update answering.permitted writes updates
  have among : channelId ∈ writtenBy request := by
    rw [written, withChannel]
    by_cases old : channelId ∈ found
    · rwa [if_pos (.inr old)]
    · rw [if_neg (by simp [named, old])]
      exact List.mem_append_right _ (List.mem_singleton_self _)
  rcases index_of_perform answering.performed with ⟨silent, -⟩ | ⟨channels, rfl, stored⟩ | ⟨rfl, -⟩
  · rw [silent] at writes
    cases writes
  · exact ⟨_, index_of_stored answering stored, among, le_rfl⟩
  · cases among

end

variable {row : HistoryRow ε}

theorem unsettled_of_live {rows : HistoryRows ε} {members : List (HistoryCall ε)} (present : row ∈ rows.lists) (live : rows.now < row.expiresAt) :
    isSettled rows members row.channelId = false := by
  have has : rows.hasLive row.channelId = true :=
    List.any_eq_true.mpr ⟨row, present, by simp [live]⟩
  simp [isSettled, has]

theorem unsettled_of_listed {rows : HistoryRows ε} {members : List (HistoryCall ε)}
    (present : call ∈ members) (listed : hasListed channelId call = true) :
    isSettled rows members channelId = false := by
  have has : members.any (hasListed channelId) = true := List.any_eq_true.mpr ⟨call, present, listed⟩
  simp [isSettled, has]

section

variable (answering : Answering calls place moment call request next answer shared)
include answering

theorem row_cases (present : row ∈ shared.lists) :
    row ∈ calls.shared.lists ∨ (writesIndex request = false ∧ call.command.appendsTo row.channelId = true ∧
      ∃ started, startedAt call.said = some started ∧ row.expiresAt = started + HISTORY_TTL_MS) := by
  rcases row_of_perform answering.performed present with old | ⟨entry, rfl⟩ | rfl
  · exact .inl old
  · rcases answering.permitted with ⟨clock, -⟩ | own
    · cases clock
    · exact .inr ⟨rfl, own⟩
  · rcases answering.permitted with ⟨clock, -⟩ | own
    · cases clock
    · exact .inr ⟨rfl, own⟩

theorem now_forward : shared.now = moment.now ∧ calls.shared.now ≤ shared.now := by
  have now : shared.now = moment.now := now_of_perform answering.performed
  exact ⟨now, now ▸ answering.forward⟩

theorem startedAt_cases {started : Int} (began : startedAt (⟨request, answer⟩ :: call.said) = some started) :
    startedAt call.said = some started ∨
      started = moment.now ∧ request = .readClock ∧ hasWritten call.said = false := by
  simp only [startedAt, List.findSome?_cons] at began
  cases reads : clockIn ⟨request, answer⟩ with
  | none =>
    rw [reads] at began
    exact .inl began
  | some clock =>
    rw [reads] at began
    cases began
    obtain ⟨rfl, rfl⟩ := clock_of_perform answering.performed reads
    rcases answering.permitted with ⟨-, unwritten⟩ | never
    · exact .inr ⟨answering.agreeing, rfl, unwritten⟩
    · cases never

end

section Steps

variable (answering : Answering calls place moment call request next answer shared)
variable (covers : Covers calls)

include answering covers

theorem rows_step (present : row ∈ shared.lists) : row.expiresAt ≤ shared.now + HISTORY_TTL_MS := by
  obtain ⟨-, forward⟩ := now_forward answering
  rcases row_cases answering present with old | ⟨-, -, started, began, expires⟩
  · have := covers.rows row old
    omega
  · have := covers.starts call (List.mem_of_getElem? answering.found) started began
    omega

theorem listing_step (reached : historyStore.Reachable Careful calls) {started : Int}
    (listed : hasListed channelId ⟨call.command, ⟨request, answer⟩ :: call.said, next answer⟩ = true)
    (began : startedAt (⟨request, answer⟩ :: call.said) = some started)
    (ahead : shared.now < started + HISTORY_TTL_MS) : shared.ListsUntil channelId (started + HISTORY_TTL_MS) := by
  have member := List.mem_of_getElem? answering.found
  obtain ⟨now, forward⟩ := now_forward answering
  simp only [hasListed, hasWritten, List.any_cons, Bool.and_eq_true, Bool.or_eq_true] at listed
  obtain ⟨⟨appends, written⟩, -⟩ := listed
  rcases startedAt_cases answering began with before | ⟨-, rfl, unwritten⟩
  · have early := covers.starts call member started before
    cases writes : writesIndex request with
    | true =>
      obtain ⟨index, cached, among, lasts⟩ := append_lists answering appends
        (covers.names call member channelId appends) writes
      exact ⟨index, cached, among, by omega⟩
    | false =>
      rw [writes] at written
      have still : hasListed channelId call = true := by
        have already : hasWritten call.said = true := written.resolve_left Bool.false_ne_true
        simp [hasListed, appends, already, isUnderWay, answering.asks]
      exact stays_listed answering reached (covers.listing call member channelId started still before
        (by omega)) (by omega) (by omega) (unsettled_of_listed member still)
  · rcases written with now | already
    · cases now
    · have := unwritten.symm.trans already
      cases this

theorem listing_others (reached : historyStore.Reachable Careful calls) {started : Int}
    {second : HistoryCall ε} (present : second ∈ calls.members)
    (listed : hasListed channelId second = true) (began : startedAt second.said = some started)
    (ahead : shared.now < started + HISTORY_TTL_MS) : shared.ListsUntil channelId (started + HISTORY_TTL_MS) := by
  obtain ⟨now, forward⟩ := now_forward answering
  have early := covers.starts second present started began
  exact stays_listed answering reached (covers.listing second present channelId started listed began
    (by omega)) (by omega) (by omega) (unsettled_of_listed present listed)

theorem entries_step (reached : historyStore.Reachable Careful calls)
    (present : row ∈ shared.lists) (live : shared.now < row.expiresAt) :
    shared.ListsUntil row.channelId row.expiresAt ∨
      ∃ second ∈ calls.members.set place ⟨call.command, ⟨request, answer⟩ :: call.said, next answer⟩,
        IsPending row.channelId second := by
  have member := List.mem_of_getElem? answering.found
  obtain ⟨now, forward⟩ := now_forward answering
  have bounded := rows_step answering covers present
  -- a pending call is pending afterwards, or it writes the index now
  have carried {second : HistoryCall ε} (among : second ∈ calls.members)
      (pending : IsPending row.channelId second) : shared.ListsUntil row.channelId row.expiresAt ∨
        ∃ second ∈ calls.members.set place
          ⟨call.command, ⟨request, answer⟩ :: call.said, next answer⟩,
          IsPending row.channelId second := by
    rcases mem_set_of_mem answering.found among
      ⟨call.command, ⟨request, answer⟩ :: call.said, next answer⟩ with rfl | stays
    · obtain ⟨appends, unwritten⟩ := pending
      cases writes : writesIndex request with
      | true =>
        obtain ⟨index, cached, lists, lasts⟩ := append_lists answering appends
          (covers.names second member row.channelId appends) writes
        exact .inl ⟨index, cached, lists, by omega⟩
      | false =>
        refine .inr ⟨_, List.mem_set (List.getElem?_eq_some_iff.mp answering.found).1 _, appends, ?_⟩
        simpa [hasWritten, writes] using unwritten
    · exact .inr ⟨second, stays, pending⟩
  rcases row_cases answering present with old | ⟨silent, appends, started, began, expires⟩
  · have liveThen : moment.now < row.expiresAt := by omega
    rcases covers.entries row old (by omega) with lists | ⟨second, among, pending⟩
    · exact .inl (stays_listed answering reached lists liveThen (by omega) (unsettled_of_live old liveThen))
    · exact carried among pending
  · cases written : hasWritten call.said with
    | false => exact carried member ⟨appends, written⟩
    | true =>
      have listed : hasListed row.channelId call = true := by
        simp [hasListed, appends, written, isUnderWay, answering.asks]
      rw [expires] at live ⊢
      exact .inl (listing_others answering covers reached member listed began live)

end Steps

theorem covers_join (covers : Covers calls) {command : HistoryCommand ε}
    (named : ∀ channelId, command.appendsTo channelId = true → channelId ≠ "__proto__") :
    Covers { calls with members := calls.members ++ [⟨command, [], command.call⟩] } where
  names := by
    intro call present channelId appends
    rcases List.mem_append.mp present with old | new
    · exact covers.names call old channelId appends
    · cases List.mem_singleton.mp new
      exact named channelId appends
  rows := covers.rows
  starts := by
    intro call present started began
    rcases List.mem_append.mp present with old | new
    · exact covers.starts call old started began
    · cases List.mem_singleton.mp new
      cases began
  listing := by
    intro call present channelId started listed began ahead
    rcases List.mem_append.mp present with old | new
    · exact covers.listing call old channelId started listed began ahead
    · cases List.mem_singleton.mp new
      cases began
  entries := by
    intro row present live
    rcases covers.entries row present live with lists | ⟨call, among, pending⟩
    · exact .inl lists
    · exact .inr ⟨call, List.mem_append_left _ among, pending⟩

theorem covers_of_reachable (reached : historyStore.Reachable Careful calls) : Covers calls := by
  refine reached.invariant ?_ ?_
  · rintro ⟨shared, members⟩ ⟨⟨-, -, nothing⟩, rfl⟩
    change shared.lists = [] at nothing
    constructor <;> simp [nothing]
  · intro before event after reached covers careful stepped
    rcases step_answering reached careful stepped with ⟨command, -, named, rfl⟩ |
      ⟨place, moment, call, request, next, answer, shared, -, answering, rfl⟩
    · exact covers_join covers named
    · have member := List.mem_of_getElem? answering.found
      obtain ⟨now, forward⟩ := now_forward answering
      constructor
      · intro second present channelId appends
        rcases List.mem_or_eq_of_mem_set present with old | rfl
        · exact covers.names second old channelId appends
        · exact covers.names call member channelId appends
      · exact fun row present => rows_step answering covers present
      · intro second present started began
        rcases List.mem_or_eq_of_mem_set present with old | rfl
        · exact (covers.starts second old started began).trans forward
        · rcases startedAt_cases answering began with earlier | ⟨rfl, -⟩
          · exact (covers.starts call member started earlier).trans forward
          · exact now.ge
      · intro second present channelId started listed began ahead
        rcases List.mem_or_eq_of_mem_set present with old | rfl
        · exact listing_others answering covers reached old listed began ahead
        · exact listing_step answering covers reached listed began ahead
      · exact fun row present live => entries_step answering covers reached present live

theorem not_pending {allowed : Discipline (HistoryCalls ε) (CrowdEvent (HistoryCommand ε) HistoryMoment)}
    (reached : historyStore.Reachable allowed calls) (present : call ∈ calls.members)
    (ended : isUnderWay call = false) : ¬ IsPending channelId call := by
  rintro ⟨appends, unwritten⟩
  have kept := historyAbides reached present
  cases rest : call.rest with
  | done reply =>
    rw [rest] at kept
    have written := kept channelId appends
    rw [unwritten] at written
    cases written
  | ask request next =>
    rw [isUnderWay, rest] at ended
    cases ended

end Coverage

theorem deletion_answering (reached : historyStore.Reachable Careful calls) {place : Nat}
    {moment : HistoryMoment} {command : HistoryCommand ε} (careful : Careful calls (.answer place moment))
    (stepped : historyStore.step calls (.answer place moment) = some after)
    (asks : calls.asking place = some (command, .delete .historyIndex)) :
    ∃ (call : HistoryCall ε) (request : HistoryStep ε)
        (next : HistoryAnswer ε request → HistoryProcess ε HistoryReply) (answer : HistoryAnswer ε request),
      Answering calls place moment call request next answer after.shared ∧
      writesIndex request = true ∧ after.shared.index? = none := by
  rcases step_answering reached careful stepped with ⟨_, joins, -⟩ |
    ⟨_, _, call, request, next, answer, shared, same, answering, rfl⟩
  · cases joins
  · cases same
    have asked : some (call.command, request) = some (command, .delete .historyIndex) := by
      rw [← asks, Crowd.asking, answering.found, Option.bind_some, Member.asking, answering.asks]
    obtain rfl : request = .delete .historyIndex := (Prod.mk.inj (Option.some.inj asked)).2
    refine ⟨call, _, next, answer, answering, rfl, ?_⟩
    rcases index_of_perform answering.performed with ⟨silent, -⟩ | ⟨channels, other, -⟩ | ⟨-, gone⟩
    · cases silent
    · cases other
    · exact gone

section Runs

def noHistory : HistoryCalls Nat := ⟨{ now := 0, lock := {}, cache := fun _ => none, lists := [] }, []⟩

theorem noHistory_starts : historyStore.starts noHistory := ⟨⟨rfl, rfl, rfl⟩, rfl⟩

def answers (place count : Nat) : List (CrowdEvent (HistoryCommand Nat) HistoryMoment) :=
  List.replicate count (.answer place ⟨⟨0, 0⟩, false⟩)

/-- A channel gets an entry and is cleared. -/
def clearedRun : List (CrowdEvent (HistoryCommand Nat) HistoryMoment) :=
  .join (.appendHistory "a" 1 []) :: answers 0 9 ++ .join (.clearHistory "a" []) :: answers 1 5

/-- The second append finds the lock taken three times and lists its channel without it; the first
then writes what it has read before. -/
def contendedRun : List (CrowdEvent (HistoryCommand Nat) HistoryMoment) :=
  [.join (.appendHistory "a" 1 []), .join (.appendHistory "b" 2 [])] ++
    answers 0 3 ++ answers 1 10 ++ answers 0 6

/-- What a run leaves: whether anything is under way, and what is live and listed. -/
def outcome (channelId : String) (calls : HistoryCalls Nat) : Bool × Bool × Bool :=
  (calls.members.any isUnderWay, calls.shared.hasLive channelId,
    calls.shared.listed.contains channelId)

theorem unlisted_of_outcome {calls : HistoryCalls Nat} {channelId : String}
    (left : outcome channelId calls = (false, true, false)) :
    NoneUnderWay calls ∧ calls.shared.hasLive channelId = true ∧ channelId ∉ calls.shared.listed := by
  simp only [outcome, Prod.mk.injEq] at left
  obtain ⟨quiet, live, unlisted⟩ := left
  refine ⟨?_, live, ?_⟩
  · intro call present
    exact Bool.eq_false_iff.mpr fun busy =>
      Bool.eq_false_iff.mp quiet (List.any_eq_true.mpr ⟨call, present, busy⟩)
  · intro listed
    rw [List.contains_iff_mem.mpr listed] at unlisted
    cases unlisted

example : (historyStore.replay unrestricted noHistory contendedRun).map (outcome "b") =
    some (false, true, false) := by decide +kernel

/-- Two appends of which the second waits for the lock. -/
def waitingAppends : List (CrowdEvent (HistoryCommand Nat) HistoryMoment) :=
  [.join (.appendHistory "a" 1 []), .join (.appendHistory "b" 2 [true, true])] ++
    answers 0 3 ++ answers 1 2 ++ answers 0 6 ++ answers 1 7

end Runs

end Lobu.Connections
