import Lobu.Connections.HistoryIndex

namespace Lobu.Connections

open Lobu.Foundation

variable {ε : Type} {calls after : HistoryCalls ε}

/-! # Updates of the history index

At most one call has the lock, and what it has read under it stays all that the index lists until it
writes; so a careful write takes only settled channels off the index.
-/

section Statements

variable {rows later : HistoryRows ε} {step : HistoryStep ε} {moment : HistoryMoment}
variable {answer : HistoryAnswer ε step} {now : Int}

section

variable (performed : rows.perform moment step = (answer, later))
include performed

theorem now_of_perform : later.now = rows.now := by
  cases step with
  | acquireLock =>
    simp only [HistoryRows.perform] at performed
    repeat' split at performed
    all_goals cases performed; rfl
  | releaseLock token =>
    simp only [HistoryRows.perform] at performed
    split at performed <;> cases performed <;> rfl
  | _ => cases performed; rfl

theorem lock_of_perform :
    (givenIn ⟨step, answer⟩ = none ∧ (later.lock = rows.lock ∨ ∃ token, later.lock = rows.lock.release token)) ∨
    (givenIn ⟨step, answer⟩ = some rows.lock.drawn ∧ writesIndex step = false ∧
      ∃ expiresAt, later.lock = ⟨some ⟨rows.lock.drawn, expiresAt⟩, rows.lock.drawn + 1⟩) := by
  cases step with
  | acquireLock =>
    simp only [HistoryRows.perform] at performed
    split at performed
    · cases performed
      exact .inl ⟨rfl, .inl rfl⟩
    · rcases rows.lock.acquire_cases rows.now (moment.clock + HISTORY_INDEX_LOCK_TTL_MS) with
        same | ⟨-, given⟩
      · rw [same] at performed
        cases performed
        exact .inl ⟨rfl, .inl rfl⟩
      · rw [given] at performed
        cases performed
        exact .inr ⟨rfl, rfl, _, rfl⟩
  | releaseLock token =>
    simp only [HistoryRows.perform] at performed
    split at performed
    · cases performed
      exact .inl ⟨rfl, .inl rfl⟩
    · cases performed
      exact .inl ⟨rfl, .inr ⟨token, rfl⟩⟩
  | _ =>
    cases performed
    exact .inl ⟨rfl, .inl rfl⟩

theorem index_of_perform :
    (writesIndex step = false ∧ later.index? = rows.index?) ∨ (∃ channels, step = .setIndex channels ∧
      later.cache .historyIndex = some ⟨channels, moment.clock + HISTORY_TTL_MS⟩) ∨
    (step = .delete .historyIndex ∧ later.index? = none) := by
  cases step with
  | acquireLock =>
    simp only [HistoryRows.perform] at performed
    repeat' split at performed
    all_goals cases performed; exact .inl ⟨rfl, rfl⟩
  | releaseLock token =>
    simp only [HistoryRows.perform] at performed
    split at performed <;> cases performed <;> exact .inl ⟨rfl, rfl⟩
  | cleanIndex =>
    cases performed
    refine .inl ⟨rfl, ?_⟩
    change (rows.index?.filter fun index => decide (rows.now < index.expiresAt)) = rows.index?
    cases found : rows.index? with
    | none => rfl
    | some index => exact Option.filter_eq_some_iff.mpr ⟨rfl, (Option.filter_eq_some_iff.mp found).2⟩
  | setIndex channels =>
    cases performed
    exact .inr (.inl ⟨channels, rfl, by simp [HistoryRows.setKey]⟩)
  | delete key =>
    cases performed
    cases key with
    | history channelId =>
      exact .inl ⟨rfl, rfl⟩
    | historyIndex =>
      exact .inr (.inr ⟨rfl, by simp [HistoryRows.index?, HistoryRows.setKey]⟩)
  | _ =>
    cases performed
    exact .inl ⟨rfl, rfl⟩

theorem row_of_perform {row : HistoryRow ε} (present : row ∈ later.lists) :
    row ∈ rows.lists ∨ (∃ entry, step = .insertEntry row.channelId entry row.expiresAt) ∨
      step = .touchList row.channelId row.expiresAt := by
  cases step with
  | acquireLock =>
    simp only [HistoryRows.perform] at performed
    repeat' split at performed
    all_goals cases performed; exact .inl present
  | releaseLock token =>
    simp only [HistoryRows.perform] at performed
    split at performed <;> cases performed <;> exact .inl present
  | insertEntry channelId entry expiresAt =>
    cases performed
    rcases List.mem_append.mp present with old | new
    · exact .inl old
    · rw [List.mem_singleton.mp new]
      exact .inr (.inl ⟨entry, rfl⟩)
  | trimList channelId =>
    cases performed
    exact .inl (HistoryRows.mem_of_trim present)
  | touchList channelId expiresAt =>
    cases performed
    obtain ⟨before, old, rfl⟩ := List.mem_map.mp present
    by_cases same : before.channelId = channelId
    · rw [if_pos same]
      exact .inr (.inr (by rw [same]))
    · rw [if_neg same]
      exact .inl old
  | _ =>
    cases performed
    exact .inl present

theorem read_of_perform {channels : List String} (read : readIn ⟨step, answer⟩ = some channels) :
    channels = rows.listed ∧ writesIndex step = false := by
  cases step with
  | getIndex =>
    cases performed
    exact ⟨(Option.some.inj read).symm, rfl⟩
  | _ => cases read

theorem clock_of_perform {clock : Int}
    (read : clockIn ⟨step, answer⟩ = some clock) : clock = moment.clock ∧ step = .readClock := by
  cases step with
  | readClock =>
    cases performed
    exact ⟨(Option.some.inj read).symm, rfl⟩
  | _ => cases read

end

theorem request_of_given {exchange : Exchange (HistoryAnswer ε)} {token : Nat}
    (given : givenIn exchange = some token) : exchange = ⟨.acquireLock, .given token⟩ := by
  obtain ⟨request, answer⟩ := exchange
  cases request with
  | acquireLock =>
    cases answer with
    | given other =>
      cases given
      rfl
    | _ => cases given
  | _ => cases given

end Statements

theorem historyAbides {allowed : Discipline (HistoryCalls ε) (CrowdEvent (HistoryCommand ε) HistoryMoment)}
    (reached : historyStore.Reachable allowed calls) {call : HistoryCall ε} (present : call ∈ calls.members) :
    call.rest.Keeps (historyPermits call.command) (fun _ _ => True)
      (fun said _ => historyLeaves call.command said) call.said :=
  (conduct call.command).after (Crowd.went reached call present) fun _ _ _ => trivial

/-- The rows at the time of a statement. -/
abbrev HistoryRows.atTime (rows : HistoryRows ε) (now : Int) : HistoryRows ε := { rows with now }

/-- A careful answer to the call at a place. -/
structure Answering (calls : HistoryCalls ε) (place : Nat) (moment : HistoryMoment)
    (call : HistoryCall ε) (request : HistoryStep ε)
    (next : HistoryAnswer ε request → HistoryProcess ε HistoryReply)
    (answer : HistoryAnswer ε request) (shared : HistoryRows ε) : Prop where
  found : calls.members[place]? = some call
  asks : call.rest = .ask request next
  forward : calls.shared.now ≤ moment.now
  performed : (calls.shared.atTime moment.now).perform moment request = (answer, shared)
  permitted : historyPermits call.command call.said request
  agreeing : moment.clock = moment.now
  may : mayPerform (calls.shared.atTime moment.now) calls.members call request = true

theorem step_answering (reached : historyStore.Reachable Careful calls)
    {event : CrowdEvent (HistoryCommand ε) HistoryMoment} (careful : Careful calls event)
    (stepped : historyStore.step calls event = some after) :
    (∃ command : HistoryCommand ε, event = .join command ∧
      (∀ channelId, command.appendsTo channelId = true → channelId ≠ "__proto__") ∧
      after = { calls with members := calls.members ++ [⟨command, [], command.call⟩] }) ∨
    ∃ place moment call request next answer shared, event = .answer place moment ∧
      Answering calls place moment call request next answer shared ∧ after = ⟨shared, calls.members.set place
        ⟨call.command, ⟨request, answer⟩ :: call.said, next answer⟩⟩ := by
  rcases Crowd.step_cases stepped with ⟨command, rfl, rfl⟩ |
    ⟨place, moment, command, said, request, next, answer, shared, rfl, found, served, rfl⟩
  · refine .inl ⟨command, rfl, ?_, rfl⟩
    intro channelId appends
    cases command with
    | appendHistory appended entry schedule =>
      rw [← eq_of_beq appends]
      exact bne_iff_ne.mp careful
    | _ => cases appends
  · obtain ⟨forward, performed⟩ := HistoryRows.serve_performs served
    have kept := historyAbides reached (List.mem_of_getElem? found)
    simp only [Careful, isCareful, found, Bool.and_eq_true, decide_eq_true_eq] at careful
    exact .inr ⟨place, moment, ⟨command, said, .ask request next⟩, request, next, answer, shared, rfl,
      ⟨found, rfl, forward, performed, kept.1, careful.1, careful.2⟩, rfl⟩

section Lock

open Crowd

variable {place other : Nat} {token : Nat}
variable {allowed : Discipline (HistoryCalls ε) (CrowdEvent (HistoryCommand ε) HistoryMoment)}

abbrev given (token : Nat) : Exchange (HistoryAnswer ε) := ⟨.acquireLock, .given token⟩

theorem drawn_of_perform {rows later : HistoryRows ε} {step : HistoryStep ε} {moment : HistoryMoment}
    {answer : HistoryAnswer ε step} (performed : rows.perform moment step = (answer, later)) :
    rows.lock.drawn ≤ later.lock.drawn := by
  rcases lock_of_perform performed with ⟨-, same | ⟨token, released⟩⟩ | ⟨-, -, expiresAt, taken⟩
  · rw [same]
  · rw [released, StateLock.drawn_release]
  · rw [taken]
    exact Nat.le_succ _

theorem tokens_unique (reached : historyStore.Reachable allowed calls) :
    (∀ place token, Told calls place (given token) → token < calls.shared.lock.drawn) ∧
    ∀ place other token, Told calls place (given token) → Told calls other (given token) → place = other := by
  let sound (calls : HistoryCalls ε) : Prop :=
    (∀ place token, Told calls place (given token) → token < calls.shared.lock.drawn) ∧
    ∀ place other token, Told calls place (given token) → Told calls other (given token) →
      place = other
  change sound calls
  refine reached.invariant ?_ ?_
  · rintro calls ⟨-, empty⟩
    have nobody : ∀ place token, ¬ Told calls place (given token) := by
      rintro place token ⟨call, found, -⟩
      rw [empty] at found
      cases found
    exact ⟨fun place token told => absurd told (nobody _ _), fun place other token told _ => absurd told (nobody _ _)⟩
  · intro before event after _ earlier _ stepped
    -- a token that is new to a call is the one that was drawn
    have origin : ∀ place token, Told after place (given token) →
        (Told before place (given token) ∧ before.shared.lock.drawn ≤ after.shared.lock.drawn) ∨
        ((∃ moment, event = .answer place moment) ∧ token = before.shared.lock.drawn ∧
          after.shared.lock.drawn = token + 1) := by
      intro place token told
      rcases told_of_step stepped told with old | ⟨moment, command, said, next, rfl, found, served⟩
      · refine .inl ⟨old, ?_⟩
        rcases step_cases stepped with ⟨command, -, rfl⟩ | ⟨_, _, _, _, request, _, answer, shared, -, -, served, rfl⟩
        · exact le_rfl
        · have grows := drawn_of_perform (HistoryRows.serve_performs served).2
          exact grows
      · rcases lock_of_perform (HistoryRows.serve_performs served).2 with ⟨ungiven, -⟩ | ⟨drawn, -, expiresAt, taken⟩
        · cases ungiven
        · cases drawn
          refine .inr ⟨⟨moment, rfl⟩, rfl, ?_⟩
          rw [taken]
    constructor
    · intro place token told
      rcases origin place token told with ⟨old, grows⟩ | ⟨-, -, drawn⟩
      · exact (earlier.1 place token old).trans_le grows
      · omega
    · intro place other token told toldOther
      rcases origin place token told with ⟨old, -⟩ | ⟨⟨moment, rfl⟩, drawn, -⟩
      · rcases origin other token toldOther with ⟨oldOther, -⟩ | ⟨-, drawn, -⟩
        · exact earlier.2 place other token old oldOther
        · have := earlier.1 place token old
          omega
      · rcases origin other token toldOther with ⟨oldOther, -⟩ | ⟨⟨moment', same⟩, -, -⟩
        · have := earlier.1 other token oldOther
          omega
        · cases same
          rfl

theorem holder_told {rows : HistoryRows ε} {call : HistoryCall ε}
    (found : calls.members[place]? = some call) (holds : rows.isHolder call = true) :
    ∃ lease, rows.lock.lease = some lease ∧ Told calls place (given lease.token) := by
  simp only [HistoryRows.isHolder, Option.any_eq_true, List.any_eq_true, decide_eq_true_eq] at holds
  obtain ⟨lease, leased, exchange, heard, giving⟩ := holds
  rw [request_of_given giving] at heard
  exact ⟨lease, leased, call, found, heard⟩

theorem one_holder (reached : historyStore.Reachable allowed calls) {rows : HistoryRows ε}
    {call second : HistoryCall ε} (found : calls.members[place]? = some call)
    (foundOther : calls.members[other]? = some second) (holds : rows.isHolder call = true)
    (holdsOther : rows.isHolder second = true) : place = other := by
  obtain ⟨lease, leased, told⟩ := holder_told found holds
  obtain ⟨lease', leased', toldOther⟩ := holder_told foundOther holdsOther
  cases leased.symm.trans leased'
  exact (tokens_unique reached).2 _ _ _ told toldOther

end Lock

section Readers

variable {place other : Nat} {moment : HistoryMoment} {call : HistoryCall ε}
variable {request : HistoryStep ε} {next : HistoryAnswer ε request → HistoryProcess ε HistoryReply}
variable {answer : HistoryAnswer ε request} {shared : HistoryRows ε} {channelId : String}

theorem HistoryRows.mem_listed {rows : HistoryRows ε} : channelId ∈ rows.listed ↔
    ∃ index, rows.index? = some index ∧ channelId ∈ index.channels := by
  unfold listed
  cases rows.index? with
  | none => simp
  | some index => simp

theorem HistoryRows.index_atTime {rows : HistoryRows ε} {now : Int} (forward : rows.now ≤ now)
    {index : CachedIndex} : (rows.atTime now).index? = some index ↔
      rows.index? = some index ∧ now < index.expiresAt := by
  simp only [HistoryRows.index?, Option.filter_eq_some_iff, decide_eq_true_eq]
  constructor
  · rintro ⟨cached, live⟩
    exact ⟨⟨cached, by omega⟩, live⟩
  · rintro ⟨⟨cached, -⟩, live⟩
    exact ⟨cached, live⟩

theorem HistoryRows.listed_atTime {rows : HistoryRows ε} {now : Int} (forward : rows.now ≤ now)
    (listed : channelId ∈ (rows.atTime now).listed) : channelId ∈ rows.listed := by
  obtain ⟨index, found, among⟩ := HistoryRows.mem_listed.mp listed
  exact HistoryRows.mem_listed.mpr ⟨index, ((HistoryRows.index_atTime forward).mp found).1, among⟩

/-- Every channel that the index lists is one that the call has read. -/
def UpToDate (rows : HistoryRows ε) (call : HistoryCall ε) : Prop :=
  isUpdating rows call = true → ∀ channelId ∈ rows.listed,
    ∃ found, readIndex call.said = some found ∧ channelId ∈ found

theorem isUpdating_iff {rows : HistoryRows ε} : isUpdating rows call = true ↔
    rows.isHolder call = true ∧ (∃ found, readIndex call.said = some found) ∧ hasWritten call.said = false := by
  simp [isUpdating, Option.isSome_iff_exists, and_assoc]

variable {second : HistoryCall ε}

theorem holder_before (answering : Answering calls place moment call request next answer shared)
    (reached : historyStore.Reachable Careful calls)
    (found : calls.members[other]? = some second) (holds : shared.isHolder second = true) :
    calls.shared.isHolder second = true ∧ givenIn ⟨request, answer⟩ = none := by
  obtain ⟨lease, leased, told⟩ := holder_told found holds
  rcases lock_of_perform answering.performed with ⟨ungiven, same | ⟨token, released⟩⟩ | ⟨-, -, expiresAt, taken⟩
  · refine ⟨?_, ungiven⟩
    rwa [HistoryRows.isHolder, same] at holds
  · refine ⟨?_, ungiven⟩
    rw [released, StateLock.release] at leased
    split at leased
    · cases leased
    · rwa [HistoryRows.isHolder, released, StateLock.release, if_neg ‹_›] at holds
  · rw [taken] at leased
    cases leased
    exact absurd ((tokens_unique reached).1 _ _ told) (lt_irrefl _)

def writtenBy : HistoryStep ε → List String
  | .setIndex channels => channels
  | _ => []

variable {update : List String → List String}

theorem written_update (permitted : historyPermits call.command call.said request)
    (writes : writesIndex request = true) (updates : call.command.update? = some update) :
    ∃ found, readIndex call.said = some found ∧ hasWritten call.said = false ∧ writtenBy request = update found := by
  rcases permitted with ⟨rfl, -⟩ | permitted
  · cases writes
  · cases request with
    | setIndex channels =>
      obtain ⟨update', found, updates', read, unwritten, rfl⟩ := permitted
      cases updates.symm.trans updates'
      exact ⟨found, read, unwritten, rfl⟩
    | delete key =>
      cases key with
      | history channelId => cases writes
      | historyIndex =>
        obtain ⟨found, read, unwritten, empty⟩ := permitted update updates
        exact ⟨found, read, unwritten, empty.symm⟩
    | _ => cases writes

theorem may_write {rows : HistoryRows ε} {members : List (HistoryCall ε)}
    (may : mayPerform rows members call request = true) (writes : writesIndex request = true) :
    mayWrite rows members call (writtenBy request) = true := by
  cases request with
  | setIndex channels => exact may
  | delete key =>
    cases key with
    | history channelId => cases writes
    | historyIndex => exact may
  | _ => cases writes

theorem update_keeps {command : HistoryCommand ε} {found : List String} (updates : command.update? = some update)
    (keeps : command.clears channelId = false) (among : channelId ∈ found) : channelId ∈ update found := by
  cases command with
  | appendHistory appended entry schedule =>
    cases updates
    unfold withChannel
    split
    · exact among
    · exact List.mem_append_left _ among
  | clearHistory cleared schedule =>
    cases updates
    have differs : cleared ≠ channelId := by simpa [HistoryCommand.clears] using keeps
    exact List.mem_filter.mpr ⟨among, bne_iff_ne.mpr (Ne.symm differs)⟩
  | clearAllHistory schedules => cases updates

section

variable (answering : Answering calls place moment call request next answer shared)
include answering

theorem dropped_settled (upToDate : UpToDate calls.shared call) (writes : writesIndex request = true)
    (listed : channelId ∈ (calls.shared.atTime moment.now).listed) :
    channelId ∈ writtenBy request ∨ isSettled (calls.shared.atTime moment.now) calls.members channelId = true := by
  have may := may_write answering.may writes
  cases updates : call.command.update? with
  | none =>
    simp only [mayWrite, updates, Option.isNone_none, if_true, List.all_eq_true, Bool.or_eq_true,
      List.contains_iff_mem] at may
    exact may _ listed
  | some update =>
    obtain ⟨found, read, unwritten, written⟩ := written_update answering.permitted writes updates
    simp only [mayWrite, updates, Option.isNone_some, Bool.false_eq_true, if_false] at may
    split at may
    · rename_i holds
      simp only [List.all_eq_true, Bool.or_eq_true, Bool.not_eq_true'] at may
      rcases may _ listed with keeps | settled
      · have updating : isUpdating calls.shared call = true :=
          isUpdating_iff.mpr ⟨holds, ⟨found, read⟩, unwritten⟩
        obtain ⟨found', read', among⟩ := upToDate updating channelId
          (HistoryRows.listed_atTime answering.forward listed)
        cases read.symm.trans read'
        rw [written]
        exact .inl (update_keeps updates keeps among)
      · exact .inr settled
    · simp only [Bool.and_eq_true, List.all_eq_true, Bool.or_eq_true, List.contains_iff_mem] at may
      exact may.2 _ listed

theorem not_updating_of_write
    (reached : historyStore.Reachable Careful calls) (writes : writesIndex request = true) (updates : call.command.update? = some update) (found : calls.members[other]? = some second) (differs : other ≠ place) :
    isUpdating calls.shared second = false := by
  have may := may_write answering.may writes
  simp only [mayWrite, updates, Option.isNone_some, Bool.false_eq_true, if_false] at may
  split at may
  · rename_i holds
    refine Bool.eq_false_iff.mpr fun updating => differs ?_
    exact one_holder reached found answering.found (isUpdating_iff.mp updating).1 holds
  · simp only [Bool.and_eq_true, List.all_eq_true, Bool.not_eq_true'] at may
    exact may.1 _ (List.mem_of_getElem? found)

theorem upToDate_others (reached : historyStore.Reachable Careful calls)
    (found : calls.members[other]? = some second) (differs : other ≠ place)
    (upToDate : UpToDate calls.shared second) : UpToDate shared second := by
  intro updating channelId listed
  obtain ⟨holds, read, unwritten⟩ := isUpdating_iff.mp updating
  have before : isUpdating calls.shared second = true :=
    isUpdating_iff.mpr ⟨(holder_before answering reached found holds).1, read, unwritten⟩
  obtain ⟨index, cached, among⟩ := HistoryRows.mem_listed.mp listed
  rcases index_of_perform answering.performed with ⟨-, same⟩ | ⟨channels, rfl, -⟩ | ⟨rfl, gone⟩
  · rw [same] at cached
    exact upToDate before channelId (HistoryRows.listed_atTime answering.forward
      (HistoryRows.mem_listed.mpr ⟨index, cached, among⟩))
  · rcases answering.permitted with ⟨clock, -⟩ | ⟨update, -, updates, -⟩
    · cases clock
    · have idle := not_updating_of_write answering reached rfl updates found differs
      exact absurd before (by rw [idle]; decide)
  · rw [gone] at cached
    cases cached

theorem upToDate_own (reached : historyStore.Reachable Careful calls) (upToDate : UpToDate calls.shared call) :
    UpToDate shared ⟨call.command, ⟨request, answer⟩ :: call.said, next answer⟩ := by
  intro updating channelId listed
  obtain ⟨holds, ⟨found, read⟩, unwritten⟩ := isUpdating_iff.mp updating
  simp only [hasWritten, List.any_cons, Bool.or_eq_false_iff] at unwritten
  have listedBefore : channelId ∈ (calls.shared.atTime moment.now).listed := by
    obtain ⟨index, cached, among⟩ := HistoryRows.mem_listed.mp listed
    rcases index_of_perform answering.performed with ⟨-, same⟩ | ⟨channels, rfl, -⟩ | ⟨rfl, -⟩
    · exact HistoryRows.mem_listed.mpr ⟨index, same ▸ cached, among⟩
    · cases unwritten.1
    · cases unwritten.1
  simp only [readIndex, List.findSome?_cons] at read ⊢
  cases reads : readIn ⟨request, answer⟩ with
  | some channels => exact ⟨channels, rfl, (read_of_perform answering.performed reads).1 ▸ listedBefore⟩
  | none =>
    rw [reads] at read
    have held : calls.shared.isHolder call = true := by
      cases gives : givenIn ⟨request, answer⟩ with
      | some token =>
        -- who asks for the lock has read nothing yet
        cases request_of_given gives
        rcases answering.permitted with ⟨clock, -⟩ | unread
        · cases clock
        · cases unread.symm.trans read
      | none =>
        have holdsCall : shared.isHolder call = true := by
          simpa [HistoryRows.isHolder, gives] using holds
        exact (holder_before answering reached answering.found holdsCall).1
    exact upToDate (isUpdating_iff.mpr ⟨held, ⟨found, read⟩, unwritten.2⟩) channelId
      (HistoryRows.listed_atTime answering.forward listedBefore)

end

theorem readers_upToDate (reached : historyStore.Reachable Careful calls) :
    ∀ call ∈ calls.members, UpToDate calls.shared call := by
  let current (calls : HistoryCalls ε) : Prop := ∀ call ∈ calls.members, UpToDate calls.shared call
  change current calls
  refine reached.invariant ?_ ?_
  · rintro calls ⟨-, empty⟩ call present
    rw [empty] at present
    cases present
  · intro before event after reached earlier careful stepped call present
    rcases step_answering reached careful stepped with ⟨command, -, -, rfl⟩ |
      ⟨place, moment, asking, request, next, answer, shared, -, answering, rfl⟩
    · rcases List.mem_append.mp present with old | new
      · exact earlier call old
      · rw [List.mem_singleton.mp new]
        intro updating
        obtain ⟨-, ⟨found, read⟩, -⟩ := isUpdating_iff.mp updating
        cases read
    · obtain ⟨other, found⟩ := List.mem_iff_getElem?.mp present
      rcases getElem?_set_cases found with ⟨rfl, rfl⟩ | ⟨differs, old⟩
      · exact upToDate_own answering reached (earlier _ (List.mem_of_getElem? answering.found))
      · exact upToDate_others answering reached old differs (earlier _ (List.mem_of_getElem? old))

end Readers

end Lobu.Connections
