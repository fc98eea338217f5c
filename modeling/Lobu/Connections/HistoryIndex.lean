import Lobu.Connections.History

namespace Lobu.Connections

open Lobu.Foundation

variable {ε : Type} {calls after : HistoryCalls ε}

/-! # The index of the history

The index lists every channel that has entries as long as nothing takes a channel off it that has
entries left or an entry on its way.  Writers that have the lock lose nothing that another has
written; a writer without it may, and a clear takes a channel off though its entries stay.
-/

abbrev HistoryDialogue (ε : Type) := List (Exchange (HistoryAnswer ε))

def writesIndex : HistoryStep ε → Bool
  | .setIndex _ => true
  | .delete .historyIndex => true
  | _ => false

def hasWritten (said : HistoryDialogue ε) : Bool :=
  said.any fun exchange => writesIndex exchange.request

def readIn : Exchange (HistoryAnswer ε) → Option (List String)
  | ⟨.getIndex, answer⟩ => some (answer.getD [])
  | _ => none

/-- The index that a call has read. -/
def readIndex (said : HistoryDialogue ε) : Option (List String) :=
  said.findSome? readIn

def clockIn : Exchange (HistoryAnswer ε) → Option Int
  | ⟨.readClock, clock⟩ => some clock
  | _ => none

/-- The time at which a call has begun. -/
def startedAt (said : HistoryDialogue ε) : Option Int :=
  said.findSome? clockIn

def givenIn : Exchange (HistoryAnswer ε) → Option Nat
  | ⟨.acquireLock, .given token⟩ => some token
  | _ => none

def isUnderWay (call : HistoryCall ε) : Bool :=
  match call.rest with
  | .done _ => false
  | .ask _ _ => true

/-- No call is under way. -/
def NoneUnderWay (calls : HistoryCalls ε) : Prop :=
  ∀ call ∈ calls.members, isUnderWay call = false

def HistoryCommand.appendsTo (command : HistoryCommand ε) (channelId : String) : Bool :=
  match command with
  | .appendHistory appended _ _ => appended == channelId
  | _ => false

def HistoryCommand.clears (command : HistoryCommand ε) (channelId : String) : Bool :=
  match command with
  | .clearHistory cleared _ => cleared == channelId
  | _ => false

/-- What an update of the index makes of it. -/
def HistoryCommand.update? : HistoryCommand ε → Option (List String → List String)
  | .appendHistory channelId _ _ => some (withChannel channelId)
  | .clearHistory channelId _ => some (withoutChannel channelId)
  | .clearAllHistory _ => none

namespace HistoryRows

def listed (rows : HistoryRows ε) : List String :=
  (rows.index?.map CachedIndex.channels).getD []

/-- The channel has an entry that has not expired. -/
def hasLive (rows : HistoryRows ε) (channelId : String) : Bool :=
  rows.lists.any fun row => row.channelId == channelId && decide (rows.now < row.expiresAt)

def isHolder (rows : HistoryRows ε) (call : HistoryCall ε) : Bool :=
  rows.lock.lease.any fun lease =>
    call.said.any fun exchange => decide (givenIn exchange = some lease.token)

end HistoryRows

/-- An append that has listed its channel and is still under way. -/
def hasListed (channelId : String) (call : HistoryCall ε) : Bool :=
  call.command.appendsTo channelId && hasWritten call.said && isUnderWay call

/-- Taking the channel off the index does no harm. -/
def isSettled (rows : HistoryRows ε) (members : List (HistoryCall ε)) (channelId : String) : Bool :=
  !rows.hasLive channelId && !members.any (hasListed channelId)

/-- A call that has the lock and is between its read and its write. -/
def isUpdating (rows : HistoryRows ε) (call : HistoryCall ε) : Bool :=
  rows.isHolder call && (readIndex call.said).isSome && !hasWritten call.said

/-- An update that has the lock may take a settled channel off the index.  One without it may take
only settled channels off it, and only where no call with the lock is updating it; so may a call
that deletes the index. -/
def mayWrite (rows : HistoryRows ε) (members : List (HistoryCall ε)) (call : HistoryCall ε)
    (channels : List String) : Bool :=
  let keepsUnsettled := rows.listed.all fun channelId =>
    channels.contains channelId || isSettled rows members channelId
  if call.command.update?.isNone then keepsUnsettled
  else if rows.isHolder call then
    rows.listed.all fun channelId => !call.command.clears channelId || isSettled rows members channelId
  else (members.all fun other => !isUpdating rows other) && keepsUnsettled

def mayPerform (rows : HistoryRows ε) (members : List (HistoryCall ε)) (call : HistoryCall ε) : HistoryStep ε → Bool
  | .setIndex channels => mayWrite rows members call channels
  | .delete .historyIndex => mayWrite rows members call []
  | _ => true

/-- Clocks agree, no channel has the name that is no property, and the index is written only where
it may be. -/
def isCareful (calls : HistoryCalls ε) : CrowdEvent (HistoryCommand ε) HistoryMoment → Bool
  | .join (.appendHistory channelId _ _) => channelId != "__proto__"
  | .join _ => true
  | .answer place moment =>
    decide (moment.clock = moment.now) &&
      match calls.members[place]? with
      | some ⟨command, said, .ask request next⟩ =>
        mayPerform { calls.shared with now := moment.now } calls.members
          ⟨command, said, .ask request next⟩ request
      | _ => true

def Careful : Discipline (HistoryCalls ε) (CrowdEvent (HistoryCommand ε) HistoryMoment) :=
  fun calls event => isCareful calls event = true

instance (calls : HistoryCalls ε) (event : CrowdEvent (HistoryCommand ε) HistoryMoment) :
    Decidable (Careful calls event) :=
  inferInstanceAs (Decidable (isCareful calls event = true))

/-- The requests of an update, all else being the other part of a call. -/
def ofIndex : HistoryStep ε → Bool
  | .acquireLock | .releaseLock _ | .getIndex | .cleanIndex | .setIndex _ => true
  | .delete .historyIndex => true
  | _ => false

/-- What a part of a call asks: an index is written as the update makes it of what was read, and
entries live from the time at which the call began. -/
def partPermits (command : HistoryCommand ε) (said : HistoryDialogue ε) : HistoryStep ε → Prop
  | .readClock => False
  | .acquireLock => readIndex said = none
  | .setIndex channels => ∃ update found, command.update? = some update ∧
      readIndex said = some found ∧ hasWritten said = false ∧ channels = update found
  | .delete .historyIndex => ∀ update, command.update? = some update →
      ∃ found, readIndex said = some found ∧ hasWritten said = false ∧ update found = []
  | .insertEntry channelId _ expiresAt => command.appendsTo channelId = true ∧
      ∃ started, startedAt said = some started ∧ expiresAt = started + HISTORY_TTL_MS
  | .trimList channelId => command.appendsTo channelId = true
  | .touchList channelId expiresAt => command.appendsTo channelId = true ∧
      ∃ started, startedAt said = some started ∧ expiresAt = started + HISTORY_TTL_MS
  | _ => True

def historyPermits (command : HistoryCommand ε) (said : HistoryDialogue ε) (step : HistoryStep ε) : Prop :=
  (step = .readClock ∧ hasWritten said = false) ∨ partPermits command said step

/-- An append ends with its channel listed. -/
def historyLeaves (command : HistoryCommand ε) (said : HistoryDialogue ε) : Prop :=
  ∀ channelId, command.appendsTo channelId = true → hasWritten said = true

section Conduct

open Process

variable {command : HistoryCommand ε} {said more : HistoryDialogue ε}

theorem readIndex_ofKind (said : HistoryDialogue ε) : readIndex (ofKind ofIndex true said) = readIndex said :=
  findSome?_ofKind (by rintro ⟨request, answer⟩ foreign; cases request <;> first | rfl | cases foreign) said

theorem startedAt_ofKind (said : HistoryDialogue ε) : startedAt (ofKind ofIndex false said) = startedAt said :=
  findSome?_ofKind (by rintro ⟨request, answer⟩ foreign; cases request <;> first | rfl | cases foreign) said

theorem hasWritten_ofKind (said : HistoryDialogue ε) : hasWritten (ofKind ofIndex true said) = hasWritten said := by
  refine any_ofKind ?_ said
  rintro ⟨request, answer⟩ foreign
  cases request with
  | delete key => cases key <;> first | rfl | cases foreign
  | _ => first | rfl | cases foreign

theorem readIndex_alike (same : ofKind ofIndex true said = ofKind ofIndex true more) :
    readIndex said = readIndex more := by
  rw [← readIndex_ofKind said, same, readIndex_ofKind]

theorem startedAt_alike (same : ofKind ofIndex false said = ofKind ofIndex false more) :
    startedAt said = startedAt more := by
  rw [← startedAt_ofKind said, same, startedAt_ofKind]

theorem hasWritten_alike (same : ofKind ofIndex true said = ofKind ofIndex true more) :
    hasWritten said = hasWritten more := by
  rw [← hasWritten_ofKind said, same, hasWritten_ofKind]

theorem partPermits_local (command : HistoryCommand ε) : Local ofIndex (partPermits command) := by
  intro said more request same permitted
  cases request with
  | acquireLock => exact (readIndex_alike same).symm.trans permitted
  | setIndex channels =>
    obtain ⟨update, found, updates, read, unwritten, rfl⟩ := permitted
    exact ⟨update, found, updates, (readIndex_alike same).symm.trans read,
      (hasWritten_alike same).symm.trans unwritten, rfl⟩
  | delete key =>
    cases key with
    | history channelId => trivial
    | historyIndex =>
      intro update updates
      obtain ⟨found, read, unwritten, empty⟩ := permitted update updates
      exact ⟨found, (readIndex_alike same).symm.trans read, (hasWritten_alike same).symm.trans unwritten, empty⟩
  | insertEntry channelId entry expiresAt =>
    obtain ⟨appends, started, began, expires⟩ := permitted
    exact ⟨appends, started, (startedAt_alike same).symm.trans began, expires⟩
  | touchList channelId expiresAt =>
    obtain ⟨appends, started, began, expires⟩ := permitted
    exact ⟨appends, started, (startedAt_alike same).symm.trans began, expires⟩
  | _ => exact permitted

abbrev indexPart (command : HistoryCommand ε) : HistoryDialogue ε → HistoryStep ε → Prop :=
  within ofIndex true (partPermits command)

abbrev listPart (command : HistoryCommand ε) : HistoryDialogue ε → HistoryStep ε → Prop :=
  within ofIndex false (partPermits command)

theorem undisturbed_index (command : HistoryCommand ε) :
    Undisturbed (historyPermits command) (indexPart command) (listPart command)
      (fun said (_ : Unit) => hasWritten said = true) :=
  undisturbed_kinds (partPermits_local command)
    (fun _ _ _ same written => (hasWritten_alike same).symm.trans written)
    fun _ _ permitted => .inr permitted

theorem undisturbed_list (command : HistoryCommand ε) :
    Undisturbed (historyPermits command) (listPart command) (indexPart command) (fun _ (_ : Unit) => True) :=
  undisturbed_kinds (partPermits_local command) (fun _ _ _ _ _ => trivial)
    fun _ _ permitted => .inr permitted

theorem acquireIndexLock_keeps (attempts : Nat) (unread : readIndex said = none)
    (unwritten : hasWritten said = false) :
    (acquireIndexLock attempts).Keeps (indexPart command) (fun _ _ => True)
      (fun said _ => readIndex said = none ∧ hasWritten said = false) said := by
  induction attempts generalizing said with
  | zero => exact ⟨unread, unwritten⟩
  | succ attempts ih =>
    refine Keeps.answered ⟨unread, rfl⟩ ?_
    intro answer _
    cases answer with
    | given token => exact ⟨unread, unwritten⟩
    | contended => exact ih unread unwritten
    | failed => exact ⟨unread, unwritten⟩

theorem get_keeps (unwritten : hasWritten said = false) :
    get.Keeps (indexPart command) (fun _ _ => True)
      (fun said found => readIndex said = some (found.getD []) ∧ hasWritten said = false) said := by
  refine Keeps.answered ⟨trivial, rfl⟩ ?_
  intro answer _
  cases answer with
  | none => exact Keeps.answered ⟨trivial, rfl⟩ fun _ _ => ⟨rfl, unwritten⟩
  | some channels => exact ⟨rfl, unwritten⟩

theorem writeIndex_keeps {update : List String → List String} {found : List String}
    (updates : command.update? = some update) (read : readIndex said = some found)
    (unwritten : hasWritten said = false) :
    (writeIndex (update found)).Keeps (indexPart command) (fun _ _ => True)
      (fun said _ => hasWritten said = true) said := by
  unfold writeIndex
  split
  · rename_i empty
    refine ⟨⟨?_, rfl⟩, fun _ _ => rfl⟩
    intro other updatesOther
    cases updates.symm.trans updatesOther
    exact ⟨found, read, unwritten, empty⟩
  · exact ⟨⟨⟨update, found, updates, read, unwritten, rfl⟩, rfl⟩, fun _ _ => rfl⟩

theorem updateHistoryIndex_keeps {update : List String → List String}
    (updates : command.update? = some update) (unread : readIndex said = none) (unwritten : hasWritten said = false) :
    (updateHistoryIndex update).Keeps (indexPart command) (fun _ _ => True)
      (fun said _ => hasWritten said = true) said := by
  refine (acquireIndexLock_keeps 3 unread unwritten).bind fun _ lock before => ?_
  refine (get_keeps before.2).bind fun _ current read => ?_
  refine (writeIndex_keeps updates read.1 read.2).bind fun _ _ written => ?_
  cases lock with
  | none => exact written
  | some token => exact ⟨⟨trivial, rfl⟩, fun _ _ => written⟩

theorem appendToList_keeps {channelId : String} (entry : ε) {started : Int}
    (appends : command.appendsTo channelId = true) (began : startedAt said = some started) :
    (appendToList channelId entry (started + HISTORY_TTL_MS)).Keeps (listPart command)
      (fun _ _ => True) (fun _ _ => True) said := by
  refine Keeps.answered ⟨⟨appends, started, began, rfl⟩, rfl⟩ fun _ _ => ?_
  refine Keeps.answered ⟨appends, rfl⟩ fun _ _ => ?_
  exact ⟨⟨⟨appends, started, began, rfl⟩, rfl⟩, fun _ _ => trivial⟩

def IsDeletion (step : HistoryStep ε) : Prop :=
  ∃ key, step = .delete key

theorem conduct (command : HistoryCommand ε) :
    command.call.Keeps (historyPermits command) (fun _ _ => True) (fun said _ => historyLeaves command said) [] := by
  cases command with
  | appendHistory channelId entry schedule =>
    refine Keeps.answered (.inl ⟨rfl, rfl⟩) fun started _ => ?_
    have began : startedAt ([⟨.readClock, started⟩] : HistoryDialogue ε) = some started := rfl
    have parts := Keeps.both (undisturbed_index (.appendHistory channelId entry schedule))
      (undisturbed_list _) schedule (updateHistoryIndex_keeps rfl rfl rfl)
      (appendToList_keeps entry (beq_self_eq_true channelId) began)
    exact parts.bind fun _ _ ended _ _ => ended.1
  | clearHistory channelId schedule =>
    have deletes : (HistoryStep.run (.delete (.history channelId))).Keeps
        (listPart (.clearHistory channelId schedule : HistoryCommand ε)) (fun _ _ => True)
        (fun _ _ => True) [] := ⟨⟨trivial, rfl⟩, fun _ _ => trivial⟩
    have parts := Keeps.both (undisturbed_list _) (undisturbed_index _) schedule deletes
      (updateHistoryIndex_keeps rfl rfl rfl)
    exact parts.bind fun _ _ ended _ _ => ended.2
  | clearAllHistory schedules =>
    have gets : listHistoryChannels.Keeps (historyPermits (.clearAllHistory schedules : HistoryCommand ε))
        (fun _ _ => True) (fun _ _ => True) [] :=
      ((get_keeps rfl).permitting fun _ _ permitted => .inr permitted.1).bind fun _ _ _ => trivial
    refine gets.bind fun said channels _ => ?_
    have deletes : (Process.together ((channels.map HistoryKey.history ++ [HistoryKey.historyIndex]).map fun key =>
          HistoryStep.run (.delete key)) schedules).Keeps (fun _ => IsDeletion) (fun _ _ => True)
        (fun _ _ => True) said := by
      refine keeps_together schedules fun part present => ?_
      obtain ⟨key, -, rfl⟩ := List.mem_map.mp present
      exact ⟨⟨key, rfl⟩, fun _ _ => trivial⟩
    have permitted : ∀ (said : HistoryDialogue ε) step, IsDeletion step →
        historyPermits (.clearAllHistory schedules) said step := by
      rintro said step ⟨key, rfl⟩
      cases key with
      | history channelId => exact .inr trivial
      | historyIndex => exact .inr fun _ updates => nomatch updates
    refine (deletes.permitting permitted).bind fun _ _ _ channelId appends => ?_
    cases appends

end Conduct

end Lobu.Connections
