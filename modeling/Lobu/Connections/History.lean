import Lobu.Connections.StateAdapter
import Lobu.Foundation.Together

namespace Lobu.Connections

open Lobu.Foundation

/-! # Conversation history

The calls of the conversation state store for the history of one connection, by any number of
processes.  The adapter has the index of the channels among its cached values and the entries among
its lists.
-/

/-- `historyKey` and `historyIndexKey`. -/
inductive HistoryKey where
  | history (channelId : String)
  | historyIndex
deriving DecidableEq

/-- The names of the index, without the times that nobody reads. -/
structure CachedIndex where
  channels : List String
  expiresAt : Int

structure HistoryRow (ε : Type) where
  channelId : String
  entry : ε
  expiresAt : Int

/-- The lock of the index, the rows of `chat_state_cache` by their keys, and those of
`chat_state_lists` by their numbers. -/
structure HistoryRows (ε : Type) where
  now : Int := 0
  lock : StateLock := {}
  cache : HistoryKey → Option CachedIndex := fun _ => none
  lists : List (HistoryRow ε) := []

def MAX_HISTORY_MESSAGES : Nat := 10

def HISTORY_TTL_MS : Int := 86400000

def HISTORY_INDEX_LOCK_TTL_MS : Int := 5000

variable {ε : Type}

namespace HistoryRows

/-- The index that a read finds. -/
def index? (rows : HistoryRows ε) : Option CachedIndex :=
  (rows.cache .historyIndex).filter fun index => decide (rows.now < index.expiresAt)

def setKey (rows : HistoryRows ε) (key : HistoryKey) (value : Option CachedIndex) : HistoryRows ε :=
  { rows with cache := Function.update rows.cache key value }

/-- The rows but for so many first ones of the channel. -/
def withoutFirst (channelId : String) : Nat → List (HistoryRow ε) → List (HistoryRow ε)
  | 0, lists => lists
  | _ + 1, [] => []
  | count + 1, row :: lists =>
    if row.channelId = channelId then withoutFirst channelId count lists
    else row :: withoutFirst channelId (count + 1) lists

def trim (lists : List (HistoryRow ε)) (channelId : String) (maxLength : Nat) : List (HistoryRow ε) :=
  withoutFirst channelId ((lists.countP fun row => row.channelId == channelId) - maxLength) lists

theorem mem_of_withoutFirst {channelId : String} {count : Nat} {lists : List (HistoryRow ε)}
    {row : HistoryRow ε} (present : row ∈ withoutFirst channelId count lists) : row ∈ lists := by
  induction lists generalizing count with
  | nil => cases count <;> exact present
  | cons first lists ih =>
    cases count with
    | zero => exact present
    | succ count =>
      simp only [withoutFirst] at present
      split at present
      · exact .tail _ (ih present)
      · rcases List.mem_cons.mp present with rfl | later
        · exact .head _
        · exact .tail _ (ih later)

theorem mem_of_trim {lists : List (HistoryRow ε)} {channelId : String} {maxLength : Nat}
    {row : HistoryRow ε} (present : row ∈ trim lists channelId maxLength) : row ∈ lists :=
  mem_of_withoutFirst present

def touch (lists : List (HistoryRow ε)) (channelId : String) (expiresAt : Int) : List (HistoryRow ε) :=
  lists.map fun row => if row.channelId = channelId then { row with expiresAt } else row

end HistoryRows

/-- `readClock` is no statement of the adapter but `Date.now()`. -/
inductive HistoryStep (ε : Type) where
  | readClock
  | acquireLock
  | releaseLock (token : Nat)
  | getIndex
  | cleanIndex
  | setIndex (channels : List String)
  | delete (key : HistoryKey)
  | insertEntry (channelId : String) (entry : ε) (expiresAt : Int)
  | trimList (channelId : String)
  | touchList (channelId : String) (expiresAt : Int)

inductive Acquired where
  | given (token : Nat)
  | contended
  | failed

abbrev HistoryAnswer (ε : Type) : HistoryStep ε → Type
  | .readClock => Int
  | .acquireLock => Acquired
  | .getIndex => Option (List String)
  | _ => Unit

/-- The statements for the lock may fail, which the store goes on from. -/
structure HistoryMoment extends AdapterMoment where
  fails : Bool := false

def HistoryRows.perform (rows : HistoryRows ε) (moment : HistoryMoment) :
    (step : HistoryStep ε) → HistoryAnswer ε step × HistoryRows ε
  | .readClock => (moment.clock, rows)
  | .acquireLock =>
    if moment.fails then (.failed, rows)
    else
      match rows.lock.acquire rows.now (moment.clock + HISTORY_INDEX_LOCK_TTL_MS) with
      | (some token, lock) => (.given token, { rows with lock })
      | (none, lock) => (.contended, { rows with lock })
  | .releaseLock token =>
    if moment.fails then ((), rows) else ((), { rows with lock := rows.lock.release token })
  | .getIndex => (rows.index?.map CachedIndex.channels, rows)
  | .cleanIndex => ((), rows.setKey .historyIndex rows.index?)
  | .setIndex channels =>
    ((), rows.setKey .historyIndex (some ⟨channels, moment.clock + HISTORY_TTL_MS⟩))
  | .delete key => ((), rows.setKey key none)
  | .insertEntry channelId entry expiresAt =>
    ((), { rows with lists := rows.lists ++ [⟨channelId, entry, expiresAt⟩] })
  | .trimList channelId =>
    ((), { rows with lists := HistoryRows.trim rows.lists channelId MAX_HISTORY_MESSAGES })
  | .touchList channelId expiresAt =>
    ((), { rows with lists := HistoryRows.touch rows.lists channelId expiresAt })

def HistoryRows.serve : Service (HistoryRows ε) HistoryMoment (HistoryAnswer ε)
  | rows, step, moment =>
    if moment.now < rows.now then none
    else some (HistoryRows.perform { rows with now := moment.now } moment step)

abbrev HistoryProcess (ε α : Type) := Process (HistoryStep ε) (HistoryAnswer ε) α

abbrev HistoryStep.run (step : HistoryStep ε) : HistoryProcess ε (HistoryAnswer ε step) :=
  Process.answerTo step

def get : HistoryProcess ε (Option (List String)) := do
  match ← HistoryStep.run .getIndex with
  | some channels => return some channels
  | none =>
    HistoryStep.run .cleanIndex
    return none

def appendToList (channelId : String) (entry : ε) (expiresAt : Int) : HistoryProcess ε Unit := do
  HistoryStep.run (.insertEntry channelId entry expiresAt)
  HistoryStep.run (.trimList channelId)
  HistoryStep.run (.touchList channelId expiresAt)

def acquireIndexLock : (attempts : Nat) → HistoryProcess ε (Option Nat)
  | 0 => return none
  | attempts + 1 => do
      match ← HistoryStep.run .acquireLock with
      | .given token => return some token
      | .contended => acquireIndexLock attempts
      | .failed => return none

def writeIndex (next : List String) : HistoryProcess ε Unit :=
  if next = [] then HistoryStep.run (.delete .historyIndex)
  else HistoryStep.run (.setIndex next)

def updateHistoryIndex (update : List String → List String) : HistoryProcess ε Unit := do
  let lock ← acquireIndexLock 3
  let current ← get
  writeIndex (update (current.getD []))
  match lock with
  | some token => HistoryStep.run (.releaseLock token)
  | none => return ()

/-- `index[channelId] = Date.now()`.  The name `__proto__` sets no property. -/
def withChannel (channelId : String) (index : List String) : List String :=
  if channelId = "__proto__" ∨ channelId ∈ index then index else index ++ [channelId]

/-- `delete index[channelId]`. -/
def withoutChannel (channelId : String) (index : List String) : List String :=
  index.filter fun listed => listed != channelId

def trackHistoryChannel (channelId : String) : HistoryProcess ε Unit :=
  updateHistoryIndex (withChannel channelId)

def removeHistoryChannel (channelId : String) : HistoryProcess ε Unit :=
  updateHistoryIndex (withoutChannel channelId)

def listHistoryChannels : HistoryProcess ε (List String) := do
  let index ← get
  return index.getD []

inductive HistoryReply where
  | finished
  | cleared (count : Nat)

/-- Both parts begin at once; the time from which the entry lives is read then. -/
def appendHistory (channelId : String) (entry : ε) (schedule : List Bool) :
    HistoryProcess ε HistoryReply := do
  let started ← HistoryStep.run .readClock
  let _ ← Process.both schedule (trackHistoryChannel channelId)
    (appendToList channelId entry (started + HISTORY_TTL_MS))
  return .finished

def clearHistory (channelId : String) (schedule : List Bool) : HistoryProcess ε HistoryReply := do
  let _ ← Process.both schedule (HistoryStep.run (.delete (.history channelId)))
    (removeHistoryChannel channelId)
  return .finished

def clearAllHistory (schedules : List (List Bool)) : HistoryProcess ε HistoryReply := do
  let channels ← listHistoryChannels
  let keys := channels.map HistoryKey.history ++ [.historyIndex]
  Process.together (keys.map fun key => HistoryStep.run (.delete key)) schedules
  return .cleared channels.length

/-- The calls, each with an order in which its parts are answered. -/
inductive HistoryCommand (ε : Type) where
  | appendHistory (channelId : String) (entry : ε) (schedule : List Bool)
  | clearHistory (channelId : String) (schedule : List Bool)
  | clearAllHistory (schedules : List (List Bool))

def HistoryCommand.call : HistoryCommand ε → HistoryProcess ε HistoryReply
  | .appendHistory channelId entry schedule => Connections.appendHistory channelId entry schedule
  | .clearHistory channelId schedule => Connections.clearHistory channelId schedule
  | .clearAllHistory schedules => Connections.clearAllHistory schedules

abbrev HistoryCalls (ε : Type) :=
  Crowd (HistoryCommand ε) (HistoryRows ε) (HistoryAnswer ε) HistoryReply

abbrev HistoryCall (ε : Type) := Member (HistoryCommand ε) (HistoryAnswer ε) HistoryReply

/-- The calls that begin with nothing stored. -/
def historyStore : Machine (HistoryCalls ε) (CrowdEvent (HistoryCommand ε) HistoryMoment) :=
  Crowd.crowds HistoryCommand.call HistoryRows.serve fun rows =>
    rows.lock = {} ∧ rows.cache = (fun _ => none) ∧ rows.lists = []

section Statements

variable {rows later : HistoryRows ε} {step : HistoryStep ε} {moment : HistoryMoment}
variable {answer : HistoryAnswer ε step}

theorem HistoryRows.serve_performs (served : HistoryRows.serve rows step moment = some (answer, later)) :
    rows.now ≤ moment.now ∧ HistoryRows.perform { rows with now := moment.now } moment step = (answer, later) := by
  by_cases early : moment.now < rows.now
  · simp [HistoryRows.serve, early] at served
  · refine ⟨by omega, ?_⟩
    simpa only [HistoryRows.serve, if_neg early, Option.some.injEq] using served

end Statements

end Lobu.Connections
