import Lobu.Foundation.Machine
import Lobu.Foundation.Table
import Mathlib.Data.List.Sort

namespace Lobu.Connections

open Lobu.Foundation

/-! # The queues of the state adapter

Any number of clients enqueue to one queue and dequeue from it.  A statement that deletes rows goes
in two steps: it chooses the rows from what is committed when it begins, and deletes those of them
that are still there.
-/

/-- A row of `chat_state_queues`, with the moments when its number was drawn and when it was
committed. -/
structure QueueRow where
  seq : Nat
  value : String
  expiresAt : Int
  allotted : Nat
  committed : Nat
deriving DecidableEq

inductive QueueCall where
  | enqueue (value : String) (expiresAt maxSize : Int)
  | dequeue
deriving DecidableEq

/-- What the second statement of `dequeue` has chosen, and when. -/
structure QueuePick where
  row : Option QueueRow
  now : Int
  moment : Nat
deriving DecidableEq

/-- Where a client is in its call. -/
inductive QueueStage where
  | idle
  | begun (call : QueueCall)
  | expiring (call : QueueCall) (picked : List Nat)
  | purged (call : QueueCall)
  | inserting (row : QueueRow) (maxSize : Int)
  | inserted (maxSize : Int)
  | trimming (picked : List Nat)
  | trimmed
  | taking (pick : QueuePick)
deriving DecidableEq

/-- A `dequeue` that has returned. -/
structure Dequeued where
  pick : QueuePick
  row : Option QueueRow
  ended : Nat

/-- The rows that are committed, and the clients.  Moments count the steps; that nothing deliverable
was queued at some of them is noted, as are the results of the calls. -/
structure StateQueue where
  now : Int
  rows : List QueueRow
  nextSeq : Nat
  clients : List QueueStage
  moment : Nat
  emptyMoments : List Nat
  depths : List Nat
  dequeued : List Dequeued

inductive QueueEvent where
  | passed (now : Int)
  | invoke (client : Nat) (call : QueueCall)
  | advance (client : Nat)

def hasSeq (picked : List Nat) (row : QueueRow) : Bool := decide (row.seq ∈ picked)

def isEarlier (row other : QueueRow) : Bool := decide (row.seq < other.seq)

namespace StateQueue

section

variable (queue : StateQueue)
include queue

/-- `expires_at > now()`. -/
def deliverable : List QueueRow :=
  queue.rows.filter fun row => decide (queue.now < row.expiresAt)

def expired : List Nat :=
  (queue.rows.filter fun row => decide (row.expiresAt ≤ queue.now)).map QueueRow.seq

/-- `ORDER BY seq ASC LIMIT GREATEST(count(*) - maxSize, 0)`. -/
def surplus (maxSize : Int) : List Nat :=
  let sorted := queue.deliverable.insertionSort fun row other => row.seq ≤ other.seq
  (sorted.take (queue.deliverable.length - maxSize).toNat).map QueueRow.seq

/-- `ORDER BY seq ASC LIMIT 1`. -/
def pick : QueuePick :=
  ⟨firstBy isEarlier queue.deliverable, queue.now, queue.moment⟩

def become (client : Nat) (stage : QueueStage) : StateQueue :=
  { queue with clients := queue.clients.set client stage }

def remove (picked : List Nat) : StateQueue :=
  { queue with rows := deleteWhere (hasSeq picked) queue.rows }

def commit (row : QueueRow) : StateQueue :=
  { queue with rows := queue.rows ++ [{ row with committed := queue.moment }] }

end

/-- The numbers of the rows that a pick wants deleted. -/
def wanted (pick : QueuePick) : List Nat :=
  (pick.row.map QueueRow.seq).toList

def take (queue : StateQueue) (pick : QueuePick) : StateQueue :=
  let found := queue.rows.find? (hasSeq (wanted pick))
  { queue.remove (wanted pick) with
    dequeued := queue.dequeued ++ [⟨pick, found, queue.moment⟩] }

def advance (queue : StateQueue) (client : Nat) : Option StateQueue :=
  match queue.clients[client]? with
  | none => none
  | some .idle => none
  | some (.begun call) => some (queue.become client (.expiring call queue.expired))
  | some (.expiring call picked) => some ((queue.remove picked).become client (.purged call))
  | some (.purged .dequeue) => some (queue.become client (.taking queue.pick))
  | some (.purged (.enqueue value expiresAt maxSize)) =>
    some ({ queue with nextSeq := queue.nextSeq + 1 }.become client
      (.inserting ⟨queue.nextSeq, value, expiresAt, queue.moment, 0⟩ maxSize))
  | some (.inserting row maxSize) =>
    some ((queue.commit row).become client (if 0 < maxSize then .inserted maxSize else .trimmed))
  | some (.inserted maxSize) => some (queue.become client (.trimming (queue.surplus maxSize)))
  | some (.trimming picked) => some ((queue.remove picked).become client .trimmed)
  | some .trimmed =>
    some ({ queue with depths := queue.depths ++ [queue.deliverable.length] }.become client .idle)
  | some (.taking pick) => some ((queue.take pick).become client .idle)

/-- The next moment. -/
def settled (queue : StateQueue) : StateQueue :=
  { queue with
    moment := queue.moment + 1
    emptyMoments :=
      if queue.deliverable = [] then (queue.moment + 1) :: queue.emptyMoments
      else queue.emptyMoments }

def perform (queue : StateQueue) : QueueEvent → Option StateQueue
  | .passed now => if queue.now ≤ now then some { queue with now } else none
  | .invoke client call =>
    if queue.clients[client]? = some .idle then some (queue.become client (.begun call)) else none
  | .advance client => queue.advance client

end StateQueue

/-- From an empty queue and any number of clients. -/
def stateQueues : Machine StateQueue QueueEvent where
  starts queue := queue.rows = [] ∧ queue.dequeued = [] ∧ queue.emptyMoments = [queue.moment] ∧
    ∀ stage ∈ queue.clients, stage = .idle
  step queue event := (queue.perform event).map StateQueue.settled

/-- A client that neither inserts nor dequeues a row. -/
def QueueStage.isQuiet : QueueStage → Bool
  | .inserting .. => false
  | .taking _ => false
  | _ => true

/-- The rows that the next step of a client is to delete. -/
def QueueStage.deletes : QueueStage → List Nat
  | .expiring _ picked => picked
  | .trimming picked => picked
  | .taking pick => StateQueue.wanted pick
  | _ => []

/-- What a step does to a queue, before the moment passes. -/
inductive QueueEffect (queue : StateQueue) : QueueEvent → StateQueue → Prop where
  | passed (later : queue.now ≤ now) : QueueEffect queue (.passed now) { queue with now }
  | begun (found : queue.clients[client]? = some .idle) :
      QueueEffect queue (.invoke client call) (queue.become client (.begun call))
  | moved (found : queue.clients[client]? = some stage) (quiet : after.isQuiet = true)
      (depths : List Nat) :
      QueueEffect queue (.advance client) ({ queue with depths }.become client after)
  | removed (found : queue.clients[client]? = some stage) (quiet : after.isQuiet = true) :
      QueueEffect queue (.advance client) ((queue.remove stage.deletes).become client after)
  | drawn (found : queue.clients[client]? = some stage) (value : String) (expiresAt maxSize : Int) :
      QueueEffect queue (.advance client) ({ queue with nextSeq := queue.nextSeq + 1 }.become client
        (.inserting ⟨queue.nextSeq, value, expiresAt, queue.moment, 0⟩ maxSize))
  | committed (found : queue.clients[client]? = some (.inserting row maxSize))
      (quiet : after.isQuiet = true) :
      QueueEffect queue (.advance client) ((queue.commit row).become client after)
  | picked (found : queue.clients[client]? = some stage) :
      QueueEffect queue (.advance client) (queue.become client (.taking queue.pick))
  | taken (found : queue.clients[client]? = some (.taking pick)) :
      QueueEffect queue (.advance client) ((queue.take pick).become client .idle)

section Effects

variable {queue after : StateQueue} {event : QueueEvent}

theorem effect_of_perform (performed : queue.perform event = some after) : QueueEffect queue event after := by
  cases event with
  | passed now =>
    simp only [StateQueue.perform] at performed
    split at performed
    · rename_i later
      cases performed
      exact .passed later
    · cases performed
  | invoke client call =>
    simp only [StateQueue.perform] at performed
    split at performed
    · rename_i found
      cases performed
      exact .begun found
    · cases performed
  | advance client =>
    simp only [StateQueue.perform, StateQueue.advance] at performed
    split at performed
    · cases performed
    · cases performed
    · rename_i found
      cases performed
      exact .moved found rfl queue.depths
    · rename_i call picked found
      cases performed
      exact .removed found rfl
    · rename_i found
      cases performed
      exact .picked found
    · rename_i value expiresAt maxSize found
      cases performed
      exact .drawn found value expiresAt maxSize
    · rename_i row maxSize found
      cases performed
      refine .committed found ?_
      split <;> rfl
    · rename_i found
      cases performed
      exact .moved found rfl queue.depths
    · rename_i picked found
      cases performed
      exact .removed found rfl
    · rename_i found
      cases performed
      exact .moved found rfl _
    · rename_i pick found
      cases performed
      exact .taken found

theorem effect_of_step (moved : stateQueues.step queue event = some after) :
    ∃ between, QueueEffect queue event between ∧ after = between.settled := by
  obtain ⟨between, performed, rfl⟩ := Option.map_eq_some_iff.mp moved
  exact ⟨between, effect_of_perform performed, rfl⟩

end Effects

end Lobu.Connections
