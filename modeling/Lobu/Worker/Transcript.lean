import Lobu.Foundation.Solo

namespace Lobu.Worker

open Lobu.Foundation

/-! # Session transcripts

The session file of a conversation on each pod, its snapshots in the database, and the turns that
write both.  A request to the gateway may get lost, and so may its answer; a snapshot may be stored
after its sender has given up.
-/

inductive TerminalStatus where
  | completed
  | failed
  | timeout
  | cancelled
deriving DecidableEq

/-- A line of a session file, with the number of resets there had been when it was written, which
nothing reads. -/
structure SessionEntry (ε : Type) where
  line : ε
  resets : Nat
deriving DecidableEq

abbrev Transcript (ε : Type) := List (SessionEntry ε)

structure SnapshotRow (ε : Type) where
  runId : Nat
  snapshotJsonl : Transcript ε
  terminalStatus : TerminalStatus

/-- `session.jsonl` and `snapshot-watermark.json`. -/
structure SessionDisk (ε : Type) where
  session : Option (Transcript ε) := none
  watermark : Option Nat := none

/-- The disks of the pods, the snapshots stored for the conversation, and those that are on their
way to the gateway though their senders wait no longer. -/
structure TranscriptWorld (ε : Type) where
  disks : Nat → SessionDisk ε := fun _ => {}
  rows : List (SnapshotRow ε) := []
  posted : List (SnapshotRow ε) := []
  resets : Nat := 0

variable {ε : Type}

/-- The completed snapshot of the greatest run. -/
def latestCompleted : List (SnapshotRow ε) → Option (SnapshotRow ε)
  | [] => none
  | row :: rows =>
    match latestCompleted rows with
    | none => if row.terminalStatus = .completed then some row else none
    | some latest =>
      if row.terminalStatus = .completed ∧ latest.runId < row.runId then some row
      else some latest

/-- `ON CONFLICT … DO NOTHING`. -/
def insertSnapshot (rows : List (SnapshotRow ε)) (row : SnapshotRow ε) : Bool × List (SnapshotRow ε) :=
  if rows.any fun stored => stored.runId == row.runId then (false, rows) else (true, rows ++ [row])

inductive TranscriptStep (ε : Type) where
  | getSnapshot (pod : Nat)
  | postSnapshot (row : SnapshotRow ε)
  | deleteSnapshots
  | readWatermark (pod : Nat)
  | sessionExists (pod : Nat)
  | readSession (pod : Nat)
  | writeSession (pod : Nat) (body : Transcript ε)
  | writeWatermark (pod : Nat) (runId : Nat)
  | unlinkSession (pod : Nat)
  | openSession (pod : Nat)
  | appendEntries (pod : Nat) (lines : List ε)

inductive Fetched (ε : Type) where
  | found (runId : Nat) (body : Transcript ε)
  | notFound
  | failed

inductive Posted where
  | stored
  | conflict
  | failed

abbrev TranscriptAnswer (ε : Type) : TranscriptStep ε → Type
  | .getSnapshot _ => Fetched ε
  | .postSnapshot _ => Posted
  | .deleteSnapshots => Bool
  | .readWatermark _ => Option Nat
  | .sessionExists _ => Bool
  | .readSession _ => Option (Transcript ε)
  | .openSession _ => Transcript ε
  | _ => Unit

/-- What becomes of a request to the gateway. -/
inductive Delivery where
  | answered
  -- it is served, but the answer gets lost
  | lost
  -- it is served, if at all, when nobody waits for the answer
  | late
  -- it is not served
  | dropped
deriving DecidableEq

/-- Before the gateway serves a request, snapshots that were on their way may get there, named by
their places. -/
structure Network where
  delivery : Delivery
  arrivals : List Nat := []

namespace TranscriptWorld

section

variable (world : TranscriptWorld ε)
include world

def setSession (pod : Nat) (session : Option (Transcript ε)) : TranscriptWorld ε :=
  { world with disks := Function.update world.disks pod { world.disks pod with session } }

def setWatermark (pod runId : Nat) : TranscriptWorld ε :=
  let disk : SessionDisk ε := { world.disks pod with watermark := some runId }
  { world with disks := Function.update world.disks pod disk }

/-- The lines as they are written now. -/
def entries (lines : List ε) : Transcript ε :=
  lines.map fun line => ⟨line, world.resets⟩

def arrive (place : Nat) : TranscriptWorld ε :=
  match world.posted[place]? with
  | none => world
  | some row =>
    { world with rows := (insertSnapshot world.rows row).2, posted := world.posted.eraseIdx place }

def arriveAll (arrivals : List Nat) : TranscriptWorld ε :=
  arrivals.foldl arrive world

def getSnapshot : Delivery → Fetched ε × TranscriptWorld ε
  | .answered =>
    match latestCompleted world.rows with
    | some row => (.found row.runId row.snapshotJsonl, world)
    | none => (.notFound, world)
  | _ => (.failed, world)

def postSnapshot (row : SnapshotRow ε) : Delivery → Posted × TranscriptWorld ε
  | .answered =>
    let inserted := insertSnapshot world.rows row
    (if inserted.1 then .stored else .conflict, { world with rows := inserted.2 })
  | .lost => (.failed, { world with rows := (insertSnapshot world.rows row).2 })
  | .late => (.failed, { world with posted := world.posted ++ [row] })
  | .dropped => (.failed, world)

def deleteSnapshots : Delivery → Bool × TranscriptWorld ε
  | .answered => (true, { world with rows := [], resets := world.resets + 1 })
  | .lost => (false, { world with rows := [] })
  | _ => (false, world)

def perform (network : Network) : (step : TranscriptStep ε) → TranscriptAnswer ε step × TranscriptWorld ε
  | .getSnapshot _ => (world.arriveAll network.arrivals).getSnapshot network.delivery
  | .postSnapshot row => (world.arriveAll network.arrivals).postSnapshot row network.delivery
  | .deleteSnapshots => (world.arriveAll network.arrivals).deleteSnapshots network.delivery
  | .readWatermark pod => ((world.disks pod).watermark, world)
  | .sessionExists pod => ((world.disks pod).session.isSome, world)
  | .readSession pod => ((world.disks pod).session, world)
  | .writeSession pod body => ((), world.setSession pod (some body))
  | .writeWatermark pod runId => ((), world.setWatermark pod runId)
  | .unlinkSession pod => ((), world.setSession pod none)
  | .openSession pod => ((world.disks pod).session.getD [], world)
  | .appendEntries pod lines =>
    let session := (world.disks pod).session.getD [] ++ world.entries lines
    ((), world.setSession pod (some session))

end

def serve : Service (TranscriptWorld ε) Network (TranscriptAnswer ε) :=
  fun world step network => some (world.perform network step)

theorem performs {world after : TranscriptWorld ε} {step : TranscriptStep ε} {network : Network}
    {answer : TranscriptAnswer ε step} (served : world.serve step network = some (answer, after)) :
    world.perform network step = (answer, after) :=
  Option.some.inj served

theorem arriveAll_of_none {world : TranscriptWorld ε} (arrived : world.posted = [])
    (arrivals : List Nat) : world.arriveAll arrivals = world := by
  induction arrivals with
  | nil => rfl
  | cons place arrivals ih =>
    have stays : world.arrive place = world := by simp [arrive, arrived]
    rw [arriveAll, List.foldl_cons, stays]
    exact ih

end TranscriptWorld

abbrev WorkerProcess (ε α : Type) := Process (TranscriptStep ε) (TranscriptAnswer ε) α

abbrev TranscriptStep.run (step : TranscriptStep ε) : WorkerProcess ε (TranscriptAnswer ε step) :=
  Process.answerTo step

/-- The local session is at or ahead of the snapshot of this run. -/
def isAhead (localExists : Bool) (localRunId : Option Nat) (dbRunId : Nat) : Bool :=
  localExists && localRunId.any fun runId => decide (dbRunId ≤ runId)

/-- Whether the session was written; nothing where the request failed, from which the caller goes
on. -/
def hydrateFromSnapshot (pod : Nat) : WorkerProcess ε (Option Bool) := do
  match ← TranscriptStep.run (.getSnapshot pod) with
  | .failed => return none
  | .notFound => return some false
  | .found dbRunId body =>
    let localRunId ← TranscriptStep.run (.readWatermark pod)
    let localExists ← TranscriptStep.run (.sessionExists pod)
    if isAhead localExists localRunId dbRunId then return some false
    else do
      TranscriptStep.run (.writeSession pod body)
      TranscriptStep.run (.writeWatermark pod dbRunId)
      return some true

/-- A snapshot that there is already is as good. -/
def sendSnapshot (pod : Nat) (row : SnapshotRow ε) : WorkerProcess ε Unit := do
  match ← TranscriptStep.run (.postSnapshot row) with
  | .stored => TranscriptStep.run (.writeWatermark pod row.runId)
  | .conflict => return ()
  | .failed => return ()

def writeSnapshot (pod runId : Nat) (terminalStatus : TerminalStatus) : WorkerProcess ε Unit := do
  match ← TranscriptStep.run (.readSession pod) with
  | none => return ()
  | some [] => return ()
  | some body => sendSnapshot pod ⟨runId, body, terminalStatus⟩

/-- Without a run there is no snapshot. -/
def cleanup (pod : Nat) (runId : Option Nat) (terminalStatus : TerminalStatus) : WorkerProcess ε Unit :=
  match runId with
  | some runId => writeSnapshot pod runId terminalStatus
  | none => return ()

def clearSnapshots : WorkerProcess ε Unit := do
  let _ ← TranscriptStep.run .deleteSnapshots
  return ()

/-- The agent writes its session file as it goes. -/
def appendAll (pod : Nat) : List (List ε) → WorkerProcess ε Unit
  | [] => return ()
  | lines :: later => do
      TranscriptStep.run (.appendEntries pod lines)
      appendAll pod later

/-- What there is of a turn before its cleanup. -/
def runAISession (pod : Nat) (providerChanged : Bool) (written : List (List ε)) (reset : Bool) :
    WorkerProcess ε Unit := do
  let _ ← hydrateFromSnapshot pod
  if providerChanged then TranscriptStep.run (.unlinkSession pod)
  let _ ← TranscriptStep.run (.openSession pod)
  appendAll pod written
  if reset then do
    TranscriptStep.run (.unlinkSession pod)
    clearSnapshots

/-- What the runtime asks of a worker: a turn, with what is written in it and how it ends. -/
structure TurnCommand (ε : Type) where
  pod : Nat
  runId : Option Nat
  providerChanged : Bool
  written : List (List ε)
  sessionReset : Bool
  terminalStatus : TerminalStatus

def TurnCommand.turn (command : TurnCommand ε) : WorkerProcess ε Unit := do
  runAISession command.pod command.providerChanged command.written command.sessionReset
  cleanup command.pod command.runId command.terminalStatus

abbrev ConversationState (ε : Type) := Solo (TranscriptWorld ε) (TranscriptAnswer ε) Unit

abbrev ConversationEvent (ε : Type) := SoloEvent (TurnCommand ε) Network

/-- Turns on any pods, from nothing stored.  The worker of a turn has the conversation's lock, so
there is one at a time; it may die at any point. -/
def conversation : Machine (ConversationState ε) (ConversationEvent ε) :=
  Solo.solos TurnCommand.turn TranscriptWorld.serve fun world =>
    world.disks = (fun _ => {}) ∧ world.rows = [] ∧ world.posted = []

def emptyPods : ConversationState Nat :=
  let disk : SessionDisk Nat := { session := none, watermark := none }
  ⟨{ disks := fun _ => disk, rows := [], posted := [], resets := 0 }, .done ()⟩

theorem emptyPods_starts : conversation.starts emptyPods := ⟨⟨rfl, rfl, rfl⟩, (), rfl⟩

/-- So many requests that are answered. -/
def answered (count : Nat) : List (ConversationEvent Nat) :=
  List.replicate count (.answer ⟨.answered, []⟩)

section Latest

variable {rows : List (SnapshotRow ε)} {row latest : SnapshotRow ε}

/-- A completed snapshot that hydration may find. -/
def IsLatest (rows : List (SnapshotRow ε)) (latest : SnapshotRow ε) : Prop :=
  latest ∈ rows ∧ latest.terminalStatus = .completed ∧
    ∀ row ∈ rows, row.terminalStatus = .completed → row.runId ≤ latest.runId

theorem latestCompleted_spec (rows : List (SnapshotRow ε)) : (latestCompleted rows = none ∧
      ∀ row ∈ rows, row.terminalStatus ≠ .completed) ∨
    ∃ latest, latestCompleted rows = some latest ∧ latest ∈ rows ∧ latest.terminalStatus = .completed ∧
      ∀ row ∈ rows, row.terminalStatus = .completed → row.runId ≤ latest.runId := by
  induction rows with
  | nil => exact .inl ⟨rfl, by simp⟩
  | cons row rows ih =>
    rcases ih with ⟨none_, others⟩ | ⟨latest, found, among, completed, greatest⟩
    · simp only [latestCompleted, none_]
      by_cases own : row.terminalStatus = .completed
      · rw [if_pos own]
        refine .inr ⟨row, rfl, .head _, own, ?_⟩
        intro other present done
        rcases List.mem_cons.mp present with rfl | later
        · exact le_rfl
        · exact absurd done (others other later)
      · rw [if_neg own]
        refine .inl ⟨rfl, ?_⟩
        intro other present
        rcases List.mem_cons.mp present with rfl | later
        · exact own
        · exact others other later
    · simp only [latestCompleted, found]
      split
      · rename_i newer
        refine .inr ⟨row, rfl, .head _, newer.1, ?_⟩
        intro other present done
        rcases List.mem_cons.mp present with rfl | later
        · exact le_rfl
        · exact (greatest other later done).trans newer.2.le
      · rename_i older
        refine .inr ⟨latest, rfl, .tail _ among, completed, ?_⟩
        intro other present done
        rcases List.mem_cons.mp present with rfl | later
        · exact not_lt.mp fun newer => older ⟨done, newer⟩
        · exact greatest other later done

theorem mem_insertSnapshot {stored : SnapshotRow ε}
    (present : stored ∈ (insertSnapshot rows row).2) : stored ∈ rows ∨ stored = row := by
  unfold insertSnapshot at present
  split at present
  · exact .inl present
  · exact (List.mem_append.mp present).imp_right List.mem_singleton.mp

theorem isLatest_of_found (found : latestCompleted rows = some latest) : IsLatest rows latest := by
  rcases latestCompleted_spec rows with ⟨missing, -⟩ | ⟨other, same, isLatest⟩
  · cases missing.symm.trans found
  · cases same.symm.trans found
    exact isLatest

theorem none_completed (missing : latestCompleted rows = none) : ∀ row ∈ rows, row.terminalStatus ≠ .completed := by
  rcases latestCompleted_spec rows with ⟨-, others⟩ | ⟨other, found, -⟩
  · exact others
  · cases missing.symm.trans found

theorem isLatest_of_insert (isLatest : IsLatest (insertSnapshot rows row).2 latest) :
    latest = row ∨ IsLatest rows latest := by
  obtain ⟨among, done, greatest⟩ := isLatest
  have kept : ∀ other ∈ rows, other ∈ (insertSnapshot rows row).2 := by
    intro other present
    unfold insertSnapshot
    split
    · exact present
    · exact List.mem_append_left _ present
  rcases mem_insertSnapshot among with old | same
  · exact .inr ⟨old, done, fun other present => greatest other (kept other present)⟩
  · exact .inl same

end Latest

end Lobu.Worker
