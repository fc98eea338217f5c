import Lobu.Foundation.Machine
import Lobu.Foundation.Table

namespace Lobu.Connections

open Lobu.Foundation

/-! # Pending questions

The question of a card waits in `pending_interactions` for the click.  Each function is one SQL
statement, so any pods' calls happen one after the other, and a call may be cut off before it
learns what its statement did.
-/

structure QuestionOwner where
  organizationId : String
  connectionId : String
  expectedUserId : String
deriving DecidableEq

structure PendingInteraction (Entry : Type) where
  id : String
  owner : QuestionOwner
  entryPayload : Entry
  createdAt : Int
  claimedAt : Option Int

structure PendingInteractions (Entry : Type) where
  rows : List (PendingInteraction Entry)
  once : (rows.map PendingInteraction.id).Nodup

variable {Entry : Type}

namespace PendingInteractions

def empty : PendingInteractions Entry := ⟨[], List.nodup_nil⟩

def find? (table : PendingInteractions Entry) (questionId : String) : Option (PendingInteraction Entry) :=
  table.rows.find? fun row => decide (row.id = questionId)

def change (table : PendingInteractions Entry) (update : RowUpdate (PendingInteraction Entry))
    (kept : ∀ row, (update.sets row).id = row.id) : PendingInteractions Entry where
  rows := update.run table.rows
  once := by
    rw [update.run_column PendingInteraction.id kept]
    exact table.once

def delete (table : PendingInteractions Entry) (selects : PendingInteraction Entry → Bool) :
    PendingInteractions Entry where
  rows := deleteWhere selects table.rows
  once := table.once.sublist (List.filter_sublist.map _)

theorem find?_none {table : PendingInteractions Entry} {questionId : String}
    (absent : table.find? questionId = none) : questionId ∉ table.rows.map PendingInteraction.id := by
  intro member
  obtain ⟨row, present, same⟩ := List.mem_map.mp member
  have other := List.find?_eq_none.mp absent row present
  exact other (decide_eq_true same)

def insert (table : PendingInteractions Entry) (row : PendingInteraction Entry)
    (absent : table.find? row.id = none) : PendingInteractions Entry where
  rows := table.rows ++ [row]
  once := by
    rw [List.map_append]
    exact List.nodup_append'.mpr ⟨table.once, by simp, by simpa using find?_none absent⟩

end PendingInteractions

inductive QuestionCall (Entry : Type) where
  | storePendingQuestion (questionId : String) (owner : QuestionOwner) (entry : Entry)
  | claimPendingQuestion (questionId : String) (owner : QuestionOwner)
  | sweepStalePendingInteractions (maxAgeMs : Int) (limit : Nat)
  | deletePendingQuestion (questionId : String) (owner : QuestionOwner)

inductive QuestionAnswer (Entry : Type) where
  | stored
  | claimed (entry : Option Entry)
  | swept (ids : List String)
  | deleted (found : Bool)

/-- `ON CONFLICT (id) DO UPDATE`: `created_at` stays, `claimed_at` does not. -/
def storePendingQuestion (questionId : String) (owner : QuestionOwner) (entry : Entry) (now : Int)
    (table : PendingInteractions Entry) : PendingInteractions Entry :=
  match absent : table.find? questionId with
  | some _ =>
    table.change
      { selects := fun row => decide (row.id = questionId)
        sets := fun row => { row with owner, entryPayload := entry, claimedAt := none } }
      fun _ => rfl
  | none => table.insert ⟨questionId, owner, entry, now, none⟩ absent

def claimableBy (owner : QuestionOwner) (row : PendingInteraction Entry) : Bool :=
  decide (row.owner = owner) && row.claimedAt.isNone

def claimPendingQuestion (questionId : String) (owner : QuestionOwner) (now : Int)
    (table : PendingInteractions Entry) : Option Entry × PendingInteractions Entry :=
  let selects (row : PendingInteraction Entry) : Bool :=
    decide (row.id = questionId) && claimableBy owner row
  ((table.rows.find? selects).map PendingInteraction.entryPayload,
    table.change { selects, sets := fun row => { row with claimedAt := some now } } fun _ => rfl)

def deletePendingQuestion (questionId : String) (owner : QuestionOwner)
    (table : PendingInteractions Entry) : Bool × PendingInteractions Entry :=
  let selects (row : PendingInteraction Entry) : Bool :=
    decide (row.id = questionId) && decide (row.owner = owner)
  (table.rows.any selects, table.delete selects)

/-- Which of the stale rows a `LIMIT` leaves is up to the database. -/
def sweepStalePendingInteractions (maxAgeMs : Int) (limit : Nat) (now : Int)
    (picked : List String) (table : PendingInteractions Entry) : Option (List String × PendingInteractions Entry) :=
  let stale := table.rows.filter fun row => decide (row.createdAt < now - maxAgeMs)
  if picked.Nodup ∧ (∀ id ∈ picked, id ∈ stale.map PendingInteraction.id) ∧
      picked.length = min limit stale.length then
    some (picked, table.delete fun row => picked.contains row.id)
  else none

/-- What the database settles for a call, and whether the caller gets to know. -/
structure QuestionEvent (Entry : Type) where
  call : QuestionCall Entry
  now : Int := 0
  picked : List String := []
  answered : Bool := true

structure QuestionRecord (Entry : Type) where
  call : QuestionCall Entry
  answer : QuestionAnswer Entry
  answered : Bool

/-- The table, and the calls that have been committed, the latest first. -/
structure Questions (Entry : Type) where
  table : PendingInteractions Entry
  calls : List (QuestionRecord Entry)

def serve (table : PendingInteractions Entry) (event : QuestionEvent Entry) :
    Option (QuestionAnswer Entry × PendingInteractions Entry) :=
  match event.call with
  | .storePendingQuestion questionId owner entry =>
    some (.stored, storePendingQuestion questionId owner entry event.now table)
  | .claimPendingQuestion questionId owner =>
    let (entry, after) := claimPendingQuestion questionId owner event.now table
    some (.claimed entry, after)
  | .sweepStalePendingInteractions maxAgeMs limit =>
    (sweepStalePendingInteractions maxAgeMs limit event.now event.picked table).map
      fun (ids, after) => (.swept ids, after)
  | .deletePendingQuestion questionId owner =>
    let (found, after) := deletePendingQuestion questionId owner table
    some (.deleted found, after)

def questions : Machine (Questions Entry) (QuestionEvent Entry) where
  starts state := state.table = .empty ∧ state.calls = []
  step state event :=
    (serve state.table event).map fun (answer, after) =>
      ⟨after, ⟨event.call, answer, event.answered⟩ :: state.calls⟩

end Lobu.Connections
