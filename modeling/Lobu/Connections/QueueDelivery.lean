import Lobu.Connections.StateQueue

namespace Lobu.Connections

open Lobu.Foundation

/-! # Deliveries of a queue

Rows are told apart by the numbers that the clients have drawn for them.  A row comes after those
that were committed before its number was drawn.
-/

/-- A row that has been committed and that is still of use. -/
inductive Known (queue : StateQueue) (row : QueueRow) : Prop where
  | queued (present : row ∈ queue.rows)
  | picked {client : Nat} {pick : QueuePick} (found : queue.clients[client]? = some (.taking pick))
      (chosen : pick.row = some row)
  | returned {done : Dequeued} (present : done ∈ queue.dequeued) (result : done.row = some row)

/-- A row that a `dequeue` has chosen at a time. -/
inductive Chosen (queue : StateQueue) (row : QueueRow) : Int → Prop where
  | picked {client : Nat} {pick : QueuePick} (found : queue.clients[client]? = some (.taking pick))
      (chosen : pick.row = some row) : Chosen queue row pick.now
  | returned {done : Dequeued} (present : done ∈ queue.dequeued) (result : done.row = some row) :
      Chosen queue row done.pick.now

/-- A client commits its row. -/
def Commits (queue after : StateQueue) (row : QueueRow) : Prop :=
  ∃ (client : Nat) (drawn : QueueRow) (maxSize : Int),
    queue.clients[client]? = some (.inserting drawn maxSize) ∧
    row = { drawn with committed := queue.moment } ∧
    ∀ (other : QueueRow) (bound : Int), after.clients[client]? ≠ some (.inserting other bound)

section Effects

variable {queue after : StateQueue} {event : QueueEvent} {row : QueueRow} {client : Nat}

theorem stage_of_become {stage now : QueueStage} {other : Nat}
    (found : (queue.become client now).clients[other]? = some stage) :
    other = client ∧ stage = now ∨ other ≠ client ∧ queue.clients[other]? = some stage :=
  getElem?_set_cases found

theorem stage_of_effect {stage : QueueStage} (effect : QueueEffect queue event after)
    (found : after.clients[client]? = some stage) :
    queue.clients[client]? = some stage ∨ stage.isQuiet = true ∨
      (event = .advance client ∧ after.nextSeq = queue.nextSeq + 1 ∧ ∃ value expiresAt maxSize,
          stage = .inserting ⟨queue.nextSeq, value, expiresAt, queue.moment, 0⟩ maxSize) ∨
      stage = .taking queue.pick ∧ after.rows = queue.rows := by
  cases effect with
  | passed later => exact .inl found
  | begun idle =>
    rcases stage_of_become found with ⟨-, rfl⟩ | ⟨-, old⟩
    · exact .inr (.inl rfl)
    · exact .inl old
  | moved was quiet depths =>
    rcases stage_of_become found with ⟨-, rfl⟩ | ⟨-, old⟩
    · exact .inr (.inl quiet)
    · exact .inl old
  | removed was quiet =>
    rcases stage_of_become found with ⟨-, rfl⟩ | ⟨-, old⟩
    · exact .inr (.inl quiet)
    · exact .inl old
  | drawn was value expiresAt maxSize =>
    rcases stage_of_become found with ⟨rfl, rfl⟩ | ⟨-, old⟩
    · exact .inr (.inr (.inl ⟨rfl, rfl, value, expiresAt, maxSize, rfl⟩))
    · exact .inl old
  | committed was quiet =>
    rcases stage_of_become found with ⟨-, rfl⟩ | ⟨-, old⟩
    · exact .inr (.inl quiet)
    · exact .inl old
  | picked was =>
    rcases stage_of_become found with ⟨-, rfl⟩ | ⟨-, old⟩
    · exact .inr (.inr (.inr ⟨rfl, rfl⟩))
    · exact .inl old
  | taken was =>
    rcases stage_of_become found with ⟨-, rfl⟩ | ⟨-, old⟩
    · exact .inr (.inl rfl)
    · exact .inl old

theorem row_of_effect (effect : QueueEffect queue event after) (present : row ∈ after.rows) :
    row ∈ queue.rows ∨ Commits queue after row := by
  cases effect with
  | passed later => exact .inl present
  | begun idle => exact .inl present
  | moved was quiet depths => exact .inl present
  | removed was quiet => exact .inl (mem_deleteWhere.mp present).1
  | drawn was value expiresAt maxSize => exact .inl present
  | committed was quiet =>
    rcases List.mem_append.mp present with old | new
    · exact .inl old
    · refine .inr ⟨_, _, _, was, List.mem_singleton.mp new, ?_⟩
      intro other bound still
      rcases stage_of_become still with ⟨-, rfl⟩ | ⟨different, -⟩
      · cases quiet
      · exact different rfl
  | picked was => exact .inl present
  | taken was => exact .inl (mem_deleteWhere.mp present).1

theorem dequeued_of_effect (effect : QueueEffect queue event after) :
    after.dequeued = queue.dequeued ∨
    ∃ (client : Nat) (pick : QueuePick), queue.clients[client]? = some (.taking pick) ∧
      after.rows = deleteWhere (hasSeq (StateQueue.wanted pick)) queue.rows ∧ after.dequeued = queue.dequeued ++
        [⟨pick, queue.rows.find? (hasSeq (StateQueue.wanted pick)), queue.moment⟩] := by
  cases effect with
  | taken was => exact .inr ⟨_, _, was, rfl, rfl⟩
  | _ => exact .inl rfl

theorem mem_of_pick (chosen : queue.pick.row = some row) : row ∈ queue.rows :=
  (List.mem_filter.mp (firstBy_mem chosen)).1

theorem known_of_effect (effect : QueueEffect queue event after) (known : Known after row) :
    Known queue row ∨ Commits queue after row := by
  cases known with
  | queued present => exact (row_of_effect effect present).imp_left .queued
  | picked found chosen =>
    rcases stage_of_effect effect found with old | quiet | ⟨-, -, _, _, _, drawn⟩ | ⟨picks, -⟩
    · exact .inl (.picked old chosen)
    · cases quiet
    · cases drawn
    · cases picks
      exact .inl (.queued (mem_of_pick chosen))
  | returned present result =>
    rcases dequeued_of_effect effect with same | ⟨client, pick, was, -, grown⟩
    · exact .inl (.returned (same ▸ present) result)
    · rcases List.mem_append.mp (grown ▸ present) with old | new
      · exact .inl (.returned old result)
      · rw [List.mem_singleton.mp new] at result
        exact .inl (.queued (List.mem_of_find?_eq_some result))

structure Ledger (queue : StateQueue) : Prop where
  known : ∀ row, Known queue row → row.seq < queue.nextSeq ∧ row.allotted < queue.moment
  same : ∀ row other, Known queue row → Known queue other → row.seq = other.seq → row = other
  drawn : ∀ (client : Nat) (row : QueueRow) (maxSize : Int),
    queue.clients[client]? = some (.inserting row maxSize) →
      row.seq < queue.nextSeq ∧ row.allotted < queue.moment
  fresh : ∀ (client : Nat) (row : QueueRow) (maxSize : Int),
    queue.clients[client]? = some (.inserting row maxSize) →
      ∀ other, Known queue other → other.seq ≠ row.seq
  apart : ∀ (client other : Nat) (row otherRow : QueueRow) (maxSize otherSize : Int),
    queue.clients[client]? = some (.inserting row maxSize) →
      queue.clients[other]? = some (.inserting otherRow otherSize) →
        row.seq = otherRow.seq → client = other

theorem nextSeq_of_effect (effect : QueueEffect queue event after) :
    queue.nextSeq ≤ after.nextSeq ∧ after.moment = queue.moment := by
  cases effect with
  | drawn => exact ⟨Nat.le_succ _, rfl⟩
  | _ => exact ⟨le_rfl, rfl⟩

theorem inserting_of_effect {maxSize : Int} (effect : QueueEffect queue event after)
    (found : after.clients[client]? = some (.inserting row maxSize)) :
    queue.clients[client]? = some (.inserting row maxSize) ∨
      event = .advance client ∧ row.seq = queue.nextSeq ∧ row.allotted = queue.moment ∧
        after.nextSeq = queue.nextSeq + 1 := by
  rcases stage_of_effect effect found with old | quiet | ⟨advances, next, _, _, _, drawn⟩ | ⟨picks, -⟩
  · exact .inl old
  · cases quiet
  · cases drawn
    exact .inr ⟨advances, rfl, rfl, next⟩
  · cases picks

theorem Ledger.origin (ledger : Ledger queue) (effect : QueueEffect queue event after)
    (known : Known after row) : row.seq < queue.nextSeq ∧ row.allotted < queue.moment := by
  rcases known_of_effect effect known with old | ⟨client, drawn, maxSize, was, rfl, -⟩
  · exact ledger.known row old
  · exact ledger.drawn client drawn maxSize was

theorem Ledger.effect (ledger : Ledger queue) (effect : QueueEffect queue event after) : Ledger after.settled := by
  obtain ⟨nextSeq, moment⟩ := nextSeq_of_effect effect
  have settledMoment : after.settled.moment = queue.moment + 1 := by
    rw [← moment]
    rfl
  have asBefore : ∀ {row}, Known after.settled row → Known after row := by
    intro row known
    cases known with
    | queued present => exact .queued present
    | picked found chosen => exact .picked found chosen
    | returned present result => exact .returned present result
  refine ⟨?_, ?_, ?_, ?_, ?_⟩
  · intro row known
    obtain ⟨seq, allotted⟩ := ledger.origin effect (asBefore known)
    rw [settledMoment]
    exact ⟨seq.trans_le nextSeq, Nat.lt_succ_of_lt allotted⟩
  · intro row other known otherKnown same
    rcases known_of_effect effect (asBefore known) with old | ⟨client, drawn, size, was, rfl, -⟩
    · rcases known_of_effect effect (asBefore otherKnown) with
        otherOld | ⟨client, drawn, size, was, rfl, -⟩
      · exact ledger.same row other old otherOld same
      · exact absurd same (ledger.fresh client drawn size was row old)
    · rcases known_of_effect effect (asBefore otherKnown) with
        otherOld | ⟨otherClient, otherDrawn, otherSize, otherWas, rfl, -⟩
      · exact absurd same.symm (ledger.fresh client drawn size was other otherOld)
      · have one := ledger.apart _ _ _ _ _ _ was otherWas same
        subst one
        rw [was] at otherWas
        cases otherWas
        rfl
  · intro client row maxSize found
    rw [settledMoment]
    rcases inserting_of_effect effect found with old | ⟨-, seq, allotted, next⟩
    · obtain ⟨seq, allotted⟩ := ledger.drawn client row maxSize old
      exact ⟨seq.trans_le nextSeq, Nat.lt_succ_of_lt allotted⟩
    · refine ⟨?_, by omega⟩
      change row.seq < after.nextSeq
      omega
  · intro client row maxSize found other known
    rcases inserting_of_effect effect found with old | ⟨-, seq, -, -⟩
    · rcases known_of_effect effect (asBefore known) with
        otherOld | ⟨otherClient, otherDrawn, otherSize, otherWas, rfl, done⟩
      · exact ledger.fresh client row maxSize old other otherOld
      · intro same
        have one := ledger.apart _ _ _ _ _ _ otherWas old same
        subst one
        exact done row maxSize found
    · have earlier := (ledger.origin effect (asBefore known)).1
      omega
  · intro client other row otherRow maxSize otherSize found otherFound same
    rcases inserting_of_effect effect found with old | ⟨advances, seq, -, -⟩
    · rcases inserting_of_effect effect otherFound with otherOld | ⟨-, otherSeq, -, -⟩
      · exact ledger.apart _ _ _ _ _ _ old otherOld same
      · have earlier := (ledger.drawn client row maxSize old).1
        omega
    · rcases inserting_of_effect effect otherFound with otherOld | ⟨otherAdvances, -, -, -⟩
      · have earlier := (ledger.drawn other otherRow otherSize otherOld).1
        omega
      · rw [advances] at otherAdvances
        exact QueueEvent.advance.inj otherAdvances

/-- What comes later is another row, which had expired if it was enqueued before. -/
def InOrder (first second : Dequeued) : Prop :=
  ∀ row, first.row = some row → ∀ other, second.row = some other →
    row.seq ≠ other.seq ∧ (other.committed < row.allotted → other.expiresAt ≤ first.pick.now)

structure Ordered (queue : StateQueue) : Prop where
  numbers : ∀ early ∈ queue.rows, ∀ late, (Known queue late ∨
    ∃ (client : Nat) (maxSize : Int), queue.clients[client]? = some (.inserting late maxSize)) →
      early.committed < late.allotted → early.seq < late.seq
  chosen : ∀ row now, Chosen queue row now → Known queue row ∧
    ∀ early ∈ queue.rows, early.committed < row.allotted → early.expiresAt ≤ now
  gone : ∀ done ∈ queue.dequeued, ∀ row, done.row = some row →
    ∀ other ∈ queue.rows, other.seq ≠ row.seq
  inOrder : queue.dequeued.Pairwise InOrder

theorem hasSeq_wanted {pick : QueuePick} {chosen : QueueRow} (picked : pick.row = some chosen) :
    hasSeq (StateQueue.wanted pick) row = decide (row.seq = chosen.seq) := by
  simp [hasSeq, StateQueue.wanted, picked]

theorem Ledger.found {pick : QueuePick} (ledger : Ledger queue) (was : queue.clients[client]? = some (.taking pick))
    (found : queue.rows.find? (hasSeq (StateQueue.wanted pick)) = some row) : pick.row = some row := by
  have selected := List.find?_some found
  cases picked : pick.row with
  | none => simp [hasSeq, StateQueue.wanted, picked] at selected
  | some chosen =>
    rw [hasSeq_wanted picked, decide_eq_true_eq] at selected
    rw [ledger.same row chosen (.queued (List.mem_of_find?_eq_some found)) (.picked was picked) selected]

theorem chosen_of_effect {now : Int} (ledger : Ledger queue) (effect : QueueEffect queue event after)
    (chosen : Chosen after row now) :
    Chosen queue row now ∨ queue.pick.row = some row ∧ now = queue.now ∧ after.rows = queue.rows := by
  cases chosen with
  | picked found chosen =>
    rcases stage_of_effect effect found with old | quiet | ⟨-, -, _, _, _, drawn⟩ | ⟨picks, rows⟩
    · exact .inl (.picked old chosen)
    · cases quiet
    · cases drawn
    · cases picks
      exact .inr ⟨chosen, rfl, rows⟩
  | returned present result =>
    rcases dequeued_of_effect effect with same | ⟨client, pick, was, -, grown⟩
    · exact .inl (.returned (same ▸ present) result)
    · rcases List.mem_append.mp (grown ▸ present) with old | new
      · exact .inl (.returned old result)
      · rw [List.mem_singleton.mp new] at result ⊢
        exact .inl (.picked was (ledger.found was result))

theorem Ordered.pick (ordered : Ordered queue) (chosen : queue.pick.row = some row)
    {early : QueueRow} (present : early ∈ queue.rows) (before : early.committed < row.allotted) :
    early.expiresAt ≤ queue.now := by
  by_contra live
  have earlier := ordered.numbers early present row (.inl (.queued (mem_of_pick chosen))) before
  have deliverable : early ∈ queue.deliverable :=
    List.mem_filter.mpr ⟨present, decide_eq_true (not_le.mp live)⟩
  have least := firstBy_least QueueRow.seq (by simp [isEarlier]) chosen early deliverable
  omega

theorem Ordered.effect (ledger : Ledger queue) (ordered : Ordered queue)
    (effect : QueueEffect queue event after) : Ordered after := by
  have committed : ∀ {row}, Commits queue after row → row.committed = queue.moment := by
    rintro row ⟨_, _, _, _, rfl, _⟩
    rfl
  refine ⟨?_, ?_, ?_, ?_⟩
  · intro early present late drawn before
    have allotted : late.allotted ≤ queue.moment := by
      rcases drawn with known | ⟨client, maxSize, found⟩
      · exact (ledger.origin effect known).2.le
      · rcases inserting_of_effect effect found with old | ⟨-, -, allotted, -⟩
        · exact (ledger.drawn client late maxSize old).2.le
        · exact allotted.le
    rcases row_of_effect effect present with earlyOld | fresh
    · rcases drawn with known | ⟨client, maxSize, found⟩
      · rcases known_of_effect effect known with old | ⟨client, drawn, maxSize, was, rfl, -⟩
        · exact ordered.numbers early earlyOld late (.inl old) before
        · exact ordered.numbers early earlyOld drawn (.inr ⟨client, maxSize, was⟩) before
      · rcases inserting_of_effect effect found with old | ⟨-, seq, -, -⟩
        · exact ordered.numbers early earlyOld late (.inr ⟨client, maxSize, old⟩) before
        · rw [seq]
          exact (ledger.known early (.queued earlyOld)).1
    · rw [committed fresh] at before
      omega
  · intro row now chosen
    have known : Known after row := by
      cases chosen with
      | picked found chosen => exact .picked found chosen
      | returned present result => exact .returned present result
    refine ⟨known, ?_⟩
    intro early present before
    rcases row_of_effect effect present with earlyOld | fresh
    · rcases chosen_of_effect ledger effect chosen with old | ⟨picks, rfl, -⟩
      · exact (ordered.chosen row now old).2 early earlyOld before
      · exact ordered.pick picks earlyOld before
    · have allotted := (ledger.origin effect known).2
      rw [committed fresh] at before
      omega
  · intro done present row result other otherPresent
    rcases dequeued_of_effect effect with same | ⟨client, pick, was, rows, grown⟩
    · rw [same] at present
      rcases row_of_effect effect otherPresent with old | ⟨client, drawn, maxSize, was, rfl, -⟩
      · exact ordered.gone done present row result other old
      · exact (ledger.fresh client drawn maxSize was row (.returned present result)).symm
    · rw [rows, mem_deleteWhere] at otherPresent
      rcases List.mem_append.mp (grown ▸ present) with old | new
      · exact ordered.gone done old row result other otherPresent.1
      · rw [List.mem_singleton.mp new] at result
        have kept := otherPresent.2
        rw [hasSeq_wanted (ledger.found was result), decide_eq_false_iff_not] at kept
        exact kept
  · rcases dequeued_of_effect effect with same | ⟨client, pick, was, rows, grown⟩
    · rw [same]
      exact ordered.inOrder
    · rw [grown, List.pairwise_append]
      refine ⟨ordered.inOrder, List.pairwise_singleton _ _, ?_⟩
      intro done present new isNew row result other found
      rw [List.mem_singleton.mp isNew] at found
      have queued : other ∈ queue.rows := List.mem_of_find?_eq_some found
      exact ⟨(ordered.gone done present row result other queued).symm,
        (ordered.chosen row _ (.returned present result)).2 other queued⟩

end Effects

namespace StateQueue

/-- What the next step of a client deletes. -/
def deletes (queue : StateQueue) (client : Nat) : List Nat :=
  (queue.clients[client]?.map QueueStage.deletes).getD []

/-- A client has chosen a row, which is still queued, and another is about to delete it. -/
def snatches (queue : StateQueue) (client other : Nat) : Bool :=
  match queue.clients[other]? with
  | some (.taking pick) => other != client && pick.row.any fun row =>
    decide (row ∈ queue.rows) && hasSeq (queue.deletes client) row
  | _ => false

/-- No chosen row is deleted by another client while something else is deliverable. -/
def sparesPicks (queue : StateQueue) : QueueEvent → Bool
  | .advance client => decide ((queue.remove (queue.deletes client)).deliverable = []) ||
      (List.range queue.clients.length).all fun other => !queue.snatches client other
  | _ => true

end StateQueue

abbrev sparingPicks : Discipline StateQueue QueueEvent :=
  fun queue event => queue.sparesPicks event = true

/-- Nothing deliverable was queued at some moment from the first to the last. -/
def WasEmpty (queue : StateQueue) (first last : Nat) : Prop :=
  ∃ empty ∈ queue.emptyMoments, first ≤ empty ∧ empty ≤ last

structure Watched (queue : StateQueue) : Prop where
  noted : queue.deliverable = [] → queue.moment ∈ queue.emptyMoments
  past : ∀ empty ∈ queue.emptyMoments, empty ≤ queue.moment
  picks : ∀ (client : Nat) (pick : QueuePick), queue.clients[client]? = some (.taking pick) →
    pick.moment ≤ queue.moment ∧
      ((∃ row ∈ queue.rows, pick.row = some row) ∨ WasEmpty queue pick.moment queue.moment)
  nulls : ∀ done ∈ queue.dequeued, done.row = none → WasEmpty queue done.pick.moment done.ended

section Emptiness

variable {queue after : StateQueue} {event : QueueEvent} {row : QueueRow} {client : Nat}

theorem emptyMoments_of_effect (effect : QueueEffect queue event after) :
    after.emptyMoments = queue.emptyMoments := by
  cases effect <;> rfl

theorem deletes_of_found {stage : QueueStage} (found : queue.clients[client]? = some stage) :
    queue.deletes client = stage.deletes := by
  rw [StateQueue.deletes, found, Option.map_some, Option.getD_some]

theorem kept_or_deleted (picked : List Nat) (present : row ∈ queue.rows) :
    row ∈ (queue.remove picked).rows ∨ hasSeq picked row = true := by
  cases deleted : hasSeq picked row with
  | true => exact .inr rfl
  | false => exact .inl (mem_deleteWhere.mpr ⟨present, deleted⟩)

theorem kept_of_effect {pick : QueuePick} (effect : QueueEffect queue event after)
    (found : after.clients[client]? = some (.taking pick)) (present : row ∈ queue.rows) :
    row ∈ after.rows ∨ ∃ other, event = .advance other ∧ client ≠ other ∧ hasSeq (queue.deletes other) row = true ∧
      after.deliverable = (queue.remove (queue.deletes other)).deliverable := by
  cases effect with
  | passed later => exact .inl present
  | begun idle => exact .inl present
  | moved was quiet depths => exact .inl present
  | removed was quiet =>
    rcases stage_of_become found with ⟨-, rfl⟩ | ⟨different, -⟩
    · cases quiet
    · refine (kept_or_deleted _ present).imp_right fun deleted => ⟨_, rfl, different, ?_⟩
      rw [deletes_of_found was]
      exact ⟨deleted, rfl⟩
  | drawn was value expiresAt maxSize => exact .inl present
  | committed was quiet => exact .inl (List.mem_append_left _ present)
  | picked was => exact .inl present
  | taken was =>
    rcases stage_of_become found with ⟨-, same⟩ | ⟨different, -⟩
    · cases same
    · refine (kept_or_deleted _ present).imp_right fun deleted => ⟨_, rfl, different, ?_⟩
      rw [deletes_of_found was]
      exact ⟨deleted, rfl⟩

theorem Watched.effect (watched : Watched queue) (spared : queue.sparesPicks event = true)
    (effect : QueueEffect queue event after) : Watched after.settled := by
  have moment := (nextSeq_of_effect effect).2
  have moments := emptyMoments_of_effect effect
  have settledMoment : after.settled.moment = queue.moment + 1 := by
    rw [← moment]
    rfl
  have stays : ∀ {empty}, empty ∈ queue.emptyMoments → empty ∈ after.settled.emptyMoments := by
    intro empty noted
    rw [StateQueue.settled, moments]
    split
    · exact .tail _ noted
    · exact noted
  have noted : after.deliverable = [] → queue.moment + 1 ∈ after.settled.emptyMoments := by
    intro nothing
    rw [StateQueue.settled, if_pos nothing, moment]
    exact .head _
  have grows : ∀ {first last}, WasEmpty queue first last →
      ∀ {later}, last ≤ later → WasEmpty after.settled first later := by
    rintro first last ⟨empty, was, begins, ends⟩ later grown
    exact ⟨empty, stays was, begins, ends.trans grown⟩
  refine ⟨?_, ?_, ?_, ?_⟩
  · rw [settledMoment]
    exact noted
  · intro empty present
    rw [settledMoment]
    simp only [StateQueue.settled, moments, moment] at present
    split at present
    · rcases List.mem_cons.mp present with rfl | old
      · exact le_rfl
      · exact (watched.past empty old).trans (Nat.le_succ _)
    · exact (watched.past empty present).trans (Nat.le_succ _)
  · intro client pick found
    rw [settledMoment]
    rcases stage_of_effect effect found with old | quiet | ⟨-, -, _, _, _, drawn⟩ | ⟨picks, rows⟩
    · obtain ⟨begun, ⟨row, present, chosen⟩ | emptied⟩ := watched.picks client pick old
      · refine ⟨begun.trans (Nat.le_succ _), ?_⟩
        rcases kept_of_effect effect found present with kept | ⟨other, rfl, different, deleted, left⟩
        · exact .inl ⟨row, kept, chosen⟩
        · -- what another client deletes, it leaves nothing else behind
          simp only [StateQueue.sparesPicks, Bool.or_eq_true, decide_eq_true_eq, List.all_eq_true,
            List.mem_range, Bool.not_eq_true'] at spared
          rcases spared with nothing | untouched
          · rw [← left] at nothing
            exact .inr ⟨_, noted nothing, begun.trans (Nat.le_succ _), le_rfl⟩
          · have spares := untouched client (List.getElem?_eq_some_iff.mp old).1
            simp [StateQueue.snatches, old, different, chosen, present, deleted] at spares
      · exact ⟨begun.trans (Nat.le_succ _), .inr (grows emptied (Nat.le_succ _))⟩
    · cases quiet
    · cases drawn
    · cases picks
      refine ⟨Nat.le_succ _, ?_⟩
      cases chosen : queue.pick.row with
      | none =>
        have nothing := watched.noted (firstBy_eq_none.mp chosen)
        exact .inr ⟨queue.moment, stays nothing, le_rfl, Nat.le_succ _⟩
      | some row =>
        refine .inl ⟨row, ?_, rfl⟩
        change row ∈ after.rows
        rw [rows]
        exact mem_of_pick chosen
  · intro done present nothing
    rcases dequeued_of_effect effect with same | ⟨client, pick, was, -, grown⟩
    · exact grows (watched.nulls done (same ▸ present) nothing) le_rfl
    · rcases List.mem_append.mp (grown ▸ present) with old | new
      · exact grows (watched.nulls done old nothing) le_rfl
      · rw [List.mem_singleton.mp new] at nothing ⊢
        obtain ⟨-, ⟨row, queued, chosen⟩ | emptied⟩ := watched.picks client pick was
        · have missed := List.find?_eq_none.mp nothing row queued
          simp [hasSeq_wanted chosen] at missed
        · exact grows emptied le_rfl

end Emptiness

section Runs

variable {allowed : Discipline StateQueue QueueEvent} {queue : StateQueue}

theorem stage_of_start {client : Nat} {stage : QueueStage} (idle : ∀ stage ∈ queue.clients, stage = .idle)
    (found : queue.clients[client]? = some stage) : stage = .idle :=
  idle stage (List.mem_of_getElem? found)

theorem ledger_of_start (begins : stateQueues.starts queue) : Ledger queue ∧ Ordered queue := by
  obtain ⟨noRows, nothing, -, idle⟩ := begins
  have unknown : ∀ row, ¬ Known queue row := by
    intro row known
    cases known with
    | queued present => simp [noRows] at present
    | picked found => cases stage_of_start idle found
    | returned present => simp [nothing] at present
  refine ⟨⟨?_, ?_, ?_, ?_, ?_⟩, ⟨?_, ?_, ?_, ?_⟩⟩
  · exact fun row known => absurd known (unknown row)
  · exact fun row other known => absurd known (unknown row)
  · intro client row maxSize found
    cases stage_of_start idle found
  · intro client row maxSize found
    cases stage_of_start idle found
  · intro client other row otherRow maxSize otherSize found
    cases stage_of_start idle found
  · intro early present
    simp [noRows] at present
  · intro row now chosen
    cases chosen with
    | picked found => cases stage_of_start idle found
    | returned present => simp [nothing] at present
  · intro done present
    simp [nothing] at present
  · rw [nothing]
    exact .nil

theorem Ordered.settled (ordered : Ordered queue) : Ordered queue.settled := by
  have asBefore : ∀ {row}, Known queue.settled row → Known queue row := by
    intro row known
    cases known with
    | queued present => exact .queued present
    | picked found chosen => exact .picked found chosen
    | returned present result => exact .returned present result
  refine ⟨?_, ?_, ordered.gone, ordered.inOrder⟩
  · intro early present late drawn
    exact ordered.numbers early present late (drawn.imp_left asBefore)
  · intro row now chosen
    cases chosen with
    | picked found chosen => exact ⟨.picked found chosen, (ordered.chosen row _ (.picked found chosen)).2⟩
    | returned present result =>
      exact ⟨.returned present result, (ordered.chosen row _ (.returned present result)).2⟩

theorem ordered_of_reachable (reached : stateQueues.Reachable allowed queue) : Ledger queue ∧ Ordered queue := by
  let inOrder (queue : StateQueue) : Prop := Ledger queue ∧ Ordered queue
  change inOrder queue
  refine reached.invariant (fun _ => ledger_of_start) ?_
  rintro before event after - ⟨ledger, ordered⟩ - moved
  obtain ⟨between, effect, rfl⟩ := effect_of_step moved
  exact ⟨ledger.effect effect, (ordered.effect ledger effect).settled⟩

theorem watched_of_reachable (reached : stateQueues.Reachable sparingPicks queue) : Watched queue := by
  refine reached.invariant ?_ ?_
  · rintro queue ⟨-, nothing, empty, idle⟩
    refine ⟨?_, ?_, ?_, ?_⟩
    · intro _
      rw [empty]
      exact .head _
    · intro moment present
      rw [empty] at present
      exact (List.mem_singleton.mp present).le
    · intro client pick found
      cases stage_of_start idle found
    · intro done present
      simp [nothing] at present
  · intro before event after _ watched spared moved
    obtain ⟨between, effect, rfl⟩ := effect_of_step moved
    exact watched.effect spared effect

/-- Every entry is returned at most once and in the order of enqueueing, and nothing is returned
only where nothing was queued, unless a chosen row is snatched. -/
theorem queue_delivers (reached : stateQueues.Reachable unrestricted queue) :
    queue.dequeued.Pairwise InOrder ∧
      (stateQueues.Reachable sparingPicks queue → ∀ done ∈ queue.dequeued, done.row = none →
        WasEmpty queue done.pick.moment done.ended) :=
  ⟨(ordered_of_reachable reached).2.inOrder, fun spared => (watched_of_reachable spared).nulls⟩

end Runs

def emptyQueue (clients : Nat) : StateQueue :=
  ⟨0, [], 0, List.replicate clients .idle, 0, [0], [], []⟩

/-- A call of a client from its beginning to its end. -/
def wholeCall (client : Nat) : QueueCall → List QueueEvent
  | .enqueue value expiresAt maxSize =>
    .invoke client (.enqueue value expiresAt maxSize) ::
      List.replicate (if 0 < maxSize then 7 else 5) (.advance client)
  | .dequeue => .invoke client .dequeue :: List.replicate 4 (.advance client)

/-- Two clients choose the first of two entries, and one of them gets nothing. -/
theorem null_beside_an_entry : ¬ ∀ queue, stateQueues.Reachable unrestricted queue →
    ∀ done ∈ queue.dequeued, done.row = none → WasEmpty queue done.pick.moment done.ended := by
  intro always
  obtain ⟨queue, reached, tested⟩ := Machine.exists_of_replay stateQueues unrestricted (emptyQueue 2)
    (wholeCall 0 (.enqueue "first" 100 0) ++ wholeCall 0 (.enqueue "second" 100 0) ++
      [.invoke 0 .dequeue, .advance 0, .advance 0, .advance 0,
        .invoke 1 .dequeue, .advance 1, .advance 1, .advance 1, .advance 0, .advance 1])
    (fun queue => queue.dequeued.any fun done => done.row.isNone &&
      queue.emptyMoments.all fun empty => decide (empty < done.pick.moment))
    ⟨rfl, rfl, rfl, by decide⟩ (by decide +kernel)
  obtain ⟨done, present, failed⟩ := List.any_eq_true.mp tested
  rw [Bool.and_eq_true, Option.isNone_iff_eq_none, List.all_eq_true] at failed
  obtain ⟨empty, noted, begins, -⟩ := always queue reached done present failed.1
  have before := of_decide_eq_true (failed.2 empty noted)
  omega

/-- One dequeue after the other: both entries in order, and then nothing. -/
theorem queue_delivers_both : ∃ queue, stateQueues.Reachable sparingPicks queue ∧
    queue.dequeued.map (fun done => done.row.map QueueRow.value) = [some "first", some "second", none] ∧
    queue.dequeued.Pairwise InOrder ∧
    ∀ done ∈ queue.dequeued, done.row = none → WasEmpty queue done.pick.moment done.ended := by
  obtain ⟨queue, reached, tested⟩ := Machine.exists_of_replay stateQueues sparingPicks (emptyQueue 2)
    (wholeCall 0 (.enqueue "evicted" 100 2) ++ wholeCall 0 (.enqueue "first" 100 2) ++
      wholeCall 1 (.enqueue "second" 100 2) ++ wholeCall 0 .dequeue ++ wholeCall 1 .dequeue ++
      wholeCall 0 .dequeue)
    (fun queue => decide (queue.dequeued.map (fun done => done.row.map QueueRow.value) =
      [some "first", some "second", none]))
    ⟨rfl, rfl, rfl, by decide⟩ (by decide +kernel)
  obtain ⟨ordered, delivers⟩ := queue_delivers (reached.mono fun _ _ _ => trivial)
  exact ⟨queue, reached, of_decide_eq_true tested, ordered, delivers reached⟩

end Lobu.Connections
