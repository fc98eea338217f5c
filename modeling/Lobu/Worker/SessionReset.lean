import Lobu.Worker.Transcript

namespace Lobu.Worker

open Lobu.Foundation

variable {ε : Type}

/-! # Resets of a session

A reset deletes the snapshots and the session file of its own pod.  Another pod keeps its file, and
what it has stays its session where the gateway has nothing newer.
-/

/-- Every entry has been written since the last reset. -/
def isFresh (world : TranscriptWorld ε) (session : Transcript ε) : Bool :=
  session.all fun entry => entry.resets == world.resets

def isFreshOn (world : TranscriptWorld ε) (pod : Nat) : Bool :=
  isFresh world ((world.disks pod).session.getD [])

/-- The gateway has a snapshot that the pod takes for newer than its session. -/
def isReplaced (world : TranscriptWorld ε) (pod : Nat) : Bool :=
  (latestCompleted world.rows).any fun latest =>
    !isAhead (world.disks pod).session.isSome (world.disks pod).watermark latest.runId

/-- The snapshots that get there have nothing from before a reset. -/
def isFreshArrival (world : TranscriptWorld ε) : List Nat → Bool
  | [] => true
  | place :: arrivals =>
    (world.posted[place]?.all fun row => isFresh world row.snapshotJsonl) &&
      isFreshArrival (world.arrive place) arrivals

/-- A session with entries from before a reset is replaced. -/
def isRenewed (world : TranscriptWorld ε) (pod : Nat) (delivery : Delivery) : Bool :=
  isFreshOn world pod || (delivery == .answered && isReplaced world pod)

def mayAnswer (world : TranscriptWorld ε) (request : TranscriptStep ε) (network : Network) : Bool :=
  match request with
  | .getSnapshot pod => isFreshArrival world network.arrivals &&
      isRenewed (world.arriveAll network.arrivals) pod network.delivery
  | .postSnapshot _ | .deleteSnapshots => isFreshArrival world network.arrivals
  | _ => true

/-- A pod with entries from before a reset gets a snapshot that replaces them, and none that was
posted before a reset is stored after it. -/
def replacing : Solo.Rules (TurnCommand ε) (TranscriptWorld ε) (TranscriptStep ε) Network where
  begins _ _ := True
  answers world request network := mayAnswer world request network = true

instance (world : TranscriptWorld ε) (command : TurnCommand ε) :
    Decidable (replacing.begins world command) :=
  .isTrue trivial

instance (world : TranscriptWorld ε) (request : TranscriptStep ε) (network : Network) :
    Decidable (replacing.answers world request network) :=
  inferInstanceAs (Decidable (mayAnswer world request network = true))

section Keeping

variable {pod : Nat} {world after : TranscriptWorld ε} {session : Transcript ε}

def Fresh (world : TranscriptWorld ε) (session : Transcript ε) : Prop :=
  ∀ entry ∈ session, entry.resets = world.resets

theorem isFresh_iff : isFresh world session = true ↔ Fresh world session := by
  simp [isFresh, Fresh]

/-- The snapshots have nothing from before a reset. -/
def StoredFresh (world : TranscriptWorld ε) : Prop :=
  ∀ row ∈ world.rows, Fresh world row.snapshotJsonl

def FreshOn (pod : Nat) (world : TranscriptWorld ε) : Prop :=
  Fresh world ((world.disks pod).session.getD [])

/-- A turn on this pod that has been hydrated. -/
structure Renewed (pod : Nat) (world : TranscriptWorld ε) : Prop where
  stored : StoredFresh world
  session : FreshOn pod world

/-- What holds where a turn asks. -/
def OpensFresh (world : TranscriptWorld ε) (request : TranscriptStep ε) : Prop :=
  StoredFresh world ∧ ∀ pod, request = .openSession pod → FreshOn pod world

abbrev Renews {α : Type} (leaves : TranscriptWorld ε → α → Prop) : TranscriptWorld ε → WorkerProcess ε α → Prop :=
  Process.Ensures TranscriptWorld.serve replacing.answers OpensFresh leaves

theorem Renewed.opens (renewed : Renewed pod world) {request : TranscriptStep ε}
    (own : ∀ other, request = .openSession other → other = pod) : OpensFresh world request :=
  ⟨renewed.stored, fun other same => own other same ▸ renewed.session⟩

theorem StoredFresh.opens (stored : StoredFresh world) {request : TranscriptStep ε}
    (elsewhere : ∀ pod, request ≠ .openSession pod) : OpensFresh world request :=
  ⟨stored, fun pod same => absurd same (elsewhere pod)⟩

theorem renewed_of_set (stored : StoredFresh world) {written : Option (Transcript ε)}
    (fresh : Fresh world (written.getD [])) : Renewed pod (world.setSession pod written) where
  stored := stored
  session := by
    have left : ((world.setSession pod written).disks pod).session = written := by
      simp [TranscriptWorld.setSession]
    rw [FreshOn, left]
    exact fresh

theorem Renewed.setWatermark (renewed : Renewed pod world) (runId : Nat) :
    Renewed pod (world.setWatermark pod runId) where
  stored := renewed.stored
  session := by
    have left : ((world.setWatermark pod runId).disks pod).session = (world.disks pod).session := by
      simp [TranscriptWorld.setWatermark]
    rw [FreshOn, left]
    exact renewed.session

theorem StoredFresh.insert (stored : StoredFresh world) {row : SnapshotRow ε}
    (fresh : Fresh world row.snapshotJsonl) :
    StoredFresh { world with rows := (insertSnapshot world.rows row).2 } := by
  intro other present
  rcases mem_insertSnapshot present with old | rfl
  · exact stored other old
  · exact fresh

theorem arriveAll_disks (world : TranscriptWorld ε) (arrivals : List Nat) :
    (world.arriveAll arrivals).disks = world.disks ∧ (world.arriveAll arrivals).resets = world.resets := by
  induction arrivals generalizing world with
  | nil => exact ⟨rfl, rfl⟩
  | cons place arrivals ih =>
    have stays : (world.arrive place).disks = world.disks ∧ (world.arrive place).resets = world.resets := by
      unfold TranscriptWorld.arrive
      split <;> exact ⟨rfl, rfl⟩
    exact ⟨(ih (world.arrive place)).1.trans stays.1, (ih (world.arrive place)).2.trans stays.2⟩

theorem StoredFresh.arriveAll {arrivals : List Nat} (stored : StoredFresh world)
    (fresh : isFreshArrival world arrivals = true) : StoredFresh (world.arriveAll arrivals) := by
  induction arrivals generalizing world with
  | nil => exact stored
  | cons place arrivals ih =>
    simp only [isFreshArrival, Bool.and_eq_true] at fresh
    refine ih ?_ fresh.2
    unfold TranscriptWorld.arrive
    cases found : world.posted[place]? with
    | none => exact stored
    | some row =>
      refine stored.insert (isFresh_iff.mp ?_)
      simpa [found] using fresh.1

theorem Renewed.arriveAll {arrivals : List Nat} (renewed : Renewed pod world)
    (fresh : isFreshArrival world arrivals = true) : Renewed pod (world.arriveAll arrivals) where
  stored := renewed.stored.arriveAll fresh
  session := by
    obtain ⟨disks, resets⟩ := arriveAll_disks world arrivals
    rw [FreshOn, Fresh, disks, resets]
    exact renewed.session

theorem overwrite_renews (stored : StoredFresh world) (fresh : Fresh world session) (runId : Nat) :
    Renews (fun after _ => Renewed pod after) world (do
      TranscriptStep.run (.writeSession pod session)
      TranscriptStep.run (.writeWatermark pod runId)
      return some true) := by
  refine Process.Ensures.answered (stored.opens (by simp)) ?_
  rintro delivery answer after - served
  cases served
  have renewed : Renewed pod (world.setSession pod (some session)) := renewed_of_set stored fresh
  refine Process.Ensures.answered (renewed.opens (by simp)) ?_
  rintro delivery answer after - served
  cases served
  exact renewed.setWatermark runId

theorem hydrateFromSnapshot_renews (stored : StoredFresh world) :
    Renews (fun after _ => Renewed pod after) world (hydrateFromSnapshot pod) := by
  refine Process.Ensures.answered (stored.opens (by simp)) ?_
  rintro ⟨delivery, arrivals⟩ fetched after lawful served
  replace served := TranscriptWorld.performs served
  simp only [TranscriptWorld.perform] at served
  obtain ⟨arrival, answer⟩ : isFreshArrival world arrivals = true ∧
      isRenewed (world.arriveAll arrivals) pod delivery = true :=
    Bool.and_eq_true_iff.mp lawful
  replace stored := stored.arriveAll arrival
  clear lawful arrival
  generalize world.arriveAll arrivals = reached at *
  have lawful : isFreshOn reached pod = true ∨ delivery = .answered ∧ isReplaced reached pod = true := by
    simpa [isRenewed] using answer
  have unreplaced (fresh : isFreshOn reached pod = true) : Renewed pod reached :=
    ⟨stored, isFresh_iff.mp fresh⟩
  cases found : latestCompleted reached.rows with
  | none =>
    have fresh : isFreshOn reached pod = true := by
      rcases lawful with fresh | ⟨-, replaced⟩
      · exact fresh
      · simp [isReplaced, found] at replaced
    cases delivery with
    | answered =>
      simp only [TranscriptWorld.getSnapshot, found] at served
      cases served
      exact unreplaced fresh
    | _ =>
      cases served
      exact unreplaced fresh
  | some latest =>
    cases delivery with
    | answered =>
      simp only [TranscriptWorld.getSnapshot, found] at served
      cases served
      refine Process.Ensures.answered (stored.opens (by simp)) ?_
      rintro delivery answer after - served
      cases served
      refine Process.Ensures.answered (stored.opens (by simp)) ?_
      rintro delivery answer after - served
      cases served
      split
      · rename_i ahead
        refine unreplaced ?_
        rcases lawful with fresh | ⟨-, replaced⟩
        · exact fresh
        · simp [isReplaced, found, ahead] at replaced
      · exact overwrite_renews stored (stored latest (isLatest_of_found found).1) latest.runId
    | _ =>
      cases served
      rcases lawful with fresh | ⟨unanswered, -⟩
      · exact unreplaced fresh
      · cases unanswered

theorem appendAll_renews (renewed : Renewed pod world) (written : List (List ε)) :
    Renews (fun after _ => Renewed pod after) world (appendAll pod written) := by
  induction written generalizing world with
  | nil => exact renewed
  | cons lines later ih =>
    refine Process.Ensures.answered (renewed.opens (by simp)) ?_
    rintro delivery answer after - served
    cases served
    refine ih (renewed_of_set renewed.stored ?_)
    intro entry present
    rcases List.mem_append.mp present with old | new
    · exact renewed.session entry old
    · obtain ⟨line, -, rfl⟩ := List.mem_map.mp new
      rfl

theorem unlinkSession_renews (renewed : Renewed pod world) :
    Renews (fun after _ => Renewed pod after) world (TranscriptStep.run (.unlinkSession pod)) := by
  refine ⟨renewed.opens (by simp), ?_⟩
  rintro delivery answer after - served
  cases served
  refine renewed_of_set renewed.stored ?_
  intro entry present
  cases present

theorem clearSnapshots_renews (renewed : Renewed pod world) (unlinked : (world.disks pod).session = none) :
    Renews (fun after _ => Renewed pod after) world clearSnapshots := by
  have emptied {world : TranscriptWorld ε} (unlinked : (world.disks pod).session = none)
      (resets : Nat) : Renewed pod { world with rows := [], resets } := by
    constructor
    · intro row present
      cases present
    · intro entry present
      rw [unlinked] at present
      cases present
  refine Process.Ensures.answered (renewed.opens (by simp)) ?_
  rintro ⟨delivery, arrivals⟩ answer after arrival served
  have unlinkedThere : ((world.arriveAll arrivals).disks pod).session = none := by
    rwa [(arriveAll_disks world arrivals).1]
  have renewedThere := renewed.arriveAll arrival
  cases delivery <;> cases served
  · exact emptied unlinkedThere _
  · exact emptied unlinkedThere _
  · exact renewedThere
  · exact renewedThere

theorem sendSnapshot_renews (renewed : Renewed pod world) {row : SnapshotRow ε}
    (own : (world.disks pod).session = some row.snapshotJsonl) :
    Renews (fun after _ => StoredFresh after) world (sendSnapshot pod row) := by
  refine Process.Ensures.answered (renewed.opens (by simp)) ?_
  rintro ⟨delivery, arrivals⟩ posted after arrival served
  replace served := TranscriptWorld.performs served
  simp only [TranscriptWorld.perform] at served
  replace own : ((world.arriveAll arrivals).disks pod).session = some row.snapshotJsonl := by
    rwa [(arriveAll_disks world arrivals).1]
  replace renewed := renewed.arriveAll arrival
  generalize world.arriveAll arrivals = world at *
  have inserted : StoredFresh { world with rows := (insertSnapshot world.rows row).2 } := by
    refine renewed.stored.insert ?_
    simpa [FreshOn, own] using renewed.session
  cases delivery with
  | answered =>
    cases fresh : (insertSnapshot world.rows row).1 with
    | true =>
      simp only [TranscriptWorld.postSnapshot, fresh, if_true] at served
      cases served
      refine ⟨inserted.opens (by simp), ?_⟩
      rintro delivery answer after - served
      cases served
      exact inserted
    | false =>
      simp only [TranscriptWorld.postSnapshot, fresh] at served
      cases served
      exact inserted
  | lost =>
    cases served
    exact inserted
  | late =>
    cases served
    exact renewed.stored
  | dropped =>
    cases served
    exact renewed.stored

theorem cleanup_renews (renewed : Renewed pod world) (runId : Option Nat) (terminalStatus : TerminalStatus) :
    Renews (fun after _ => StoredFresh after) world (cleanup pod runId terminalStatus) := by
  cases runId with
  | none => exact renewed.stored
  | some run =>
    refine Process.Ensures.answered (renewed.opens (by simp)) ?_
    rintro delivery body after - served
    cases served
    cases own : (world.disks pod).session with
    | none => exact renewed.stored
    | some body =>
      cases body with
      | nil => exact renewed.stored
      | cons entry body => exact sendSnapshot_renews renewed own

theorem resetSession_renews (renewed : Renewed pod world) :
    Renews (fun after _ => Renewed pod after) world (do
      TranscriptStep.run (.unlinkSession pod)
      clearSnapshots) := by
  refine Process.Ensures.answered (renewed.opens (by simp)) ?_
  rintro delivery answer after - served
  cases served
  refine clearSnapshots_renews (renewed_of_set renewed.stored ?_) ?_
  · intro entry present
    cases present
  · simp [TranscriptWorld.setSession]

theorem turn_renews (command : TurnCommand ε) (stored : StoredFresh world) :
    Renews (fun after _ => StoredFresh after) world command.turn := by
  have opens {world : TranscriptWorld ε} (renewed : Renewed command.pod world) :
      Renews (fun after _ => Renewed command.pod after) world (do
        let _ ← TranscriptStep.run (.openSession command.pod)
        appendAll command.pod command.written
        if command.sessionReset then do
          TranscriptStep.run (.unlinkSession command.pod)
          clearSnapshots) := by
    refine Process.Ensures.answered (renewed.opens (by simp)) ?_
    rintro delivery answer after - served
    cases served
    refine (appendAll_renews renewed command.written).bind fun after _ renewed => ?_
    cases command.sessionReset with
    | false => exact renewed
    | true => exact resetSession_renews renewed
  have session : Renews (fun after _ => Renewed command.pod after) world
      (runAISession command.pod command.providerChanged command.written command.sessionReset) := by
    refine (hydrateFromSnapshot_renews stored).bind fun after _ renewed => ?_
    cases command.providerChanged with
    | false => exact opens renewed
    | true => exact (unlinkSession_renews renewed).bind fun _ _ renewed => opens renewed
  exact session.bind fun after _ renewed =>
    cleanup_renews renewed command.runId command.terminalStatus

end Keeping

section Resets

variable {state : ConversationState ε}

/-- In every run in which old sessions are replaced, whatever a turn starts from has been written
since the last reset. -/
theorem resets_are_seen (reached : conversation.Reachable replacing.allow state) {pod : Nat}
    {next : Transcript ε → WorkerProcess ε Unit} (starts : state.running = .ask (.openSession pod) next) :
    ∀ entry ∈ (state.shared.disks pod).session.getD [], entry.resets = state.shared.resets := by
  have renews : Renews (fun after _ => StoredFresh after) state.shared state.running := by
    refine Solo.ensured ?_ ?_ ?_ reached
    · rintro world ⟨-, none_, -⟩ row present
      rw [none_] at present
      cases present
    · exact fun world request holds => holds.1
    · exact fun world command stored _ => turn_renews command stored
  rw [starts] at renews
  exact renews.1.2 pod rfl

/-- The entries that the next turn starts from, on this pod. -/
def opened (pod : Nat) (state : ConversationState ε) : Option (Transcript ε) :=
  match state.running with
  | .ask (.openSession other) _ =>
    if other = pod then some ((state.shared.disks pod).session.getD []) else none
  | _ => none

theorem starts_of_opened {pod : Nat} {session : Transcript ε} (opens : opened pod state = some session) :
    (∃ next, state.running = .ask (.openSession pod) next) ∧
      (state.shared.disks pod).session.getD [] = session := by
  unfold opened at opens
  split at opens
  · rename_i other next running
    split at opens
    · rename_i same
      subst same
      exact ⟨⟨next, running⟩, Option.some.inj opens⟩
    · cases opens
  · cases opens

end Resets

section Runs

/-- The first run is on pod 0, the second, which ends with a reset, on pod 1. -/
def resetElsewhere : List (ConversationEvent Nat) :=
  .begins ⟨0, some 1, false, [[10]], false, .completed⟩ :: answered 6 ++
    .begins ⟨1, some 2, false, [[20]], true, .completed⟩ :: answered 10

/-- Then pod 0 has the next turn. -/
def backAgain : List (ConversationEvent Nat) :=
  .begins ⟨0, some 3, false, [[30]], false, .completed⟩ :: answered 1

theorem old_session_opened : ¬ ∀ (state : ConversationState Nat) pod next,
    conversation.Reachable unrestricted state → state.running = .ask (.openSession pod) next →
      ∀ entry ∈ (state.shared.disks pod).session.getD [], entry.resets = state.shared.resets := by
  intro fresh
  have run : (conversation.replay unrestricted emptyPods (resetElsewhere ++ backAgain)).map
      (fun state => (opened 0 state, state.shared.resets)) = some (some [⟨10, 0⟩], 1) := by
    decide +kernel
  obtain ⟨state, ran, held⟩ := Option.map_eq_some_iff.mp run
  obtain ⟨opens, resets⟩ := Prod.mk.inj held
  obtain ⟨⟨next, running⟩, session⟩ := starts_of_opened opens
  have reached : conversation.Reachable unrestricted state :=
    (Machine.Reachable.start emptyPods_starts).later (Machine.later_of_replay ran)
  have left := fresh state 0 next reached running ⟨10, 0⟩ (session ▸ .head _)
  rw [resets] at left
  cases left

/-- Then pod 1 has a turn, whose snapshot pod 0 takes. -/
def renewedFirst : List (ConversationEvent Nat) :=
  .begins ⟨1, some 3, false, [[30]], false, .completed⟩ :: answered 6 ++
    .begins ⟨0, some 4, false, [[40]], false, .completed⟩ :: answered 5

theorem resets_are_seen_elsewhere : ∃ state : ConversationState Nat, opened 0 state = some [⟨30, 1⟩] ∧
      ∀ entry ∈ (state.shared.disks 0).session.getD [], entry.resets = state.shared.resets := by
  have run : (conversation.replay replacing.allow emptyPods (resetElsewhere ++ renewedFirst)).map
      (opened 0) = some (some [⟨30, 1⟩]) := by decide +kernel
  obtain ⟨state, ran, opens⟩ := Option.map_eq_some_iff.mp run
  obtain ⟨⟨next, running⟩, -⟩ := starts_of_opened opens
  have reached : conversation.Reachable replacing.allow state :=
    (Machine.Reachable.start emptyPods_starts).later (Machine.later_of_replay ran)
  exact ⟨state, opens, resets_are_seen reached running⟩

end Runs

end Lobu.Worker
