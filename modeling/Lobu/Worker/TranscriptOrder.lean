import Lobu.Worker.Transcript

namespace Lobu.Worker

open Lobu.Foundation

variable {ε : Type}

/-! # Hydration on a single pod

The turns of a conversation on one pod, one after the other, each of which may be cut short.  The
session file only grows as long as no turn goes on without the snapshot it asked for that is ahead
of it, no snapshot is stored after the next turn has begun, and runs come in their order.
-/

section Condition

variable (pod : Nat)

def isCompleted (row : SnapshotRow ε) : Bool :=
  decide (row.terminalStatus = .completed)

/-- The watermark is at or beyond every completed snapshot. -/
def isCurrent (world : TranscriptWorld ε) : Bool :=
  world.rows.all fun row => !isCompleted row ||
    (world.disks pod).watermark.any fun runId => decide (row.runId ≤ runId)

/-- No completed snapshot is of a later run. -/
def isInOrder (runId : Option Nat) (world : TranscriptWorld ε) : Bool :=
  world.rows.all fun row => !isCompleted row || runId.all fun run => decide (row.runId ≤ run)

def mayBegin (world : TranscriptWorld ε) (command : TurnCommand ε) : Bool :=
  command.pod == pod && world.posted.isEmpty && isInOrder command.runId world

def mayGoOn (world : TranscriptWorld ε) (request : TranscriptStep ε) (network : Network) : Bool :=
  match request with
  | .getSnapshot _ => network.delivery == .answered || isCurrent pod world
  | _ => true

/-- A turn of this pod begins with no snapshot on its way and no later run stored; it goes on
without an answer from the gateway only where its session is current. -/
def orderly : Solo.Rules (TurnCommand ε) (TranscriptWorld ε) (TranscriptStep ε) Network where
  begins world command := mayBegin pod world command = true
  answers world request network := mayGoOn pod world request network = true

instance (world : TranscriptWorld ε) (command : TurnCommand ε) :
    Decidable ((orderly pod).begins world command) :=
  inferInstanceAs (Decidable (mayBegin pod world command = true))

instance (world : TranscriptWorld ε) (request : TranscriptStep ε) (network : Network) :
    Decidable ((orderly pod).answers world request network) :=
  inferInstanceAs (Decidable (mayGoOn pod world request network = true))

def IsCurrent (world : TranscriptWorld ε) : Prop :=
  ∀ row ∈ world.rows, row.terminalStatus = .completed →
    ∃ runId ∈ (world.disks pod).watermark, row.runId ≤ runId

def InOrder (runId : Option Nat) (world : TranscriptWorld ε) : Prop :=
  ∀ run ∈ runId, ∀ row ∈ world.rows, row.terminalStatus = .completed → row.runId ≤ run

variable {pod} {world : TranscriptWorld ε}

theorem isCurrent_iff : isCurrent pod world = true ↔ IsCurrent pod world := by
  simp only [isCurrent, IsCurrent, isCompleted, List.all_eq_true, Bool.or_eq_true, Bool.not_eq_true',
    decide_eq_false_iff_not, Option.any_eq_true, decide_eq_true_eq, Decidable.imp_iff_not_or]
  rfl

theorem isInOrder_iff {runId : Option Nat} : isInOrder runId world = true ↔ InOrder runId world := by
  cases runId with
  | none => simp [isInOrder, InOrder]
  | some run =>
    simp only [InOrder, Option.mem_some_iff, forall_eq']
    simp only [isInOrder, isCompleted, List.all_eq_true, Bool.or_eq_true, Bool.not_eq_true',
      decide_eq_false_iff_not, Option.all_some, decide_eq_true_eq, Decidable.imp_iff_not_or]

end Condition

section Keeping

variable {pod : Nat} {world after : TranscriptWorld ε} {runId : Option Nat}

/-- Nothing that hydration may find takes anything from the session. -/
structure Sheltered (pod : Nat) (world : TranscriptWorld ε) : Prop where
  runs : ∀ row ∈ world.rows, ∀ other ∈ world.rows, row.runId = other.runId → row = other
  latest : ∀ latest, IsLatest world.rows latest →
    (∃ runId ∈ (world.disks pod).watermark, latest.runId ≤ runId) ∨
      ∀ session ∈ (world.disks pod).session, session <+: latest.snapshotJsonl
  posted : ∀ row ∈ world.posted, (world.disks pod).session = some row.snapshotJsonl

/-- What holds where a turn asks. -/
structure Holds (pod : Nat) (world : TranscriptWorld ε) (request : TranscriptStep ε) : Prop where
  sheltered : Sheltered pod world
  arrived : world.posted = []
  grows : ∀ body, request = .writeSession pod body →
    ∀ session ∈ (world.disks pod).session, session <+: body

/-- A turn that has been hydrated may write its session. -/
structure Hydrated (pod : Nat) (runId : Option Nat) (world : TranscriptWorld ε) : Prop where
  runs : ∀ row ∈ world.rows, ∀ other ∈ world.rows, row.runId = other.runId → row = other
  current : IsCurrent pod world
  arrived : world.posted = []
  ordered : InOrder runId world

theorem Hydrated.sheltered (hydrated : Hydrated pod runId world) : Sheltered pod world where
  runs := hydrated.runs
  latest latest isLatest := .inl (hydrated.current latest isLatest.1 isLatest.2.1)
  posted row present := by
    rw [hydrated.arrived] at present
    cases present

theorem Hydrated.holds (hydrated : Hydrated pod runId world) {request : TranscriptStep ε}
    (other : ∀ body, request ≠ .writeSession pod body) : Holds pod world request where
  sheltered := hydrated.sheltered
  arrived := hydrated.arrived
  grows body same := absurd same (other body)

theorem Hydrated.setSession (hydrated : Hydrated pod runId world) (other : Nat)
    (session : Option (Transcript ε)) : Hydrated pod runId (world.setSession other session) where
  runs := hydrated.runs
  current row present done := by
    obtain ⟨run, marked, atMost⟩ := hydrated.current row present done
    refine ⟨run, ?_, atMost⟩
    by_cases same : pod = other
    · subst same
      simpa [TranscriptWorld.setSession] using marked
    · simpa [TranscriptWorld.setSession, Function.update_of_ne same] using marked
  arrived := hydrated.arrived
  ordered := hydrated.ordered

theorem runs_insert {rows : List (SnapshotRow ε)}
    (runs : ∀ row ∈ rows, ∀ other ∈ rows, row.runId = other.runId → row = other)
    (row : SnapshotRow ε) : ∀ first ∈ (insertSnapshot rows row).2,
      ∀ second ∈ (insertSnapshot rows row).2, first.runId = second.runId → first = second := by
  unfold insertSnapshot
  split
  · exact runs
  · rename_i fresh
    have differs : ∀ stored ∈ rows, stored.runId ≠ row.runId := by
      simpa only [List.any_eq_true, beq_iff_eq, not_exists, not_and] using fresh
    intro first among second amongToo same
    rcases List.mem_append.mp among with old | new <;> rcases List.mem_append.mp amongToo with oldToo | newToo
    · exact runs first old second oldToo same
    · cases List.mem_singleton.mp newToo
      exact absurd same (differs first old)
    · cases List.mem_singleton.mp new
      exact absurd same.symm (differs second oldToo)
    · rw [List.mem_singleton.mp new, List.mem_singleton.mp newToo]

theorem Sheltered.insert (sheltered : Sheltered pod world) {row : SnapshotRow ε}
    (own : (world.disks pod).session = some row.snapshotJsonl) :
    Sheltered pod { world with rows := (insertSnapshot world.rows row).2 } where
  runs := runs_insert sheltered.runs row
  latest latest isLatest := by
    rcases isLatest_of_insert isLatest with rfl | old
    · refine .inr fun session among => ?_
      obtain rfl : latest.snapshotJsonl = session := Option.some.inj (own.symm.trans among)
      exact List.prefix_refl _
    · exact sheltered.latest latest old
  posted := sheltered.posted

abbrev Keeps (pod : Nat) {α : Type} (leaves : TranscriptWorld ε → α → Prop) :
    TranscriptWorld ε → WorkerProcess ε α → Prop :=
  Process.Ensures TranscriptWorld.serve (orderly pod).answers (Holds pod) leaves

theorem overwrite_keeps (sheltered : Sheltered pod world) (arrived : world.posted = [])
    (ordered : InOrder runId world) {latest : SnapshotRow ε} (isLatest : IsLatest world.rows latest)
    (grows : ∀ session ∈ (world.disks pod).session, session <+: latest.snapshotJsonl) :
    Keeps pod (fun after _ => Hydrated pod runId after) world (do
      TranscriptStep.run (.writeSession pod latest.snapshotJsonl)
      TranscriptStep.run (.writeWatermark pod latest.runId)
      return some true) := by
  refine Process.Ensures.answered ⟨sheltered, arrived, ?_⟩ ?_
  · rintro body same session among
    cases same
    exact grows session among
  · rintro delivery answer after - served
    cases served
    refine Process.Ensures.answered ⟨⟨sheltered.runs, ?_, ?_⟩, arrived, by simp⟩ ?_
    · intro other isOther
      refine .inr fun session among => ?_
      -- there is one snapshot of the greatest run
      obtain rfl : other = latest := sheltered.runs _ isOther.1 _ isLatest.1
        (le_antisymm (isLatest.2.2 _ isOther.1 isOther.2.1) (isOther.2.2 _ isLatest.1 isLatest.2.1))
      obtain rfl : other.snapshotJsonl = session := by
        simpa [TranscriptWorld.setSession] using among
      exact List.prefix_refl _
    · intro row present
      rw [show (world.setSession pod (some latest.snapshotJsonl)).posted = [] from arrived] at present
      cases present
    · rintro delivery answer after - served
      cases served
      refine ⟨sheltered.runs, ?_, arrived, ordered⟩
      intro row present done
      exact ⟨latest.runId, by simp [TranscriptWorld.setWatermark], isLatest.2.2 row present done⟩

theorem hydrateFromSnapshot_keeps (sheltered : Sheltered pod world) (arrived : world.posted = [])
    (ordered : InOrder runId world) :
    Keeps pod (fun after _ => Hydrated pod runId after) world (hydrateFromSnapshot pod) := by
  have holds {request : TranscriptStep ε} (other : ∀ body, request ≠ .writeSession pod body) :
      Holds pod world request := ⟨sheltered, arrived, fun body same => absurd same (other body)⟩
  have unanswered (current : isCurrent pod world = true) : Hydrated pod runId world :=
    ⟨sheltered.runs, isCurrent_iff.mp current, arrived, ordered⟩
  refine Process.Ensures.answered (holds (by simp)) ?_
  rintro ⟨delivery, arrivals⟩ fetched after lawful served
  replace served := TranscriptWorld.performs served
  simp only [TranscriptWorld.perform, TranscriptWorld.arriveAll_of_none arrived] at served
  cases delivery with
  | answered =>
    simp only [TranscriptWorld.getSnapshot] at served
    split at served
    · rename_i latest found
      cases served
      have isLatest := isLatest_of_found found
      refine Process.Ensures.answered (holds (by simp)) ?_
      rintro delivery answer after - served
      cases served
      refine Process.Ensures.answered (holds (by simp)) ?_
      rintro delivery answer after - served
      cases served
      split
      · rename_i ahead
        refine ⟨sheltered.runs, ?_, arrived, ordered⟩
        intro row present done
        simp only [isAhead, Bool.and_eq_true, Option.any_eq_true, decide_eq_true_eq] at ahead
        obtain ⟨-, run, marked, atMost⟩ := ahead
        exact ⟨run, marked, (isLatest.2.2 row present done).trans atMost⟩
      · rename_i behind
        refine overwrite_keeps sheltered arrived ordered isLatest ?_
        rcases sheltered.latest latest isLatest with ⟨run, marked, atMost⟩ | grows
        · intro session among
          refine absurd ?_ behind
          rw [isAhead, Option.mem_def.mp among, Option.mem_def.mp marked]
          simp [atMost]
        · exact grows
    · rename_i missing
      cases served
      refine ⟨sheltered.runs, ?_, arrived, ordered⟩
      exact fun row present done => absurd done (none_completed missing row present)
  | lost =>
    cases served
    exact unanswered lawful
  | late =>
    cases served
    exact unanswered lawful
  | dropped =>
    cases served
    exact unanswered lawful

theorem stored_keeps {row : SnapshotRow ε} (hydrated : Hydrated pod (some row.runId) world)
    (own : (world.disks pod).session = some row.snapshotJsonl) :
    Keeps pod (fun after _ => Sheltered pod after) { world with rows := (insertSnapshot world.rows row).2 }
      (TranscriptStep.run (.writeWatermark pod row.runId)) := by
  have sheltered := hydrated.sheltered.insert own
  refine ⟨⟨sheltered, hydrated.arrived, by simp⟩, ?_⟩
  rintro delivery answer after - served
  cases served
  refine ⟨sheltered.runs, ?_, ?_⟩
  · intro latest isLatest
    refine .inl ⟨row.runId, by simp [TranscriptWorld.setWatermark], ?_⟩
    rcases isLatest_of_insert isLatest with rfl | old
    · exact le_rfl
    · exact hydrated.ordered row.runId rfl latest old.1 old.2.1
  · intro other present
    have onItsWay : other ∈ world.posted := present
    rw [hydrated.arrived] at onItsWay
    cases onItsWay

theorem sendSnapshot_keeps {row : SnapshotRow ε} (hydrated : Hydrated pod (some row.runId) world)
    (own : (world.disks pod).session = some row.snapshotJsonl) :
    Keeps pod (fun after _ => Sheltered pod after) world (sendSnapshot pod row) := by
  have inserted := hydrated.sheltered.insert own
  refine Process.Ensures.answered (hydrated.holds (by simp)) ?_
  rintro ⟨delivery, arrivals⟩ posted after - served
  replace served := TranscriptWorld.performs served
  simp only [TranscriptWorld.perform, TranscriptWorld.arriveAll_of_none hydrated.arrived] at served
  cases delivery with
  | answered =>
    cases fresh : (insertSnapshot world.rows row).1 with
    | true =>
      simp only [TranscriptWorld.postSnapshot, fresh, if_true] at served
      cases served
      exact stored_keeps hydrated own
    | false =>
      simp only [TranscriptWorld.postSnapshot, fresh] at served
      cases served
      exact inserted
  | lost =>
    cases served
    exact inserted
  | late =>
    cases served
    refine ⟨hydrated.runs, hydrated.sheltered.latest, ?_⟩
    intro other present
    rcases List.mem_append.mp present with old | new
    · exact hydrated.sheltered.posted other old
    · cases List.mem_singleton.mp new
      exact own
  | dropped =>
    cases served
    exact hydrated.sheltered

theorem writeSnapshot_keeps {run : Nat} (hydrated : Hydrated pod (some run) world) (terminalStatus : TerminalStatus) :
    Keeps pod (fun after _ => Sheltered pod after) world (writeSnapshot pod run terminalStatus) := by
  refine Process.Ensures.answered (hydrated.holds (by simp)) ?_
  rintro delivery body after - served
  cases served
  cases own : (world.disks pod).session with
  | none => exact hydrated.sheltered
  | some body =>
    cases body with
    | nil => exact hydrated.sheltered
    | cons entry body => exact sendSnapshot_keeps hydrated own

theorem appendAll_keeps (hydrated : Hydrated pod runId world) (written : List (List ε)) :
    Keeps pod (fun after _ => Hydrated pod runId after) world (appendAll pod written) := by
  induction written generalizing world with
  | nil => exact hydrated
  | cons lines later ih =>
    refine Process.Ensures.answered (hydrated.holds (by simp)) ?_
    rintro delivery answer after - served
    cases served
    exact ih (hydrated.setSession pod _)

theorem unlinkSession_keeps (hydrated : Hydrated pod runId world) :
    Keeps pod (fun after _ => Hydrated pod runId after) world (TranscriptStep.run (.unlinkSession pod)) := by
  refine ⟨hydrated.holds (by simp), ?_⟩
  rintro delivery answer after - served
  cases served
  exact hydrated.setSession pod none

theorem clearSnapshots_keeps (hydrated : Hydrated pod runId world) :
    Keeps pod (fun after _ => Hydrated pod runId after) world clearSnapshots := by
  have emptied (resets : Nat) : Hydrated pod runId { world with rows := [], resets } := by
    refine ⟨?_, ?_, hydrated.arrived, ?_⟩
    · intro row present
      cases present
    · intro row present
      cases present
    · intro run _ row present
      cases present
  refine Process.Ensures.answered (hydrated.holds (by simp)) ?_
  rintro ⟨delivery, arrivals⟩ answer after - served
  replace served := TranscriptWorld.performs served
  simp only [TranscriptWorld.perform, TranscriptWorld.arriveAll_of_none hydrated.arrived] at served
  cases delivery <;> cases served
  · exact emptied _
  · exact emptied _
  · exact hydrated
  · exact hydrated

theorem runAISession_keeps (sheltered : Sheltered pod world) (arrived : world.posted = [])
    (ordered : InOrder runId world) (providerChanged : Bool) (written : List (List ε)) (reset : Bool) :
    Keeps pod (fun after _ => Hydrated pod runId after) world (runAISession pod providerChanged written reset) := by
  refine (hydrateFromSnapshot_keeps sheltered arrived ordered).bind fun after _ hydrated => ?_
  have opens {world : TranscriptWorld ε} (hydrated : Hydrated pod runId world) :
      Keeps pod (fun after _ => Hydrated pod runId after) world (do
        let _ ← TranscriptStep.run (.openSession pod)
        appendAll pod written
        if reset then do
          TranscriptStep.run (.unlinkSession pod)
          clearSnapshots) := by
    refine Process.Ensures.answered (hydrated.holds (by simp)) ?_
    rintro delivery answer after - served
    cases served
    refine (appendAll_keeps hydrated written).bind fun after _ hydrated => ?_
    cases reset with
    | false => exact hydrated
    | true =>
      exact (unlinkSession_keeps hydrated).bind fun _ _ hydrated => clearSnapshots_keeps hydrated
  cases providerChanged with
  | false => exact opens hydrated
  | true => exact (unlinkSession_keeps hydrated).bind fun _ _ hydrated => opens hydrated

theorem turn_keeps {command : TurnCommand ε} (sheltered : Sheltered pod world)
    (permitted : mayBegin pod world command = true) :
    Keeps pod (fun after _ => Sheltered pod after) world command.turn := by
  simp only [mayBegin, Bool.and_eq_true, beq_iff_eq, List.isEmpty_iff, isInOrder_iff] at permitted
  obtain ⟨⟨rfl, arrived⟩, ordered⟩ := permitted
  refine (runAISession_keeps sheltered arrived ordered _ _ _).bind fun after _ hydrated => ?_
  unfold cleanup
  cases runId : command.runId with
  | none => exact hydrated.sheltered
  | some run =>
    rw [runId] at hydrated
    exact writeSnapshot_keeps hydrated command.terminalStatus

theorem pod_keeps {state : ConversationState ε} (reached : conversation.Reachable (orderly pod).allow state) :
    Keeps pod (fun after _ => Sheltered pod after) state.shared state.running := by
  refine Solo.ensured ?_ ?_ ?_ reached
  · rintro world ⟨fresh, none_, nothing⟩
    refine ⟨?_, ?_, ?_⟩
    · rw [none_]
      simp
    · rintro latest ⟨among, -⟩
      rw [none_] at among
      cases among
    · rw [nothing]
      simp
  · exact fun world request holds => holds.sheltered
  · exact fun world command sheltered permitted => turn_keeps sheltered permitted

end Keeping

section Session

variable {pod : Nat} {state after : ConversationState ε}

def localSession (pod : Nat) (state : ConversationState ε) : Option (Transcript ε) :=
  (state.shared.disks pod).session

/-- Nothing of the one session is missing from the other. -/
def Grew (before after : Option (Transcript ε)) : Prop :=
  ∀ session ∈ before, ∃ later ∈ after, session <+: later

theorem Grew.refl (session : Option (Transcript ε)) : Grew session session :=
  fun session present => ⟨session, present, List.prefix_refl _⟩

theorem Grew.trans {first second third : Option (Transcript ε)} (grew : Grew first second)
    (grewOn : Grew second third) : Grew first third := by
  intro session present
  obtain ⟨later, there, extending⟩ := grew session present
  obtain ⟨last, found, extendsOn⟩ := grewOn later there
  exact ⟨last, found, extending.trans extendsOn⟩

/-- The provider has changed, or the session is reset. -/
def unlinks (pod : Nat) (state : ConversationState ε) : ConversationEvent ε → Bool
  | .answer _ =>
    match state.running with
    | .ask (.unlinkSession other) _ => other == pod
    | _ => false
  | _ => false

/-- The steps of such runs that do not unlink the session file. -/
def keepsFile (allowed : Discipline (ConversationState ε) (ConversationEvent ε)) (pod : Nat) :
    Discipline (ConversationState ε) (ConversationEvent ε) :=
  fun state event => allowed state event ∧ unlinks pod state event = false

theorem session_of_set (world : TranscriptWorld ε) (other : Nat) (session : Option (Transcript ε))
    (grows : other = pod → Grew (world.disks pod).session session) :
    Grew (world.disks pod).session ((world.setSession other session).disks pod).session := by
  by_cases same : pod = other
  · subst same
    simpa [TranscriptWorld.setSession] using grows rfl
  · simp only [TranscriptWorld.setSession, Function.update_of_ne same]
    exact .refl _

theorem session_of_answer {request : TranscriptStep ε} {network : Network}
    {world later : TranscriptWorld ε} {answer : TranscriptAnswer ε request}
    (held : Holds pod world request) (stays : request ≠ .unlinkSession pod)
    (served : world.serve request network = some (answer, later)) :
    Grew (world.disks pod).session (later.disks pod).session := by
  have alone := TranscriptWorld.arriveAll_of_none held.arrived network.arrivals
  replace served := TranscriptWorld.performs served
  cases request with
  | writeSession other body =>
    cases served
    refine session_of_set world other _ ?_
    rintro rfl session present
    exact ⟨body, rfl, held.grows body rfl session present⟩
  | appendEntries other lines =>
    cases served
    refine session_of_set world other _ ?_
    rintro rfl session present
    refine ⟨_, rfl, ?_⟩
    rw [Option.mem_def.mp present]
    exact List.prefix_append _ _
  | unlinkSession other =>
    cases served
    exact session_of_set world other none fun same => absurd (congrArg _ same) stays
  | writeWatermark other runId =>
    cases served
    by_cases same : pod = other
    · subst same
      simpa [TranscriptWorld.setWatermark] using Grew.refl _
    · simp only [TranscriptWorld.setWatermark, Function.update_of_ne same]
      exact .refl _
  | getSnapshot other =>
    simp only [TranscriptWorld.perform, alone, TranscriptWorld.getSnapshot] at served
    repeat' split at served
    all_goals cases served; exact .refl _
  | postSnapshot row =>
    simp only [TranscriptWorld.perform, alone, TranscriptWorld.postSnapshot] at served
    split at served <;> cases served <;> exact .refl _
  | deleteSnapshots =>
    simp only [TranscriptWorld.perform, alone, TranscriptWorld.deleteSnapshots] at served
    split at served <;> cases served <;> exact .refl _
  | _ =>
    cases served
    exact .refl _

theorem grew_of_step {event : ConversationEvent ε} (reached : conversation.Reachable (orderly pod).allow state)
    (stays : unlinks pod state event = false) (stepped : conversation.step state event = some after) :
    Grew (localSession pod state) (localSession pod after) := by
  have moved : state.step TurnCommand.turn TranscriptWorld.serve event = some after := stepped
  rcases Solo.step_cases moved with ⟨command, -, rfl⟩ |
    ⟨network, request, next, answer, shared, rfl, running, served, rfl⟩
  · exact .refl _
  · have keeps := pod_keeps reached
    rw [running] at keeps
    refine session_of_answer keeps.1 ?_ served
    rintro rfl
    simp [unlinks, running] at stays

/-- In every run in which the pod's turns are orderly, hydration writes over the session only what
has all of it, and until the file is unlinked its entries stay. -/
theorem session_never_goes_back (reached : conversation.Reachable (orderly pod).allow state) :
    (∀ body next, state.running = .ask (.writeSession pod body) next →
      ∀ session ∈ localSession pod state, session <+: body) ∧
    ∀ after, conversation.Later (keepsFile (orderly pod).allow pod) state after →
      Grew (localSession pod state) (localSession pod after) := by
  constructor
  · intro body next running session present
    have keeps := pod_keeps reached
    rw [running] at keeps
    exact keeps.1.grows body rfl session present
  · intro after later
    induction later with
    | refl => exact .refl _
    | tail earlier moved ih =>
      obtain ⟨event, ⟨permitted, stays⟩, stepped⟩ := moved
      have reachedThere := reached.later (Machine.Later.mono (fun _ _ allowed => allowed.1) earlier)
      exact ih.trans (grew_of_step reachedThere stays stepped)

end Session

section Runs

/-- Orderly runs but for the requests that go without an answer. -/
def lossy : Solo.Rules (TurnCommand Nat) (TranscriptWorld Nat) (TranscriptStep Nat) Network where
  begins world command := mayBegin 0 world command = true
  answers _ _ _ := True

instance (world : TranscriptWorld Nat) (command : TurnCommand Nat) :
    Decidable (lossy.begins world command) :=
  inferInstanceAs (Decidable (mayBegin 0 world command = true))

instance (world : TranscriptWorld Nat) (request : TranscriptStep Nat) (network : Network) :
    Decidable (lossy.answers world request network) :=
  .isTrue trivial

instance (allowed : Discipline (ConversationState Nat) (ConversationEvent Nat))
    [∀ state event, Decidable (allowed state event)] (state : ConversationState Nat)
    (event : ConversationEvent Nat) : Decidable (keepsFile allowed 0 state event) :=
  inferInstanceAs (Decidable (allowed state event ∧ unlinks 0 state event = false))

/-- A turn of one line. -/
def turnOf (runId line : Nat) : ConversationEvent Nat :=
  .begins ⟨0, some runId, false, [[line]], false, .completed⟩

/-- The snapshot of the first run is stored, but the answer gets lost; the second run goes on without
an answer, and its snapshot is not stored. -/
def lostAnswers : List (ConversationEvent Nat) :=
  turnOf 1 10 :: answered 4 ++ [.answer ⟨.lost, []⟩] ++
    turnOf 2 20 :: .answer ⟨.lost, []⟩ :: answered 3 ++ [.answer ⟨.dropped, []⟩]

/-- The third run takes the first one's snapshot for newer than the session. -/
def rollback : List (ConversationEvent Nat) := turnOf 3 30 :: answered 4

def linesOf (state : ConversationState Nat) : Option (List Nat) :=
  (localSession 0 state).map fun session => session.map SessionEntry.line

theorem lines_of_grew {before after : ConversationState Nat} {lines : List Nat}
    (grew : Grew (localSession 0 before) (localSession 0 after)) (held : linesOf before = some lines) :
    ∃ later, linesOf after = some later ∧ lines <+: later := by
  obtain ⟨session, present, rfl⟩ := Option.map_eq_some_iff.mp held
  obtain ⟨later, there, extending⟩ := grew session present
  exact ⟨_, Option.map_eq_some_iff.mpr ⟨later, there, rfl⟩, extending.map _⟩

/-- The line of the second run is lost. -/
theorem session_rolled_back : ¬ ∀ state after : ConversationState Nat, conversation.Reachable lossy.allow state →
      conversation.Later (keepsFile lossy.allow 0) state after →
        Grew (localSession 0 state) (localSession 0 after) := by
  intro grows
  have first : (conversation.replay lossy.allow emptyPods lostAnswers).map linesOf =
      some (some [10, 20]) := by decide +kernel
  obtain ⟨state, ran, held⟩ := Option.map_eq_some_iff.mp first
  have second : ((conversation.replay lossy.allow emptyPods lostAnswers).bind fun state =>
      conversation.replay (keepsFile lossy.allow 0) state rollback).map linesOf = some (some [10]) := by
    decide +kernel
  rw [ran, Option.bind_some] at second
  obtain ⟨after, ranOn, left⟩ := Option.map_eq_some_iff.mp second
  have reached : conversation.Reachable lossy.allow state :=
    (Machine.Reachable.start emptyPods_starts).later (Machine.later_of_replay ran)
  obtain ⟨later, found, extending⟩ :=
    lines_of_grew (grows state after reached (Machine.later_of_replay ranOn)) held
  cases left.symm.trans found
  exact absurd extending (by decide)

/-- The first run's snapshot is stored when the second has come to its end. -/
def lateSnapshot : List (ConversationEvent Nat) :=
  turnOf 1 10 :: answered 4 ++ [.answer ⟨.late, []⟩] ++
    turnOf 2 20 :: answered 4 ++ [.answer ⟨.dropped, [0]⟩]

example : (conversation.replay unrestricted emptyPods (lateSnapshot ++ rollback)).map linesOf =
    some (some [10]) := by decide +kernel

/-- The first run's snapshot is stored though its answer gets lost, and the second run's is not. -/
def hydratedTwice : List (ConversationEvent Nat) :=
  turnOf 1 10 :: answered 4 ++ [.answer ⟨.lost, []⟩] ++
    turnOf 2 20 :: answered 8 ++ [.answer ⟨.dropped, []⟩]

/-- The third run finds its session ahead. -/
def skipped : List (ConversationEvent Nat) := turnOf 3 30 :: answered 5

theorem session_never_goes_back_twice : ∃ (state after : ConversationState Nat) (later : List Nat),
    linesOf state = some [10, 20] ∧ linesOf after = some later ∧ [10, 20] <+: later := by
  have first : (conversation.replay (orderly 0).allow emptyPods hydratedTwice).map linesOf =
      some (some [10, 20]) := by decide +kernel
  obtain ⟨state, ran, held⟩ := Option.map_eq_some_iff.mp first
  have second : ((conversation.replay (orderly 0).allow emptyPods hydratedTwice).bind fun state =>
      conversation.replay (keepsFile (orderly 0).allow 0) state skipped).isSome = true := by
    decide +kernel
  rw [ran, Option.bind_some] at second
  obtain ⟨after, ranOn⟩ := Option.isSome_iff_exists.mp second
  have reached : conversation.Reachable (orderly 0).allow state :=
    (Machine.Reachable.start emptyPods_starts).later (Machine.later_of_replay ran)
  have grew := (session_never_goes_back reached).2 after (Machine.later_of_replay ranOn)
  obtain ⟨later, found, extending⟩ := lines_of_grew grew held
  exact ⟨state, after, later, held, found, extending⟩

end Runs

end Lobu.Worker
