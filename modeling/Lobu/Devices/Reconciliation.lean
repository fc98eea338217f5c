import Lobu.Devices.ConnectorCell
import Lobu.Foundation.Machine
import Lobu.Foundation.Table

namespace Lobu.Devices

open Lobu.Foundation

/-! # Reconciling device connectors

Calls of `reconcileDeviceCapabilities` for any number of users.  A call reads the user's fresh
devices once and then has one job for every connector and organization.  Jobs of different calls
interleave at their statements; a transaction that wires a connector first writes its definition,
so no other one of the same organization and connector goes on before it ends.
-/

structure Device where
  id : String
  userId : String
  organizationId : Option String
  capabilities : List String
  lastSeenAt : Int

structure DeviceConnector where
  key : String
  requiredCapability : String
  /-- The feeds that it declares, without the ones that users manage. -/
  feedKeys : List String

/-- The bundled device connectors, each of which compiles to the same key and feeds. -/
structure ConnectorCatalog where
  connectors : List DeviceConnector
  once : (connectors.map DeviceConnector.key).Nodup

/-- The connections by organization and connector. -/
structure DeviceStore where
  devices : List Device
  cells : String → String → ConnectorCell

/-- Seven days, in milliseconds. -/
def deviceWorkerFreshInterval : Int := 7 * 24 * 60 * 60 * 1000

def Device.isFresh (now : Int) (device : Device) : Bool :=
  decide (now - deviceWorkerFreshInterval < device.lastSeenAt)

section Call

variable (catalog : ConnectorCatalog) (now : Int) (userId : String) (devices : List Device)

def freshDevices : List Device :=
  devices.filter fun device => decide (device.userId = userId) && device.isFresh now

def orgsWithDevices : List String :=
  (((freshDevices now userId devices).filterMap Device.organizationId).filter fun organizationId =>
    organizationId != "").eraseDups

def devicesWithCapabilityInOrg (capability organizationId : String) : List String :=
  ((freshDevices now userId devices).filter fun device =>
    decide (device.organizationId = some organizationId) &&
      device.capabilities.contains capability).map Device.id

/-- What a call that nothing disturbs makes of the connections of a connector. -/
def reconcileCell (connector : DeviceConnector) (organizationId : String) (cell : ConnectorCell) : ConnectorCell :=
  let matchingDeviceIds :=
    devicesWithCapabilityInOrg now userId devices connector.requiredCapability organizationId
  if matchingDeviceIds = [] then cell.pauseStaleFeeds userId
  else cell.ensureWired userId connector.feedKeys matchingDeviceIds now

end Call

section Run

variable (catalog : ConnectorCatalog)

/-- A call that nothing disturbs: its jobs are for different cells. -/
def reconcileDeviceCapabilities (now : Int) (userId : String) (store : DeviceStore) : DeviceStore :=
  { store with
    cells := fun organizationId connectorKey =>
      let cell := store.cells organizationId connectorKey
      if (orgsWithDevices now userId store.devices).contains organizationId then
        match catalog.connectors.find? fun connector => decide (connector.key = connectorKey) with
        | some connector => reconcileCell now userId store.devices connector organizationId cell
        | none => cell
      else cell }

inductive JobStage where
  | begun
  /-- The fast path has looked: whether everything is ready, and whether there is a connection. -/
  | looked (ready there : Bool)
  | unready
  /-- Inside the transaction, after it has looked for a connection. -/
  | wiring (found : Bool)
  | finished

structure ReconcileJob where
  userId : String
  organizationId : String
  connector : DeviceConnector
  matchingDeviceIds : List String
  stage : JobStage

structure Fleet where
  store : DeviceStore
  jobs : List ReconcileJob

inductive FleetEvent where
  /-- Devices register, poll, grow stale, move. -/
  | devices (devices : List Device)
  | begins (now : Int) (userId : String)
  | work (index : Nat) (now : Int)
  /-- A statement fails: what the job has not committed is lost. -/
  | fails (index : Nat)
  /-- A whole call, with no change beside it. -/
  | call (now : Int) (userId : String)

def jobsOf (now : Int) (userId : String) (devices : List Device) : List ReconcileJob :=
  catalog.connectors.flatMap fun connector =>
    (orgsWithDevices now userId devices).map fun organizationId =>
      { userId, organizationId, connector
        matchingDeviceIds := devicesWithCapabilityInOrg now userId devices
          connector.requiredCapability organizationId
        stage := .begun }

def ReconcileJob.isWiring (job : ReconcileJob) : Bool :=
  match job.stage with
  | .wiring _ => true
  | _ => false

def ReconcileJob.isAt (organizationId connectorKey : String) (job : ReconcileJob) : Bool :=
  decide (job.organizationId = organizationId) && decide (job.connector.key = connectorKey)

/-- The next statement of a job: the cell that it leaves, and where the job then is. -/
def ReconcileJob.advance (job : ReconcileJob) (now : Int) (blocked : Bool) (cell : ConnectorCell) :
    Option (ConnectorCell × JobStage) :=
  match job.stage with
  | .begun =>
    if job.matchingDeviceIds = [] then some (cell.pauseStaleFeeds job.userId, .finished)
    else some (cell, .looked (cell.isReady job.connector.feedKeys)
      (cell.installed && !cell.autoWired.isEmpty))
  | .looked ready there =>
    if there then
      match cell.reconcilePin job.matchingDeviceIds with
      | none => some (cell, .finished)
      | some pinned => some (pinned, if ready then .finished else .unready)
    else some (cell, .unready)
  | .unready => if blocked then none else some (cell, .wiring !cell.autoWired.isEmpty)
  | .wiring found =>
    match cell.install job.userId job.connector.feedKeys job.matchingDeviceIds now found with
    | none => some (cell, .finished)
    | some installed => some (installed, .finished)
  | .finished => none

def DeviceStore.setCell (organizationId connectorKey : String) (cell : ConnectorCell)
    (store : DeviceStore) : DeviceStore :=
  { store with
    cells := fun otherOrganization otherKey =>
      if otherOrganization = organizationId ∧ otherKey = connectorKey then cell
      else store.cells otherOrganization otherKey }

def workStep (fleet : Fleet) (index : Nat) (now : Int) (job : ReconcileJob) : Option Fleet :=
  let cell := fleet.store.cells job.organizationId job.connector.key
  let blocked := fleet.jobs.any fun other =>
    other.isWiring && other.isAt job.organizationId job.connector.key
  (job.advance now blocked cell).map fun (after, stage) =>
    { store := fleet.store.setCell job.organizationId job.connector.key after
      jobs := fleet.jobs.set index { job with stage } }

def fleetStep (fleet : Fleet) : FleetEvent → Option Fleet
  | .devices devices => some { fleet with store := { fleet.store with devices } }
  | .begins now userId =>
    some { fleet with jobs := fleet.jobs ++ jobsOf catalog now userId fleet.store.devices }
  | .work index now => fleet.jobs[index]?.bind (workStep fleet index now)
  | .fails index =>
    fleet.jobs[index]?.map fun job =>
      { fleet with jobs := fleet.jobs.set index { job with stage := .finished } }
  | .call now userId =>
    if fleet.jobs.any ReconcileJob.isWiring then none
    else some { fleet with store := reconcileDeviceCapabilities catalog now userId fleet.store }

/-- A start: nothing reconciled yet, and not two connections without auth for one connector. -/
structure FleetStart (fleet : Fleet) : Prop where
  jobs : fleet.jobs = []
  one : ∀ organizationId connectorKey, (fleet.store.cells organizationId connectorKey).AtMostOne
  unreconciled : ∀ organizationId connectorKey,
    ∀ connection ∈ (fleet.store.cells organizationId connectorKey).autoWired,
      connection.lastMatching = none

def fleetMachine : Machine Fleet FleetEvent where
  starts := FleetStart
  step := fleetStep catalog

end Run

structure FleetKept (fleet : Fleet) : Prop where
  one : ∀ organizationId connectorKey, (fleet.store.cells organizationId connectorKey).AtMostOne
  pins : ∀ organizationId connectorKey, (fleet.store.cells organizationId connectorKey).PinsKept
  /-- Of the transactions for one cell only one goes on. -/
  alone : ∀ (index other : Nat) (job second : ReconcileJob), fleet.jobs[index]? = some job →
    fleet.jobs[other]? = some second → job.isWiring = true → second.isWiring = true →
    second.isAt job.organizationId job.connector.key = true → index = other
  /-- What it has not found is still not there. -/
  absent : ∀ job ∈ fleet.jobs, job.stage = .wiring false →
    (fleet.store.cells job.organizationId job.connector.key).autoWired = []

variable {catalog : ConnectorCatalog} {fleet moved : Fleet} {job other : ReconcileJob}
variable {cell after : ConnectorCell} {stage : JobStage} {blocked : Bool} {now : Int}
variable {userId organizationId connectorKey : String} {index : Nat}

theorem isWiring_iff : job.isWiring = true ↔ ∃ found, job.stage = .wiring found := by
  unfold ReconcileJob.isWiring
  cases job.stage <;> simp

theorem isAt_iff : job.isAt organizationId connectorKey = true ↔
    job.organizationId = organizationId ∧ job.connector.key = connectorKey := by
  simp [ReconcileJob.isAt]

theorem advance_cases (went : job.advance now blocked cell = some (after, stage)) :
    (after = cell.pauseStaleFeeds job.userId ∧ stage = .finished) ∨ (after = cell ∧ ∀ found, stage ≠ .wiring found) ∨
    (cell.reconcilePin job.matchingDeviceIds = some after ∧ ∀ found, stage ≠ .wiring found) ∨
    (after = cell ∧ blocked = false ∧ stage = .wiring !cell.autoWired.isEmpty) ∨
    ∃ found, job.stage = .wiring found ∧ stage = .finished ∧
      cell.install job.userId job.connector.feedKeys job.matchingDeviceIds now found = some after := by
  unfold ReconcileJob.advance at went
  cases isStage : job.stage with
  | begun =>
    simp only [isStage] at went
    split at went
    · cases went
      exact .inl ⟨rfl, rfl⟩
    · cases went
      exact .inr (.inl ⟨rfl, fun _ => by simp⟩)
  | looked ready there =>
    simp only [isStage] at went
    cases there with
    | false =>
      cases went
      exact .inr (.inl ⟨rfl, fun _ => by simp⟩)
    | true =>
      simp only [if_true] at went
      cases reconciled : cell.reconcilePin job.matchingDeviceIds with
      | none =>
        rw [reconciled] at went
        cases went
        exact .inr (.inl ⟨rfl, fun _ => by simp⟩)
      | some pinned =>
        rw [reconciled] at went
        cases went
        refine .inr (.inr (.inl ⟨rfl, fun found => ?_⟩))
        cases ready <;> simp
  | unready =>
    simp only [isStage] at went
    cases blocked with
    | true => cases went
    | false =>
      cases went
      exact .inr (.inr (.inr (.inl ⟨rfl, rfl, rfl⟩)))
  | wiring found =>
    simp only [isStage] at went
    cases outcome : cell.install job.userId job.connector.feedKeys job.matchingDeviceIds now found with
    | none =>
      rw [outcome] at went
      cases went
      exact .inr (.inl ⟨rfl, fun _ => by simp⟩)
    | some installed =>
      rw [outcome] at went
      cases went
      exact .inr (.inr (.inr (.inr ⟨found, rfl, rfl, outcome⟩)))
  | finished =>
    simp only [isStage] at went
    cases went

theorem advance_one (one : cell.AtMostOne) (absent : job.stage = .wiring false → cell.autoWired = [])
    (went : job.advance now blocked cell = some (after, stage)) : after.AtMostOne := by
  rcases advance_cases went with paused | same | pinned | entered | committed
  · rw [paused.1]
    exact one.pauseStaleFeeds
  · rw [same.1]
    exact one
  · exact one.reconcilePin pinned.1
  · rw [entered.1]
    exact one
  · obtain ⟨found, isStage, _, installed⟩ := committed
    exact one.install (fun none => absent (none ▸ isStage)) installed

theorem advance_pins (kept : cell.PinsKept)
    (went : job.advance now blocked cell = some (after, stage)) : after.PinsKept := by
  rcases advance_cases went with paused | same | pinned | entered | committed
  · rw [paused.1]
    exact kept.pauseStaleFeeds
  · rw [same.1]
    exact kept
  · exact kept.reconcilePin pinned.1
  · rw [entered.1]
    exact kept
  · obtain ⟨found, _, _, installed⟩ := committed
    exact kept.install installed

theorem advance_empty (empty : cell.autoWired = []) (notWiring : job.isWiring = false)
    (went : job.advance now blocked cell = some (after, stage)) : after.autoWired = [] := by
  rcases advance_cases went with paused | same | pinned | entered | committed
  · rw [paused.1, ConnectorCell.autoWired_pauseStaleFeeds, empty]
    rfl
  · rw [same.1, empty]
  · rw [ConnectorCell.autoWired_of_reconcilePin pinned.1, empty]
    rfl
  · rw [entered.1, empty]
  · obtain ⟨found, isStage, _⟩ := committed
    rw [isWiring_iff.mpr ⟨found, isStage⟩] at notWiring
    exact Bool.noConfusion notWiring

theorem advance_enters {found : Bool} (went : job.advance now blocked cell = some (after, .wiring found)) :
    blocked = false ∧ after = cell ∧ found = !cell.autoWired.isEmpty := by
  rcases advance_cases went with paused | same | pinned | entered | committed
  · cases paused.2
  · exact absurd rfl (same.2 found)
  · exact absurd rfl (pinned.2 found)
  · exact ⟨entered.2.1, entered.1, JobStage.wiring.inj entered.2.2⟩
  · obtain ⟨_, _, ends, _⟩ := committed
    cases ends

theorem FleetKept.work (kept : FleetKept fleet) (present : fleet.jobs[index]? = some job)
    (worked : workStep fleet index now job = some moved) : FleetKept moved := by
  obtain ⟨⟨after, stage⟩, went, shape⟩ := Option.map_eq_some_iff.mp worked
  subst shape
  have member := List.mem_of_getElem? present
  have free : ∀ held ∈ fleet.jobs, held.isWiring = true → held.isAt job.organizationId job.connector.key = true →
        ({ job with stage } : ReconcileJob).isWiring = false := by
    intro held isHeld wiring together
    cases entered : ({ job with stage } : ReconcileJob).isWiring with
    | false => rfl
    | true =>
      obtain ⟨found, isStage⟩ := isWiring_iff.mp entered
      have isStage : stage = .wiring found := isStage
      subst isStage
      have open_ := List.any_eq_false.mp (advance_enters went).1 held isHeld
      rw [wiring, together] at open_
      exact absurd rfl open_
  constructor
  · intro organizationId connectorKey
    show ConnectorCell.AtMostOne (if _ then _ else _)
    split
    · exact advance_one (kept.one _ _) (kept.absent job member) went
    · exact kept.one _ _
  · intro organizationId connectorKey
    show ConnectorCell.PinsKept (if _ then _ else _)
    split
    · exact advance_pins (kept.pins _ _) went
    · exact kept.pins _ _
  · intro first second one another isFirst isSecond wiring alsoWiring together
    rcases getElem?_set_cases isFirst with ⟨atFirst, same⟩ | ⟨apart, old⟩
    · rcases getElem?_set_cases isSecond with ⟨atSecond, _⟩ | ⟨_, held⟩
      · rw [atFirst, atSecond]
      · subst same
        rw [free another (List.mem_of_getElem? held) alsoWiring together] at wiring
        exact Bool.noConfusion wiring
    · rcases getElem?_set_cases isSecond with ⟨_, same⟩ | ⟨_, held⟩
      · subst same
        obtain ⟨sameOrganization, sameKey⟩ := isAt_iff.mp together
        rw [free one (List.mem_of_getElem? old) wiring
          (isAt_iff.mpr ⟨sameOrganization.symm, sameKey.symm⟩)] at alsoWiring
        exact Bool.noConfusion alsoWiring
      · exact kept.alone first second one another old held wiring alsoWiring together
  · intro held isHeld unfound
    obtain ⟨place, isPlace⟩ := List.mem_iff_getElem?.mp isHeld
    rcases getElem?_set_cases isPlace with ⟨_, same⟩ | ⟨apart, old⟩
    · subst same
      have isStage : stage = .wiring false := unfound
      subst isStage
      obtain ⟨_, unchanged, empty⟩ := advance_enters went
      show ConnectorCell.autoWired (if _ then _ else _) = []
      rw [if_pos ⟨rfl, rfl⟩, unchanged]
      simpa using empty
    · have nothing := kept.absent held (List.mem_of_getElem? old) unfound
      show ConnectorCell.autoWired (if _ then _ else _) = []
      split
      · rename_i here
        have wiring : held.isWiring = true := isWiring_iff.mpr ⟨false, unfound⟩
        refine advance_empty (here.1 ▸ here.2 ▸ nothing) ?_ went
        cases alsoWiring : job.isWiring with
        | false => rfl
        | true =>
          exact absurd (kept.alone place index held job old present wiring alsoWiring
            (isAt_iff.mpr ⟨here.1.symm, here.2.symm⟩)) apart
      · exact nothing

theorem reconcileCell_one {connector : DeviceConnector} {devices : List Device} (one : cell.AtMostOne) :
    (reconcileCell now userId devices connector organizationId cell).AtMostOne := by
  unfold reconcileCell
  simp only
  split
  · exact one.pauseStaleFeeds
  · exact one.ensureWired

theorem reconcileCell_pins {connector : DeviceConnector} {devices : List Device} (kept : cell.PinsKept) :
    (reconcileCell now userId devices connector organizationId cell).PinsKept := by
  unfold reconcileCell
  simp only
  split
  · exact kept.pauseStaleFeeds
  · exact kept.ensureWired

theorem reconciled_cell_cases (catalog : ConnectorCatalog) (now : Int) (userId : String)
    (store : DeviceStore) (organizationId connectorKey : String) :
    (reconcileDeviceCapabilities catalog now userId store).cells organizationId connectorKey =
        store.cells organizationId connectorKey ∨
    ∃ connector, (reconcileDeviceCapabilities catalog now userId store).cells organizationId
        connectorKey = reconcileCell now userId store.devices connector organizationId
          (store.cells organizationId connectorKey) := by
  unfold reconcileDeviceCapabilities
  simp only
  split
  · split
    · exact .inr ⟨_, rfl⟩
    · exact .inl rfl
  · exact .inl rfl

theorem FleetKept.withJobs (kept : FleetKept fleet) {jobs : List ReconcileJob}
    (old : ∀ (place : Nat) (held : ReconcileJob), jobs[place]? = some held →
      held.isWiring = true → fleet.jobs[place]? = some held) : FleetKept { fleet with jobs } where
  one := kept.one
  pins := kept.pins
  alone := by
    intro first second one another isFirst isSecond wiring alsoWiring together
    exact kept.alone first second one another (old _ _ isFirst wiring)
      (old _ _ isSecond alsoWiring) wiring alsoWiring together
  absent := by
    intro held isHeld unfound
    obtain ⟨place, isPlace⟩ := List.mem_iff_getElem?.mp isHeld
    have among := old place held isPlace (isWiring_iff.mpr ⟨false, unfound⟩)
    exact kept.absent held (List.mem_of_getElem? among) unfound

theorem jobsOf_begun {devices : List Device} (listed : job ∈ jobsOf catalog now userId devices) :
    job.stage = .begun := by
  obtain ⟨connector, _, listed⟩ := List.mem_flatMap.mp listed
  obtain ⟨organizationId, _, same⟩ := List.mem_map.mp listed
  rw [← same]

theorem FleetKept.step {event : FleetEvent} (kept : FleetKept fleet)
    (stepped : fleetStep catalog fleet event = some moved) : FleetKept moved := by
  cases event with
  | devices devices =>
    cases stepped
    exact ⟨kept.one, kept.pins, kept.alone, kept.absent⟩
  | begins now userId =>
    cases stepped
    refine kept.withJobs fun place held isHeld wiring => ?_
    rw [List.getElem?_append] at isHeld
    split at isHeld
    · exact isHeld
    · obtain ⟨found, isStage⟩ := isWiring_iff.mp wiring
      rw [jobsOf_begun (List.mem_of_getElem? isHeld)] at isStage
      cases isStage
  | work index now =>
    obtain ⟨job, present, worked⟩ := Option.bind_eq_some_iff.mp stepped
    exact kept.work present worked
  | fails index =>
    obtain ⟨job, present, shape⟩ := Option.map_eq_some_iff.mp stepped
    subst shape
    refine kept.withJobs fun place held isHeld wiring => ?_
    rcases getElem?_set_cases isHeld with ⟨_, same⟩ | ⟨_, old⟩
    · rw [same] at wiring
      exact Bool.noConfusion wiring
    · exact old
  | call now userId =>
    unfold fleetStep at stepped
    simp only at stepped
    split at stepped
    · cases stepped
    · rename_i idle
      cases stepped
      have notWiring : ∀ held ∈ fleet.jobs, held.isWiring = true → False := fun held isHeld wiring =>
        idle (List.any_eq_true.mpr ⟨held, isHeld, wiring⟩)
      constructor
      · intro organizationId connectorKey
        rcases reconciled_cell_cases catalog now userId fleet.store organizationId connectorKey
          with same | ⟨connector, same⟩
        · rw [same]
          exact kept.one _ _
        · rw [same]
          exact reconcileCell_one (kept.one _ _)
      · intro organizationId connectorKey
        rcases reconciled_cell_cases catalog now userId fleet.store organizationId connectorKey
          with same | ⟨connector, same⟩
        · rw [same]
          exact kept.pins _ _
        · rw [same]
          exact reconcileCell_pins (kept.pins _ _)
      · intro first second one another isFirst _ wiring
        exact (notWiring one (List.mem_of_getElem? isFirst) wiring).elim
      · intro held isHeld unfound
        exact (notWiring held isHeld (isWiring_iff.mpr ⟨false, unfound⟩)).elim

theorem FleetStart.kept (begins : FleetStart fleet) : FleetKept fleet where
  one := begins.one
  pins := by
    intro organizationId connectorKey connection among matching reconciled
    rw [begins.unreconciled organizationId connectorKey connection among] at reconciled
    cases reconciled
  alone := by
    intro index other job second present
    simp [begins.jobs] at present
  absent := by
    intro job listed
    simp [begins.jobs] at listed

theorem fleetKept_of_reachable {allowed : Discipline Fleet FleetEvent}
    (reached : (fleetMachine catalog).Reachable allowed fleet) : FleetKept fleet :=
  reached.invariant (fun _ begins => FleetStart.kept begins)
    fun _ _ _ _ kept _ moved => kept.step moved

end Lobu.Devices
