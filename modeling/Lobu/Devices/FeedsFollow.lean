import Lobu.Devices.Reconciliation

namespace Lobu.Devices

open Lobu.Foundation

/-! # Feeds that follow the devices

What a call leaves of the organizations in which the user owns wired connections.  It goes through
the organizations of the user's fresh devices only, and pauses only what the user has created.
-/

section Property

variable (catalog : ConnectorCatalog) (now : Int) (userId : String) (store : DeviceStore)

/-- A fresh device in the organization advertises the capability. -/
def IsServed (devices : List Device) (connector : DeviceConnector) (organizationId : String) : Prop :=
  ∃ device ∈ devices, device.isFresh now = true ∧ device.organizationId = some organizationId ∧
    connector.requiredCapability ∈ device.capabilities

/-- Every declared feed is active if it is to be, and none otherwise. -/
def FeedsFollow (served : Prop) (feedKeys : List String) (connections : List Connection) : Prop :=
  (served → ∀ feedKey ∈ feedKeys, ∃ connection ∈ connections,
    connection.hasActiveFeed feedKey = true) ∧
  (¬ served → ∀ feedKey ∈ feedKeys, ∀ connection ∈ connections,
    connection.hasActiveFeed feedKey = false)

def OwnsWired (organizationId : String) : Prop :=
  ∃ connector ∈ catalog.connectors,
    ∃ connection ∈ (store.cells organizationId connector.key).autoWired,
      connection.createdBy = some userId

structure Reconciled : Prop where
  feeds : ∀ organizationId, OwnsWired catalog userId store organizationId →
    ∀ connector ∈ catalog.connectors,
      FeedsFollow (IsServed now store.devices connector organizationId) connector.feedKeys
        (store.cells organizationId connector.key).autoWired
  one : ∀ organizationId, OwnsWired catalog userId store organizationId →
    ∀ connector ∈ catalog.connectors, (store.cells organizationId connector.key).AtMostOne
  pins : ∀ organizationId, OwnsWired catalog userId store organizationId →
    ∀ connector ∈ catalog.connectors,
      ∀ connection ∈ (store.cells organizationId connector.key).autoWired, connection.PinKept

/-- A connection of the connector becomes the user's: a new one, or one without an owner whose feeds
are not all active. -/
def TakesOver (connector : DeviceConnector) (organizationId : String) : Prop :=
  let cell := store.cells organizationId connector.key
  let matchingDeviceIds := devicesWithCapabilityInOrg now userId store.devices
    connector.requiredCapability organizationId
  organizationId ∈ orgsWithDevices now userId store.devices ∧ matchingDeviceIds ≠ [] ∧
    cell.clashes matchingDeviceIds (cell.subject userId) = false ∧
    (cell.autoWired = [] ∨ cell.isReady connector.feedKeys = false ∧
      ∃ connection ∈ cell.autoWired, connection.createdBy = none)

def WillOwn (organizationId : String) : Prop :=
  OwnsWired catalog userId store organizationId ∨
    ∃ connector ∈ catalog.connectors, TakesOver now userId store connector organizationId

/-- What stays as it is follows the devices already: everything where the user has no fresh device,
or where the pin is another connection's; and the connections of other users where no device of the
user advertises the capability. -/
def WillFollow (connector : DeviceConnector) (organizationId : String) : Prop :=
  let cell := store.cells organizationId connector.key
  let served := IsServed now store.devices connector organizationId
  let matchingDeviceIds := devicesWithCapabilityInOrg now userId store.devices
    connector.requiredCapability organizationId
  if organizationId ∈ orgsWithDevices now userId store.devices then
    if matchingDeviceIds = [] then
      FeedsFollow served connector.feedKeys
        (cell.autoWired.filter fun connection => decide (connection.createdBy ≠ some userId))
    else cell.clashes matchingDeviceIds (cell.subject userId) = true →
      FeedsFollow served connector.feedKeys cell.autoWired
  else FeedsFollow served connector.feedKeys cell.autoWired

end Property

variable {catalog : ConnectorCatalog} {fleet after : Fleet} {store : DeviceStore}
variable {now : Int} {userId organizationId : String} {connector : DeviceConnector}
variable {served : Prop} {feedKeys : List String} {cell : ConnectorCell}

theorem find_connector (member : connector ∈ catalog.connectors) :
    (catalog.connectors.find? fun other => decide (other.key = connector.key)) = some connector := by
  cases found : catalog.connectors.find? fun other => decide (other.key = connector.key) with
  | none =>
    have missing := List.find?_eq_none.mp found connector member
    simp at missing
  | some other =>
    have sameKey := List.find?_some found
    exact congrArg some (List.inj_on_of_nodup_map catalog.once (List.mem_of_find?_eq_some found)
      member (of_decide_eq_true sameKey))

theorem reconciled_cell (member : connector ∈ catalog.connectors) (store : DeviceStore) :
    (reconcileDeviceCapabilities catalog now userId store).cells organizationId connector.key =
      if organizationId ∈ orgsWithDevices now userId store.devices then
        reconcileCell now userId store.devices connector organizationId
          (store.cells organizationId connector.key)
      else store.cells organizationId connector.key := by
  unfold reconcileDeviceCapabilities
  simp only [find_connector member, List.contains_iff_mem]

theorem served_of_matching (matched : devicesWithCapabilityInOrg now userId store.devices connector.requiredCapability
      organizationId ≠ []) : IsServed now store.devices connector organizationId := by
  obtain ⟨id, listed⟩ := List.exists_mem_of_ne_nil _ matched
  obtain ⟨device, among, _⟩ := List.mem_map.mp listed
  obtain ⟨fresh, advertises⟩ := List.mem_filter.mp among
  obtain ⟨isDevice, isFresh⟩ := List.mem_filter.mp fresh
  simp only [Bool.and_eq_true, decide_eq_true_eq, List.contains_iff_mem] at isFresh advertises
  exact ⟨device, isDevice, isFresh.2, advertises.1, advertises.2⟩

theorem feedsFollow_paused :
    FeedsFollow served feedKeys (cell.pauseStaleFeeds userId).autoWired ↔ FeedsFollow served feedKeys
        (cell.autoWired.filter fun connection => decide (connection.createdBy ≠ some userId)) := by
  have active : ∀ feedKey, (∃ connection ∈ (cell.pauseStaleFeeds userId).autoWired,
      connection.hasActiveFeed feedKey = true) ↔
      ∃ connection ∈ cell.autoWired.filter fun connection =>
        decide (connection.createdBy ≠ some userId), connection.hasActiveFeed feedKey = true := by
    intro feedKey
    rw [ConnectorCell.autoWired_pauseStaleFeeds]
    constructor
    · intro found
      obtain ⟨connection, listed, isActive⟩ := found
      obtain ⟨before, among, same⟩ := List.mem_map.mp listed
      by_cases own : before.createdBy = some userId
      · rw [← same, if_pos own, Connection.hasActiveFeed_pauseFeeds] at isActive
        exact Bool.noConfusion isActive
      · rw [← same, if_neg own] at isActive
        exact ⟨before, List.mem_filter.mpr ⟨among, decide_eq_true own⟩, isActive⟩
    · intro found
      obtain ⟨before, among, isActive⟩ := found
      obtain ⟨among, other⟩ := List.mem_filter.mp among
      exact ⟨before, List.mem_map.mpr ⟨before, among, if_neg (of_decide_eq_true other)⟩, isActive⟩
  have inactive : ∀ connections : List Connection, ∀ feedKey,
      (∀ connection ∈ connections, connection.hasActiveFeed feedKey = false) ↔
        ¬ ∃ connection ∈ connections, connection.hasActiveFeed feedKey = true := by
    intro connections feedKey
    simp
  simp only [FeedsFollow, inactive, active]

theorem follows_after_iff (member : connector ∈ catalog.connectors)
    (one : (store.cells organizationId connector.key).AtMostOne) :
    FeedsFollow (IsServed now store.devices connector organizationId) connector.feedKeys
        ((reconcileDeviceCapabilities catalog now userId store).cells organizationId connector.key).autoWired ↔
      WillFollow now userId store connector organizationId := by
  rw [reconciled_cell member, WillFollow]
  by_cases considered : organizationId ∈ orgsWithDevices now userId store.devices
  · rw [if_pos considered, if_pos considered, reconcileCell]
    by_cases unmatched : devicesWithCapabilityInOrg now userId store.devices
        connector.requiredCapability organizationId = []
    · rw [if_pos unmatched, if_pos unmatched]
      exact feedsFollow_paused
    · rw [if_neg unmatched, if_neg unmatched]
      cases clash : (store.cells organizationId connector.key).clashes
          (devicesWithCapabilityInOrg now userId store.devices connector.requiredCapability
            organizationId) ((store.cells organizationId connector.key).subject userId) with
      | true =>
        rw [ConnectorCell.ensureWired_of_clash one clash]
        exact ⟨fun follows _ => follows, fun follows => follows rfl⟩
      | false =>
        obtain ⟨connection, single, active, _⟩ :=
          ConnectorCell.ensureWired_of_free connector.feedKeys now one clash
        rw [single]
        constructor
        · intro _ never
          exact Bool.noConfusion never
        · intro _
          refine ⟨fun _ feedKey listed => ?_, fun unserved => ?_⟩
          · exact ⟨connection, List.mem_singleton_self _, active feedKey listed⟩
          · exact absurd (served_of_matching unmatched) unserved
  · rw [if_neg considered, if_neg considered]

theorem owned_after_iff (member : connector ∈ catalog.connectors)
    (one : (store.cells organizationId connector.key).AtMostOne) :
    (∃ connection ∈ ((reconcileDeviceCapabilities catalog now userId store).cells organizationId
        connector.key).autoWired, connection.createdBy = some userId) ↔
      (∃ connection ∈ (store.cells organizationId connector.key).autoWired, connection.createdBy = some userId) ∨
      TakesOver now userId store connector organizationId := by
  rw [reconciled_cell member, TakesOver]
  by_cases considered : organizationId ∈ orgsWithDevices now userId store.devices
  · rw [if_pos considered, reconcileCell]
    by_cases unmatched : devicesWithCapabilityInOrg now userId store.devices
        connector.requiredCapability organizationId = []
    · rw [if_pos unmatched, ConnectorCell.autoWired_pauseStaleFeeds]
      constructor
      · intro owned
        obtain ⟨connection, listed, own⟩ := owned
        obtain ⟨before, among, same⟩ := List.mem_map.mp listed
        refine .inl ⟨before, among, ?_⟩
        rw [← same] at own
        split at own
        · exact own
        · exact own
      · intro owned
        rcases owned with ⟨connection, among, own⟩ | takes
        · refine ⟨_, List.mem_map.mpr ⟨connection, among, rfl⟩, ?_⟩
          rw [if_pos own]
          exact own
        · exact absurd unmatched takes.2.1
    · rw [if_neg unmatched]
      cases clash : (store.cells organizationId connector.key).clashes
          (devicesWithCapabilityInOrg now userId store.devices connector.requiredCapability
            organizationId) ((store.cells organizationId connector.key).subject userId) with
      | true =>
        rw [ConnectorCell.ensureWired_of_clash one clash]
        simp
      | false =>
        obtain ⟨connection, single, _, owner⟩ :=
          ConnectorCell.ensureWired_of_free connector.feedKeys now one clash
        rw [single]
        simp only [List.mem_singleton, exists_eq_left, owner, ConnectorCell.subject]
        rcases one.cases with none | ⟨before, wired⟩
        · have notReady : (store.cells organizationId connector.key).isReady connector.feedKeys =
              false := by rw [ConnectorCell.isReady, none]
          simp [none, notReady, considered, unmatched, newConnection]
        · cases ready : (store.cells organizationId connector.key).isReady connector.feedKeys with
          | true => simp [wired]
          | false =>
            cases creator : before.createdBy with
            | none => simp [wired, considered, unmatched, creator]
            | some other => simp [wired, creator]
  · simp [considered]

theorem ownsWired_after_iff
    (one : ∀ organizationId connectorKey, (store.cells organizationId connectorKey).AtMostOne) :
    OwnsWired catalog userId (reconcileDeviceCapabilities catalog now userId store)
        organizationId ↔ WillOwn catalog now userId store organizationId := by
  unfold OwnsWired WillOwn OwnsWired
  constructor
  · intro owns
    obtain ⟨connector, member, owned⟩ := owns
    exact ((owned_after_iff member (one _ _)).mp owned).imp
      (fun before => ⟨connector, member, before⟩) fun takes => ⟨connector, member, takes⟩
  · intro owns
    rcases owns with ⟨connector, member, before⟩ | ⟨connector, member, takes⟩
    · exact ⟨connector, member, (owned_after_iff member (one _ _)).mpr (.inl before)⟩
    · exact ⟨connector, member, (owned_after_iff member (one _ _)).mpr (.inr takes)⟩

/-- After a call, in any run of calls and devices, the connections of the user's organizations are
reconciled exactly when what the call leaves alone follows the devices already. -/
theorem reconciled_iff (reached : (fleetMachine catalog).Reachable unrestricted fleet)
    (called : fleetStep catalog fleet (.call now userId) = some after) :
    Reconciled catalog now userId after.store ↔
      ∀ organizationId, WillOwn catalog now userId fleet.store organizationId → ∀ connector ∈ catalog.connectors,
          WillFollow now userId fleet.store connector organizationId := by
  have kept := fleetKept_of_reachable reached
  have keptAfter := kept.step called
  have isCall : after.store = reconcileDeviceCapabilities catalog now userId fleet.store := by
    unfold fleetStep at called
    simp only at called
    split at called
    · cases called
    · cases called
      rfl
  constructor
  · intro reconciled organizationId owns connector member
    have ownsAfter := (ownsWired_after_iff kept.one).mpr owns
    rw [← isCall] at ownsAfter
    have follows := reconciled.feeds organizationId ownsAfter connector member
    rw [isCall] at follows
    exact (follows_after_iff member (kept.one _ _)).mp follows
  · intro follows
    refine ⟨fun organizationId owns connector member => ?_, fun organizationId _ connector _ => keptAfter.one _ _,
      fun organizationId _ connector _ => keptAfter.pins _ _⟩
    rw [isCall] at owns ⊢
    have owned := (ownsWired_after_iff kept.one).mp owns
    exact (follows_after_iff member (kept.one _ _)).mpr (follows organizationId owned connector member)

def screenTime : DeviceConnector := ⟨"apple.screen_time", "screentime", ["usage"]⟩

def screenTimeCatalog : ConnectorCatalog := ⟨[screenTime], by decide⟩

def laptop : Device := ⟨"laptop", "ada", some "home", ["screentime"], 0⟩

/-- A connection from the time when the laptop was in the other organization. -/
def formerConnection : Connection :=
  ⟨none, some "ada", none, false, [⟨"usage", .active, none, false⟩], none⟩

def movedFleet : Fleet where
  store := {
    devices := [laptop]
    cells := fun organizationId _ =>
      if organizationId = "work" then ⟨true, [formerConnection]⟩ else ⟨false, []⟩ }
  jobs := []

theorem movedFleet_starts : FleetStart movedFleet where
  jobs := rfl
  one := by
    intro organizationId connectorKey
    show ConnectorCell.AtMostOne (if organizationId = "work" then _ else _)
    split
    · show List.length _ ≤ 1
      decide
    · show List.length _ ≤ 1
      decide
  unreconciled := by
    intro organizationId connectorKey connection among
    have isFormer : connection = formerConnection := by
      change connection ∈ ConnectorCell.autoWired (if organizationId = "work" then _ else _) at among
      split at among
      · exact List.mem_singleton.mp among
      · simp [ConnectorCell.autoWired] at among
    rw [isFormer]
    rfl

/-- The organization that the user's last device has left is not considered, and its feeds stay
active. -/
theorem moved_feed_stays :
    ¬ ∀ (catalog : ConnectorCatalog) (fleet after : Fleet) (now : Int) (userId : String),
      (fleetMachine catalog).Reachable unrestricted fleet →
      fleetStep catalog fleet (.call now userId) = some after → Reconciled catalog now userId after.store := by
  intro claim
  have reconciled := claim screenTimeCatalog movedFleet _ 0 "ada" (.start movedFleet_starts) rfl
  have active : formerConnection.hasActiveFeed "usage" = true := by decide
  have stays : formerConnection ∈ ((reconcileDeviceCapabilities screenTimeCatalog 0 "ada"
      movedFleet.store).cells "work" "apple.screen_time").autoWired := by decide +kernel
  have unserved : ¬ IsServed 0 movedFleet.store.devices screenTime "work" := by
    intro isServed
    obtain ⟨device, listed, _, there, _⟩ := isServed
    rw [List.mem_singleton.mp listed] at there
    exact absurd there (by decide)
  have follows := reconciled.feeds "work" ⟨screenTime, List.mem_singleton_self _, formerConnection,
    stays, rfl⟩ screenTime (List.mem_singleton_self _)
  have paused := follows.2 unserved "usage" (List.mem_singleton_self _) formerConnection stays
  rw [active] at paused
  exact Bool.noConfusion paused

def newFleet : Fleet where
  store := { devices := [laptop], cells := fun _ _ => ⟨false, []⟩ }
  jobs := []

theorem newFleet_starts : FleetStart newFleet where
  jobs := rfl
  one := fun _ _ => Nat.zero_le 1
  unreconciled := by
    intro organizationId connectorKey connection among
    cases among

/-- The first poll of a device. -/
theorem new_device_reconciled :
    Reconciled screenTimeCatalog 0 "ada" (reconcileDeviceCapabilities screenTimeCatalog 0 "ada" newFleet.store) := by
  have settled := @reconciled_iff screenTimeCatalog newFleet
    ⟨reconcileDeviceCapabilities screenTimeCatalog 0 "ada" newFleet.store, []⟩ 0 "ada"
    (.start newFleet_starts) rfl
  refine settled.mpr ?_
  intro organizationId owns connector member
  rcases owns with owned | takes
  · obtain ⟨_, _, connection, among, _⟩ := owned
    cases among
  · obtain ⟨_, _, considered, _⟩ := takes
    have isHome : organizationId = "home" := by
      have only : orgsWithDevices 0 "ada" newFleet.store.devices = ["home"] := by decide +kernel
      rw [only] at considered
      exact List.mem_singleton.mp considered
    subst isHome
    rw [List.mem_singleton.mp member, WillFollow, if_pos (by decide +kernel), if_neg (by decide +kernel)]
    intro clash
    exact absurd clash (by decide +kernel)

end Lobu.Devices
