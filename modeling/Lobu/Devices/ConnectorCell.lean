import Lobu.Foundation.FirstMatch

namespace Lobu.Devices

open Lobu.Foundation

/-! # Wiring a device connector

The connections of one connector in one organization, with their feeds, and the statements that
wire and pause them.
-/

inductive FeedStatus where
  | active
  | paused
  | error
deriving DecidableEq

structure Feed where
  feedKey : String
  status : FeedStatus
  nextRunAt : Option Int
  deleted : Bool
deriving DecidableEq

/-- A connection; `lastMatching` is no column, but the matching set for which its device pin was
last reconciled. -/
structure Connection where
  authProfileId : Option Nat
  createdBy : Option String
  deviceWorkerId : Option String
  deleted : Bool
  feeds : List Feed
  lastMatching : Option (List String)
deriving DecidableEq

/-- What an organization has of a connector, its connections in the order of their ids. -/
structure ConnectorCell where
  /-- Whether its active definition and the version of it are there. -/
  installed : Bool
  connections : List Connection

def Feed.isActiveFor (feedKey : String) (feed : Feed) : Bool :=
  decide (feed.feedKey = feedKey) && decide (feed.status = .active) && !feed.deleted

def Feed.isFor (feedKey : String) (feed : Feed) : Bool :=
  decide (feed.feedKey = feedKey) && !feed.deleted

namespace Connection

/-- No auth profile, and not deleted. -/
def isAutoWired (connection : Connection) : Bool :=
  connection.authProfileId.isNone && !connection.deleted

def hasActiveFeed (connection : Connection) (feedKey : String) : Bool :=
  connection.feeds.any (Feed.isActiveFor feedKey)

/-- The pin for a matching set: its only device, if it has but one. -/
def pinTarget : List String → Option String
  | [device] => some device
  | _ => none

/-- Whether the pin is one that reconciling it changes. -/
def needsPin (matchingDeviceIds : List String) (connection : Connection) : Bool :=
  decide (connection.deviceWorkerId ≠ pinTarget matchingDeviceIds) &&
    match connection.deviceWorkerId with
    | none => true
    | some device => !matchingDeviceIds.contains device

def repin (matchingDeviceIds : List String) (connection : Connection) : Connection :=
  { connection with
    deviceWorkerId :=
      if connection.needsPin matchingDeviceIds then pinTarget matchingDeviceIds
      else connection.deviceWorkerId
    lastMatching := some matchingDeviceIds }

def wireFeed (now : Int) (connection : Connection) (feedKey : String) : Connection :=
  { connection with
    feeds :=
      if connection.feeds.any (Feed.isFor feedKey) then
        changeFirst (Feed.isFor feedKey) (fun feed =>
          { feed with status := .active, nextRunAt := some (feed.nextRunAt.getD now) })
          connection.feeds
      else connection.feeds ++ [⟨feedKey, .active, some now, false⟩] }

def wireFeeds (now : Int) (feedKeys : List String) (connection : Connection) : Connection :=
  feedKeys.foldl (wireFeed now) connection

/-- Ownership is only filled in where there is none. -/
def adopt (userId : String) (connection : Connection) : Connection :=
  { connection with createdBy := connection.createdBy.or (some userId) }

def pauseFeeds (connection : Connection) : Connection :=
  { connection with
    feeds := connection.feeds.map fun feed =>
      if decide (feed.status = .active) && !feed.deleted then { feed with status := .paused }
      else feed }

end Connection

def newConnection (userId : String) : Connection where
  authProfileId := none
  createdBy := some userId
  deviceWorkerId := none
  deleted := false
  feeds := []
  lastMatching := none

namespace ConnectorCell

def autoWired (cell : ConnectorCell) : List Connection :=
  cell.connections.filter Connection.isAutoWired

/-- Whether another connection that is not deleted is pinned to the device:
`idx_connections_org_connector_device_live`. -/
def isPinned (cell : ConnectorCell) (device : String) : Bool :=
  cell.connections.any fun connection =>
    decide (connection.deviceWorkerId = some device) && !connection.deleted

/-- Whether the pin that a connection is to get is another's already. -/
def clashes (cell : ConnectorCell) (matchingDeviceIds : List String) (connection : Connection) : Bool :=
  connection.needsPin matchingDeviceIds &&
    (Connection.pinTarget matchingDeviceIds).any cell.isPinned

/-- Self-heal the pin of the first connection; the database may refuse. -/
def reconcilePin (matchingDeviceIds : List String) (cell : ConnectorCell) : Option ConnectorCell :=
  match cell.autoWired with
  | [] => some cell
  | connection :: _ =>
    if cell.clashes matchingDeviceIds connection then none
    else some { cell with
      connections := changeFirst Connection.isAutoWired (Connection.repin matchingDeviceIds)
        cell.connections }

/-- Everything is installed, and every declared feed active. -/
def isReady (feedKeys : List String) (cell : ConnectorCell) : Bool :=
  match cell.autoWired with
  | [] => false
  | connection :: _ => cell.installed && feedKeys.all connection.hasActiveFeed

/-- The definition, the connection and its feeds, once a connection is found or none. -/
def wireConnection (userId : String) (feedKeys : List String) (now : Int) (found : Bool)
    (cell : ConnectorCell) : ConnectorCell where
  installed := true
  connections :=
    if found then
      changeFirst Connection.isAutoWired (fun connection =>
        (connection.adopt userId).wireFeeds now feedKeys) cell.connections
    else cell.connections ++ [((newConnection userId).adopt userId).wireFeeds now feedKeys]

/-- What the transaction commits, unless the database refuses the pin. -/
def install (userId : String) (feedKeys matchingDeviceIds : List String) (now : Int)
    (found : Bool) (cell : ConnectorCell) : Option ConnectorCell :=
  (cell.wireConnection userId feedKeys now found).reconcilePin matchingDeviceIds

/-- A call of `ensureDeviceConnectorWired` that nothing disturbs. -/
def ensureWired (userId : String) (feedKeys matchingDeviceIds : List String) (now : Int)
    (cell : ConnectorCell) : ConnectorCell :=
  let pinned := if cell.installed then cell.reconcilePin matchingDeviceIds else some cell
  match pinned with
  | none => cell
  | some pinned =>
    if cell.isReady feedKeys then pinned
    else
      (pinned.install userId feedKeys matchingDeviceIds now !pinned.autoWired.isEmpty).getD pinned

def pauseStaleFeeds (userId : String) (cell : ConnectorCell) : ConnectorCell :=
  { cell with
    connections := cell.connections.map fun connection =>
      if connection.isAutoWired && decide (connection.createdBy = some userId) then
        connection.pauseFeeds
      else connection }

end ConnectorCell

namespace Connection

variable {connection : Connection} {userId feedKey other : String} {now : Int}
variable {feedKeys matchingDeviceIds : List String}

theorem wireFeeds_eq (now : Int) (feedKeys : List String) (connection : Connection) :
    ∃ feeds, connection.wireFeeds now feedKeys = { connection with feeds := feeds } := by
  induction feedKeys generalizing connection with
  | nil => exact ⟨connection.feeds, rfl⟩
  | cons feedKey feedKeys ih =>
    obtain ⟨feeds, same⟩ := ih (connection.wireFeed now feedKey)
    exact ⟨feeds, same⟩

theorem isAutoWired_wired (connection : Connection) :
    ((connection.adopt userId).wireFeeds now feedKeys).isAutoWired = connection.isAutoWired := by
  obtain ⟨feeds, same⟩ := wireFeeds_eq now feedKeys (connection.adopt userId)
  rw [same]
  rfl

theorem needsPin_wired (connection : Connection) :
    ((connection.adopt userId).wireFeeds now feedKeys).needsPin matchingDeviceIds =
      connection.needsPin matchingDeviceIds := by
  obtain ⟨feeds, same⟩ := wireFeeds_eq now feedKeys (connection.adopt userId)
  rw [same]
  rfl

theorem hasActiveFeed_wireFeed (held : other = feedKey ∨ connection.hasActiveFeed other = true) :
    (connection.wireFeed now feedKey).hasActiveFeed other = true := by
  unfold hasActiveFeed wireFeed
  simp only
  split
  · rename_i present
    rcases held with same | active
    · subst same
      refine any_changeFirst ?_ present
      intro feed isFor
      simp only [Feed.isFor, Bool.and_eq_true] at isFor
      simp [Feed.isActiveFor, isFor.1, isFor.2]
    · refine any_changeFirst_of_any ?_ active
      intro feed isActive
      simp only [Feed.isActiveFor, Bool.and_eq_true] at isActive ⊢
      exact ⟨⟨isActive.1.1, by simp⟩, isActive.2⟩
  · rcases held with same | active
    · subst same
      simp [Feed.isActiveFor]
    · rw [List.any_append, Bool.or_eq_true]
      exact .inl active

theorem hasActiveFeed_wireFeeds (held : other ∈ feedKeys ∨ connection.hasActiveFeed other = true) :
    (connection.wireFeeds now feedKeys).hasActiveFeed other = true := by
  induction feedKeys generalizing connection with
  | nil =>
    rcases held with listed | active
    · simp at listed
    · exact active
  | cons feedKey feedKeys ih =>
    apply ih
    rcases held with listed | active
    · rcases List.mem_cons.mp listed with same | later
      · exact .inr (hasActiveFeed_wireFeed (.inl same))
      · exact .inl later
    · exact .inr (hasActiveFeed_wireFeed (.inr active))

theorem hasActiveFeed_pauseFeeds (connection : Connection) (feedKey : String) :
    connection.pauseFeeds.hasActiveFeed feedKey = false := by
  simp only [hasActiveFeed, pauseFeeds, List.any_map, List.any_eq_false]
  intro feed _
  cases status : feed.status <;> cases deleted : feed.deleted <;>
    simp [Feed.isActiveFor, status, deleted]

/-- The pin is empty, or a device of the matching set for which it was last reconciled. -/
def PinKept (connection : Connection) : Prop :=
  ∀ matching, connection.lastMatching = some matching →
    connection.deviceWorkerId = none ∨ ∃ device ∈ matching, connection.deviceWorkerId = some device

theorem pinTarget_eq_some {device : String} :
    pinTarget matchingDeviceIds = some device ↔ matchingDeviceIds = [device] := by
  unfold pinTarget
  split
  · simp
  · rename_i several
    simp only [reduceCtorEq, false_iff]
    exact several device

theorem pinKept_repin (connection : Connection) : (connection.repin matchingDeviceIds).PinKept := by
  intro matching same
  have isMatching : matchingDeviceIds = matching := Option.some.inj same
  subst isMatching
  show (if connection.needsPin matchingDeviceIds then pinTarget matchingDeviceIds
    else connection.deviceWorkerId) = none ∨ ∃ device ∈ matchingDeviceIds,
      (if connection.needsPin matchingDeviceIds then pinTarget matchingDeviceIds
        else connection.deviceWorkerId) = some device
  split
  · cases target : pinTarget matchingDeviceIds with
    | none => exact .inl rfl
    | some device =>
      rw [pinTarget_eq_some.mp target]
      exact .inr ⟨device, List.mem_singleton_self device, rfl⟩
  · rename_i settled
    cases pin : connection.deviceWorkerId with
    | none => exact .inl rfl
    | some device =>
      right
      refine ⟨device, ?_, rfl⟩
      simp only [needsPin, pin, Bool.and_eq_true, decide_eq_true_eq, Bool.not_eq_true',
        not_and, Bool.not_eq_false] at settled
      by_cases isTarget : pinTarget matchingDeviceIds = some device
      · rw [pinTarget_eq_some.mp isTarget]
        exact List.mem_singleton_self device
      · exact List.contains_iff_mem.mp (settled (Ne.symm isTarget))

theorem needsPin_repin (connection : Connection) :
    (connection.repin matchingDeviceIds).needsPin matchingDeviceIds = false := by
  cases needs : connection.needsPin matchingDeviceIds with
  | true =>
    have same : (connection.repin matchingDeviceIds).deviceWorkerId = pinTarget matchingDeviceIds := if_pos needs
    rw [needsPin, same]
    simp
  | false =>
    have same : (connection.repin matchingDeviceIds).deviceWorkerId = connection.deviceWorkerId := by
      simp [repin, needs]
    rw [← needs, needsPin, needsPin, same]

end Connection

namespace ConnectorCell

open Connection (PinKept)

variable {cell after : ConnectorCell} {connection : Connection} {userId : String} {now : Int}
variable {feedKeys matchingDeviceIds : List String} {found : Bool}

theorem autoWired_of_reconcilePin (reconciled : cell.reconcilePin matchingDeviceIds = some after) :
    after.autoWired = cell.autoWired.modifyHead (Connection.repin matchingDeviceIds) := by
  unfold reconcilePin at reconciled
  split at reconciled
  · rename_i none
    rw [← Option.some.inj reconciled, none]
    rfl
  · split at reconciled
    · cases reconciled
    · rw [← Option.some.inj reconciled]
      exact filter_changeFirst fun _ => rfl

theorem reconcilePin_eq_none :
    cell.reconcilePin matchingDeviceIds = none ↔
      ∃ connection ∈ cell.autoWired.head?, cell.clashes matchingDeviceIds connection = true := by
  unfold reconcilePin
  split
  · rename_i none
    simp [none]
  · rename_i connection rest some
    simp [some]

theorem autoWired_wireConnection (userId : String) (feedKeys : List String) (now : Int)
    (found : Bool) (cell : ConnectorCell) :
    (cell.wireConnection userId feedKeys now found).autoWired =
      if found then
        cell.autoWired.modifyHead fun connection =>
          (connection.adopt userId).wireFeeds now feedKeys
      else cell.autoWired ++ [((newConnection userId).adopt userId).wireFeeds now feedKeys] := by
  cases found with
  | true => exact filter_changeFirst Connection.isAutoWired_wired
  | false =>
    show (cell.connections ++ [_]).filter _ = _
    rw [List.filter_append]
    congr 1
    exact List.filter_cons_of_pos (Connection.isAutoWired_wired (newConnection userId))

theorem isPinned_wireConnection (userId : String) (feedKeys : List String) (now : Int)
    (found : Bool) (cell : ConnectorCell) (device : String) :
    (cell.wireConnection userId feedKeys now found).isPinned device = cell.isPinned device := by
  have same : ∀ connection : Connection,
      (decide (((connection.adopt userId).wireFeeds now feedKeys).deviceWorkerId = some device) &&
        !((connection.adopt userId).wireFeeds now feedKeys).deleted) =
      (decide (connection.deviceWorkerId = some device) && !connection.deleted) := by
    intro connection
    obtain ⟨feeds, same⟩ := Connection.wireFeeds_eq now feedKeys (connection.adopt userId)
    rw [same]
    rfl
  cases found with
  | true => exact any_changeFirst_eq same
  | false =>
    show (cell.connections ++ [_]).any _ = _
    rw [List.any_append, List.any_cons, same]
    simp [newConnection, isPinned]

theorem clashes_wireConnection (userId : String) (feedKeys : List String) (now : Int)
    (found : Bool) (cell : ConnectorCell) (connection : Connection) :
    (cell.wireConnection userId feedKeys now found).clashes matchingDeviceIds
        ((connection.adopt userId).wireFeeds now feedKeys) = cell.clashes matchingDeviceIds connection := by
  have same : (cell.wireConnection userId feedKeys now found).isPinned = cell.isPinned :=
    funext (isPinned_wireConnection userId feedKeys now found cell)
  rw [clashes, clashes, Connection.needsPin_wired, same]

theorem autoWired_pauseStaleFeeds (userId : String) (cell : ConnectorCell) :
    (cell.pauseStaleFeeds userId).autoWired = cell.autoWired.map fun connection =>
      if connection.createdBy = some userId then connection.pauseFeeds else connection := by
  unfold autoWired pauseStaleFeeds
  simp only
  induction cell.connections with
  | nil => rfl
  | cons first connections ih =>
    cases wired : first.isAutoWired with
    | true =>
      rw [List.map_cons, List.filter_cons_of_pos wired, List.map_cons, ← ih]
      by_cases own : first.createdBy = some userId
      · have stays : first.pauseFeeds.isAutoWired = true := wired
        simp [wired, own, stays]
      · simp [wired, own]
    | false =>
      rw [List.map_cons, wired, Bool.false_and, if_neg Bool.false_ne_true,
        List.filter_cons_of_neg (by simp [wired]), List.filter_cons_of_neg (by simp [wired]), ih]

/-- There are not two connections without an auth profile. -/
def AtMostOne (cell : ConnectorCell) : Prop := cell.autoWired.length ≤ 1

/-- The connection that is wired: the one that is there, or a new one. -/
def subject (userId : String) (cell : ConnectorCell) : Connection :=
  cell.autoWired.head?.getD (newConnection userId)

theorem AtMostOne.cases (one : cell.AtMostOne) :
    cell.autoWired = [] ∨ ∃ connection, cell.autoWired = [connection] := by
  cases rows : cell.autoWired with
  | nil => exact .inl rfl
  | cons first rest =>
    cases rest with
    | nil => exact .inr ⟨first, rfl⟩
    | cons second rest =>
      rw [AtMostOne, rows] at one
      simp at one

theorem install_cases (userId : String) (feedKeys matchingDeviceIds : List String) (now : Int)
    (one : cell.AtMostOne) (known : found = !cell.autoWired.isEmpty) :
    (cell.clashes matchingDeviceIds (cell.subject userId) = true ∧
      cell.install userId feedKeys matchingDeviceIds now found = none) ∨
    (cell.clashes matchingDeviceIds (cell.subject userId) = false ∧
      ∃ after, cell.install userId feedKeys matchingDeviceIds now found = some after ∧ after.autoWired =
          [(((cell.subject userId).adopt userId).wireFeeds now feedKeys).repin matchingDeviceIds]) := by
  have rows : (cell.wireConnection userId feedKeys now found).autoWired =
      [((cell.subject userId).adopt userId).wireFeeds now feedKeys] := by
    rw [autoWired_wireConnection, subject]
    rcases one.cases with none | ⟨connection, single⟩
    · simp [known, none]
    · simp [known, single]
  have same : (cell.wireConnection userId feedKeys now found).clashes matchingDeviceIds
      (((cell.subject userId).adopt userId).wireFeeds now feedKeys) =
        cell.clashes matchingDeviceIds (cell.subject userId) :=
    clashes_wireConnection userId feedKeys now found cell _
  cases outcome : cell.install userId feedKeys matchingDeviceIds now found with
  | none =>
    left
    obtain ⟨connection, isHead, clash⟩ := reconcilePin_eq_none.mp outcome
    rw [rows, List.head?_cons, Option.mem_some_iff] at isHead
    rw [← isHead, same] at clash
    exact ⟨clash, rfl⟩
  | some after =>
    right
    have wired := autoWired_of_reconcilePin outcome
    rw [rows, List.modifyHead_cons] at wired
    refine ⟨?_, after, rfl, wired⟩
    cases clash : cell.clashes matchingDeviceIds (cell.subject userId) with
    | false => rfl
    | true =>
      have refused := reconcilePin_eq_none.mpr ⟨_, by rw [rows, List.head?_cons]; exact rfl, same.trans clash⟩
      rw [install, refused] at outcome
      cases outcome

theorem ensureWired_of_clash (one : cell.AtMostOne)
    (clash : cell.clashes matchingDeviceIds (cell.subject userId) = true) :
    cell.ensureWired userId feedKeys matchingDeviceIds now = cell := by
  have refused : cell.install userId feedKeys matchingDeviceIds now (!cell.autoWired.isEmpty) = none := by
    rcases install_cases userId feedKeys matchingDeviceIds now one rfl with refused | wired
    · exact refused.2
    · rw [clash] at wired
      exact Bool.noConfusion wired.1
  have unready (pinned : (if cell.installed then cell.reconcilePin matchingDeviceIds
      else some cell) = some cell) (notReady : cell.isReady feedKeys = false) :
      cell.ensureWired userId feedKeys matchingDeviceIds now = cell := by
    simp only [ensureWired, pinned, notReady, refused]
    rfl
  rcases one.cases with none | ⟨connection, single⟩
  · apply unready
    · rw [reconcilePin, none]
      exact ite_self _
    · rw [isReady, none]
  · cases there : cell.installed with
    | true =>
      have refusedPin : cell.reconcilePin matchingDeviceIds = none :=
        reconcilePin_eq_none.mpr ⟨connection, by simp [single], by
          simpa [subject, single] using clash⟩
      simp only [ensureWired, there, if_true, refusedPin]
    | false =>
      apply unready
      · simp [there]
      · simp [isReady, single, there]

theorem ensureWired_of_install {pinned : ConnectorCell} (one : pinned.AtMostOne)
    (free : pinned.clashes matchingDeviceIds (pinned.subject userId) = false)
    (first : (if cell.installed then cell.reconcilePin matchingDeviceIds else some cell) = some pinned)
    (notReady : cell.isReady feedKeys = false) :
    ∃ connection, (cell.ensureWired userId feedKeys matchingDeviceIds now).autoWired = [connection] ∧
      (∀ feedKey ∈ feedKeys, connection.hasActiveFeed feedKey = true) ∧
      connection.createdBy = (pinned.subject userId).createdBy.or (some userId) := by
  rcases install_cases userId feedKeys matchingDeviceIds now one rfl with refused | wired
  · rw [free] at refused
    exact Bool.noConfusion refused.1
  · obtain ⟨_, after, installed, rows⟩ := wired
    have left : cell.ensureWired userId feedKeys matchingDeviceIds now = after := by
      simp only [ensureWired, first, notReady, installed]
      rfl
    rw [← left] at rows
    refine ⟨_, rows, fun feedKey listed => ?_, ?_⟩
    · exact Connection.hasActiveFeed_wireFeeds (.inl listed)
    · obtain ⟨feeds, same⟩ := Connection.wireFeeds_eq now feedKeys ((pinned.subject userId).adopt userId)
      rw [same]
      rfl

theorem ensureWired_of_free (feedKeys : List String) (now : Int) (one : cell.AtMostOne)
    (free : cell.clashes matchingDeviceIds (cell.subject userId) = false) :
    ∃ connection, (cell.ensureWired userId feedKeys matchingDeviceIds now).autoWired = [connection] ∧
      (∀ feedKey ∈ feedKeys, connection.hasActiveFeed feedKey = true) ∧
      connection.createdBy = if cell.isReady feedKeys then (cell.subject userId).createdBy
        else (cell.subject userId).createdBy.or (some userId) := by
  rcases one.cases with none | ⟨connection, single⟩
  · have notReady : cell.isReady feedKeys = false := by rw [isReady, none]
    rw [if_neg (by rw [notReady]; exact Bool.false_ne_true)]
    refine ensureWired_of_install one free ?_ notReady
    rw [reconcilePin, none]
    exact ite_self _
  · cases there : cell.installed with
    | false =>
      have notReady : cell.isReady feedKeys = false := by simp [isReady, single, there]
      rw [if_neg (by rw [notReady]; exact Bool.false_ne_true)]
      exact ensureWired_of_install one free (by simp [there]) notReady
    | true =>
      cases pinning : cell.reconcilePin matchingDeviceIds with
      | none =>
        obtain ⟨other, isHead, clash⟩ := reconcilePin_eq_none.mp pinning
        rw [single, List.head?_cons, Option.mem_some_iff] at isHead
        rw [subject, single, List.head?_cons, Option.getD_some, isHead, clash] at free
        exact Bool.noConfusion free
      | some pinned =>
        have rows := autoWired_of_reconcilePin pinning
        rw [single, List.modifyHead_cons] at rows
        have isSubject : pinned.subject userId = connection.repin matchingDeviceIds := by
          rw [subject, rows]
          rfl
        have sameOwner : (pinned.subject userId).createdBy = (cell.subject userId).createdBy := by
          rw [isSubject, subject, single]
          rfl
        cases ready : cell.isReady feedKeys with
        | true =>
          refine ⟨connection.repin matchingDeviceIds, ?_, ?_, ?_⟩
          · simp only [ensureWired, there, if_true, pinning, ready]
            exact rows
          · intro feedKey listed
            simp only [isReady, single, there, Bool.true_and] at ready
            exact List.all_eq_true.mp ready feedKey listed
          · rw [← isSubject, if_pos rfl, sameOwner]
        | false =>
          have stillOne : pinned.AtMostOne := by
            rw [AtMostOne, rows]
            exact Nat.le_refl 1
          have stillFree : pinned.clashes matchingDeviceIds (pinned.subject userId) = false := by
            rw [isSubject, clashes, Connection.needsPin_repin, Bool.false_and]
          rw [if_neg Bool.false_ne_true, ← sameOwner]
          refine ensureWired_of_install stillOne stillFree ?_ ready
          rw [there, if_pos rfl, pinning]

def PinsKept (cell : ConnectorCell) : Prop := ∀ connection ∈ cell.autoWired, PinKept connection

theorem PinsKept.reconcilePin (kept : cell.PinsKept)
    (reconciled : cell.reconcilePin matchingDeviceIds = some after) : after.PinsKept := by
  intro connection among
  rw [autoWired_of_reconcilePin reconciled] at among
  cases rows : cell.autoWired with
  | nil => simp [rows] at among
  | cons first rest =>
    rw [rows, List.modifyHead_cons] at among
    rcases List.mem_cons.mp among with same | later
    · rw [same]
      exact Connection.pinKept_repin first
    · exact kept connection (rows ▸ List.mem_cons_of_mem _ later)

theorem pinKept_wired (kept : PinKept connection) : PinKept ((connection.adopt userId).wireFeeds now feedKeys) := by
  obtain ⟨feeds, same⟩ := Connection.wireFeeds_eq now feedKeys (connection.adopt userId)
  rw [same]
  exact kept

theorem PinsKept.install (kept : cell.PinsKept)
    (installed : cell.install userId feedKeys matchingDeviceIds now found = some after) : after.PinsKept := by
  refine PinsKept.reconcilePin ?_ installed
  intro connection among
  rw [autoWired_wireConnection] at among
  cases found with
  | true =>
    rw [if_pos rfl] at among
    cases rows : cell.autoWired with
    | nil => simp [rows] at among
    | cons first rest =>
      rw [rows, List.modifyHead_cons] at among
      rcases List.mem_cons.mp among with same | later
      · rw [same]
        exact pinKept_wired (kept first (rows ▸ List.mem_cons_self))
      · exact kept connection (rows ▸ List.mem_cons_of_mem _ later)
  | false =>
    rw [if_neg Bool.false_ne_true] at among
    rcases List.mem_append.mp among with old | new
    · exact kept connection old
    · rw [List.mem_singleton.mp new]
      refine pinKept_wired ?_
      intro matching never
      cases never

theorem PinsKept.ensureWired (kept : cell.PinsKept) :
    (cell.ensureWired userId feedKeys matchingDeviceIds now).PinsKept := by
  unfold ConnectorCell.ensureWired
  simp only
  split
  · exact kept
  · rename_i pinned first
    have keptFirst : pinned.PinsKept := by
      split at first
      · exact kept.reconcilePin first
      · exact Option.some.inj first ▸ kept
    split
    · exact keptFirst
    · cases outcome : pinned.install userId feedKeys matchingDeviceIds now (!pinned.autoWired.isEmpty) with
      | none => exact keptFirst
      | some after => exact keptFirst.install outcome

theorem PinsKept.pauseStaleFeeds (kept : cell.PinsKept) : (cell.pauseStaleFeeds userId).PinsKept := by
  intro connection among
  rw [autoWired_pauseStaleFeeds] at among
  obtain ⟨before, listed, same⟩ := List.mem_map.mp among
  rw [← same]
  split
  · exact kept before listed
  · exact kept before listed

theorem AtMostOne.reconcilePin (one : cell.AtMostOne)
    (reconciled : cell.reconcilePin matchingDeviceIds = some after) : after.AtMostOne := by
  rw [AtMostOne, autoWired_of_reconcilePin reconciled, List.length_modifyHead]
  exact one

theorem AtMostOne.install (one : cell.AtMostOne) (absent : found = false → cell.autoWired = [])
    (installed : cell.install userId feedKeys matchingDeviceIds now found = some after) : after.AtMostOne := by
  refine AtMostOne.reconcilePin ?_ installed
  rw [AtMostOne, autoWired_wireConnection]
  cases found with
  | true =>
    rw [if_pos rfl, List.length_modifyHead]
    exact one
  | false =>
    rw [if_neg Bool.false_ne_true, absent rfl]
    exact Nat.le_refl 1

theorem AtMostOne.ensureWired (one : cell.AtMostOne) :
    (cell.ensureWired userId feedKeys matchingDeviceIds now).AtMostOne := by
  cases clash : cell.clashes matchingDeviceIds (cell.subject userId) with
  | true =>
    rw [ensureWired_of_clash one clash]
    exact one
  | false =>
    obtain ⟨connection, single, _⟩ := ensureWired_of_free feedKeys now one clash
    rw [AtMostOne, single]
    exact Nat.le_refl 1

theorem AtMostOne.pauseStaleFeeds (one : cell.AtMostOne) : (cell.pauseStaleFeeds userId).AtMostOne := by
  rw [AtMostOne, autoWired_pauseStaleFeeds, List.length_map]
  exact one

end ConnectorCell

end Lobu.Devices
