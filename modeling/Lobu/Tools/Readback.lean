import Lobu.Core.WorkerToken
import Lobu.Foundation.Machine
import Lobu.Tools.EffectiveInventory

namespace Lobu.Tools

open Lobu.Foundation
open Lobu.Worker (trimmed)

/-! # Reading an inventory back

The gateway makes its own canonical form of the tool names that a worker
reports, and keeps one report under each authority.
-/

inductive ReadbackFault where
  | unbounded
  | invalidName
  | fingerprintMismatch
  | checkViolation
  | authorityConflict
deriving DecidableEq

/-- The messages of the code's own errors. -/
def ReadbackFault.message : ReadbackFault → Option String
  | .unbounded => some "MCP tool inventory must remain bounded"
  | .invalidName => some "MCP tool name is invalid"
  | .fingerprintMismatch => some "effective inventory fingerprint does not match tool names"
  | .checkViolation => none
  | .authorityConflict => some "effective inventory authority conflicts with prior write"

def isAlphanumeric (c : Char) : Bool :=
  decide (48 ≤ c.toNat ∧ c.toNat ≤ 57 ∨ 65 ≤ c.toNat ∧ c.toNat ≤ 90 ∨
    97 ≤ c.toNat ∧ c.toNat ≤ 122)

def isNameChar (c : Char) : Bool :=
  isAlphanumeric c || ['_', '.', ':', '/', '-'].contains c

/-- One of `[A-Za-z0-9]`, and then at most 199 of `[A-Za-z0-9_.:-]` and slashes. -/
def isToolName (name : String) : Bool :=
  match name.toList with
  | [] => false
  | first :: rest => isAlphanumeric first && decide (rest.length ≤ 199) && rest.all isNameChar

variable (runtime : Runtime)

def digest (value : Json) : String :=
  "sha256:" ++ runtime.sha256 (stringify runtime.numberText value.canonicalize)

structure CanonicalInventory where
  names : List String
  fingerprint : String
deriving DecidableEq

def canonicalToolInventory (input : List String) : Except ReadbackFault CanonicalInventory :=
  if 256 < input.length then throw .unbounded
  else
    let names := sortedSet (input.map trimmed)
    if names.any fun name => !isToolName name then throw .invalidName
    else return { names, fingerprint := digest runtime (.array (names.map Json.string)) }

structure AgentReleaseApply where
  organizationId : String
  agentId : String
  status : String
  appliedReleaseId : String
  appliedReleaseSequence : Int

structure CapabilitySnapshot where
  organizationId : String
  agentId : String
  releaseId : String
  releaseSequence : Int
  snapshotDigest : String
  observedAt : Int
  expiresAt : Int

/-- The primary key of a report. -/
structure AuthorityKey where
  organizationId : String
  agentId : String
  snapshotAuthority : String
deriving DecidableEq

/-- The `CHECK` constraints on a report, those apart that hold of whatever is written. -/
def passesChecks (key : AuthorityKey) (releaseSequence : Int)
    (capabilitySnapshotDigest inventoryFingerprint : String) : Bool :=
  decide (0 < releaseSequence) && decide (1 ≤ key.snapshotAuthority.length) &&
    decide (key.snapshotAuthority.length ≤ 200) &&
    Core.isSnapshotDigest (some (.string inventoryFingerprint)) &&
    Core.isSnapshotDigest (some (.string capabilitySnapshotDigest))

structure InventorySnapshot where
  key : AuthorityKey
  releaseId : String
  releaseSequence : Int
  capabilitySnapshotDigest : String
  toolNames : List String
  inventoryFingerprint : String
  observedAt : Int
  expiresAt : Int
  checked : passesChecks key releaseSequence capabilitySnapshotDigest inventoryFingerprint = true

structure ReadbackStore where
  applies : List AgentReleaseApply
  capabilities : List CapabilitySnapshot
  inventories : List InventorySnapshot
  once : (inventories.map InventorySnapshot.key).Nodup

structure InventoryTruthInput where
  key : AuthorityKey
  releaseId : String
  releaseSequence : Int
  capabilitySnapshotDigest : String
  toolNames : List String
  fingerprint : String

/-- Whether the `SELECT` of the insertion has a row. -/
def authorityIsCurrent (input : InventoryTruthInput) (observedAt : Int) (store : ReadbackStore) : Bool :=
  store.applies.any fun apply => store.capabilities.any fun capability =>
    decide (capability.organizationId = apply.organizationId ∧
      capability.agentId = apply.agentId ∧ capability.releaseId = apply.appliedReleaseId ∧
      capability.releaseSequence = apply.appliedReleaseSequence ∧
      apply.organizationId = input.key.organizationId ∧ apply.agentId = input.key.agentId ∧
      apply.status = "applied" ∧ apply.appliedReleaseId = input.releaseId ∧
      apply.appliedReleaseSequence = input.releaseSequence ∧
      capability.snapshotDigest = input.capabilitySnapshotDigest ∧
      capability.observedAt ≤ observedAt ∧ observedAt < capability.expiresAt)

/-- Twenty minutes, in milliseconds. -/
def inventoryLifetime : Int := 20 * 60000

def find? (store : ReadbackStore) (key : AuthorityKey) : Option InventorySnapshot :=
  store.inventories.find? fun row => decide (row.key = key)

/-- Whether the stored report says what the input says. -/
def agreesWith (input : InventoryTruthInput) (inventory : CanonicalInventory) (row : InventorySnapshot) : Bool :=
  decide (row.releaseId = input.releaseId) && decide (row.releaseSequence = input.releaseSequence) &&
    decide (row.capabilitySnapshotDigest = input.capabilitySnapshotDigest) &&
    decide (row.inventoryFingerprint = inventory.fingerprint) &&
    match canonicalToolInventory runtime row.toolNames with
    | .error _ => false
    | .ok existing =>
      stringify runtime.numberText (Json.array (existing.names.map Json.string)).canonicalize ==
        stringify runtime.numberText (Json.array (inventory.names.map Json.string)).canonicalize

/-- What follows an insertion that wrote nothing. -/
def compareWithPrior (input : InventoryTruthInput) (inventory : CanonicalInventory)
    (store : ReadbackStore) : Except ReadbackFault ReadbackStore :=
  if (find? store input.key).any (agreesWith runtime input inventory) then return store
  else throw .authorityConflict

theorem find?_none {store : ReadbackStore} {key : AuthorityKey} (absent : find? store key = none) :
    key ∉ store.inventories.map InventorySnapshot.key := by
  intro member
  obtain ⟨row, listed, same⟩ := List.mem_map.mp member
  have other := List.find?_eq_none.mp absent row listed
  exact other (decide_eq_true same)

/-- `ON CONFLICT DO NOTHING`: a concurrent report under the same key is waited for, so that the
insertion and the reading after it see it or do not. -/
def insertTruth (input : InventoryTruthInput) (inventory : CanonicalInventory) (observedAt : Int)
    (store : ReadbackStore) : Except ReadbackFault ReadbackStore :=
  if checked : passesChecks input.key input.releaseSequence input.capabilitySnapshotDigest
      input.fingerprint = true then
    match absent : find? store input.key with
    | some _ => compareWithPrior runtime input inventory store
    | none =>
      return { store with
        inventories := store.inventories ++ [{
          key := input.key
          releaseId := input.releaseId
          releaseSequence := input.releaseSequence
          capabilitySnapshotDigest := input.capabilitySnapshotDigest
          toolNames := inventory.names
          inventoryFingerprint := input.fingerprint
          observedAt
          expiresAt := observedAt + inventoryLifetime
          checked }]
        once := by
          rw [List.map_append]
          exact List.nodup_append'.mpr ⟨store.once, by simp, by
            simpa using find?_none absent⟩ }
  else throw .checkViolation

def recordAgentEffectiveToolInventoryTruth (input : InventoryTruthInput) (observedAt : Int)
    (store : ReadbackStore) : Except ReadbackFault ReadbackStore := do
  let inventory ← canonicalToolInventory runtime input.toolNames
  if input.fingerprint ≠ inventory.fingerprint then throw .fingerprintMismatch
  else if authorityIsCurrent input observedAt store then
    insertTruth runtime input inventory observedAt store
  else compareWithPrior runtime input inventory store

inductive ReadbackEvent where
  | report (input : InventoryTruthInput) (observedAt : Int)
  -- the tables of releases are written elsewhere
  | release (applies : List AgentReleaseApply) (capabilities : List CapabilitySnapshot)

/-- A report that throws is rolled back. -/
def readbackStep (store : ReadbackStore) : ReadbackEvent → ReadbackStore
  | .report input observedAt =>
    match recordAgentEffectiveToolInventoryTruth runtime input observedAt store with
    | .ok after => after
    | .error _ => store
  | .release applies capabilities => { store with applies, capabilities }

def readbackMachine : Machine ReadbackStore ReadbackEvent where
  starts store := store.inventories = []
  step store event := some (readbackStep runtime store event)

end Lobu.Tools
