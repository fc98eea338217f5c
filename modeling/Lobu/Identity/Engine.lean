import Lobu.Foundation.Table
import Lobu.Foundation.Transaction
import Lobu.Identity.Catalog

namespace Lobu.Identity

open Lobu.Foundation

/-! # The identity engine

`ingestFacts` holds the lock of its account and makes every write in one transaction.  The rows
below are those of `events` and `entity_relationships` with the columns that the engine reads
or that say what it wrote.
-/

inductive EventMetadata where
  | fact (metadata : FactEventMetadata)
  | collision (payload : ClaimCollisionPayload)

/-- The collision events of the engine are approvals; `pending` is their status. -/
structure EventRow where
  id : Nat := 0
  organizationId : String
  entityIds : List Nat
  originId : String
  metadata : EventMetadata
  title : Option String := none
  content : Option String := none
  connectorKey : Option String := none
  connectionId : Option Nat := none
  supersedesEventId : Option Nat := none
  pending : Bool := false
  createdBy : String

structure RelationshipRow where
  id : Nat := 0
  fromEntityId : Nat
  toEntityId : Nat
  relationshipTypeId : Nat
  organizationId : String
  derivedFrom : Option DerivedFromProvenance
  deleted : Bool := false
  updatedAt : Int
  createdBy : String
  updatedBy : String

/-- `events` is append only; `idx_events_superseded_by` lets an event be superseded once, by one
that came after it. -/
structure EventTable where
  rows : List EventRow := []
  nextId : Nat := 1
  ids : (rows.map EventRow.id).Nodup := by simp
  fresh : ∀ row ∈ rows, row.id < nextId := by simp
  positive : 0 < nextId := by simp
  earlier : ∀ row ∈ rows, ∀ id ∈ row.supersedesEventId, id < nextId := by simp
  superseded : (rows.filterMap EventRow.supersedesEventId).Nodup := by simp

/-- `idx_entity_relationships_live_triple`. -/
def RelationshipRow.triple (row : RelationshipRow) : Nat × Nat × Nat :=
  (row.fromEntityId, row.toEntityId, row.relationshipTypeId)

structure Database where
  events : EventTable := {}
  relationships : List RelationshipRow := []
  nextRelationshipId : Nat := 1

inductive IngestFailure where
  | schema (schemaName : String)
  | error (message : String)
  /-- A 23505 on `idx_events_superseded_by`. -/
  | supersedeConflict
  | foreignKey
deriving DecidableEq

structure SkippedRule where
  ruleId : String
  reason : String
deriving DecidableEq

structure IngestResult where
  factEventIds : List Nat := []
  supersededEventIds : List Nat := []
  derivedRelationshipIds : List Nat := []
  revokedRelationshipIds : List Nat := []
  collisionEventIds : List Nat := []
  skippedRules : List SkippedRule := []
deriving DecidableEq

def emptyResult : IngestResult := {}

namespace EventTable

/-- No row supersedes the event. -/
def isCurrent (table : EventTable) (row : EventRow) : Bool :=
  table.rows.all fun newer => decide (newer.supersedesEventId ≠ some row.id)

/-- `current_event_records`. -/
def currentRecords (table : EventTable) : List EventRow :=
  table.rows.filter table.isCurrent

def insert (table : EventTable) (row : EventRow) : Except IngestFailure (Nat × EventTable) :=
  if known : ∀ id ∈ row.supersedesEventId, id ∈ table.rows.map EventRow.id then
    if once : ∀ id ∈ row.supersedesEventId, id ∉ table.rows.filterMap EventRow.supersedesEventId then
      .ok (table.nextId, {
        rows := table.rows ++ [{ row with id := table.nextId }]
        nextId := table.nextId + 1
        ids := nodup_append_drawn table.ids table.fresh rfl
        fresh := below_append_drawn table.fresh rfl
        positive := Nat.succ_pos _
        earlier := by
          intro stored member id supersedes
          rcases List.mem_append.mp member with kept | last
          · exact Nat.lt_succ_of_lt (table.earlier stored kept id supersedes)
          · obtain rfl := List.mem_singleton.mp last
            obtain ⟨target, present, rfl⟩ := List.mem_map.mp (known id supersedes)
            exact Nat.lt_succ_of_lt (table.fresh target present)
        superseded := by
          rw [List.filterMap_append, List.nodup_append]
          refine ⟨table.superseded, ?_, ?_⟩
          · cases supersedes : row.supersedesEventId <;> simp
          · intro id member other last
            cases supersedes : row.supersedesEventId with
            | none => simp [supersedes] at last
            | some target =>
              simp only [List.filterMap_cons, supersedes, List.filterMap_nil, List.mem_singleton] at last
              rintro rfl
              subst last
              exact once id supersedes member })
    else .error .supersedeConflict
  else .error .foreignKey

end EventTable

abbrev IngestTransaction := Transaction Database IngestFailure

def insertEvent (row : EventRow) : IngestTransaction Nat :=
  Transaction.attempt fun database =>
    match database.events.insert row with
    | .ok (id, events) => .ok (id, { database with events })
    | .error failure => .error failure

structure PriorFact where
  eventId : Nat
  namespace_ : String
  normalizedValue : String
  providerStableId : String
  assurance : AssuranceLevel

def PriorFact.priorKey (prior : PriorFact) : String :=
  Identity.priorKey prior.namespace_ prior.normalizedValue

/-- A fact event of the account that is no tombstone. -/
def EventRow.factOf (account : Account) (row : EventRow) : Option FactEventMetadata :=
  match row.metadata with
  | .collision _ => none
  | .fact metadata =>
    if row.connectorKey = some account.connectorKey ∧
        metadata.providerStableId = account.providerStableId ∧ metadata.normalizedValue ≠ "" then
      some metadata
    else none

def loadPriorFacts (account : Account) (database : Database) : List PriorFact :=
  database.events.currentRecords.filterMap fun row =>
    (row.factOf account).map fun metadata =>
      ⟨row.id, metadata.namespace_, metadata.normalizedValue, account.providerStableId,
        metadata.assurance⟩

/-- A `Map` filled from a list keeps the place of the first entry of a key and the value of the
last one. -/
def Map.set {α : Type} (map : List (String × α)) (key : String) (value : α) : List (String × α) :=
  upsert (fun entry => decide (entry.1 = key)) (key, value) map

def Map.get? {α : Type} (map : List (String × α)) (key : String) : Option α :=
  (map.find? fun entry => decide (entry.1 = key)).map Prod.snd

def priorByKey (priorFacts : List PriorFact) : List (String × PriorFact) :=
  priorFacts.foldl (fun map prior => Map.set map prior.priorKey prior) []

def liveWith (triple : Nat × Nat × Nat) (row : RelationshipRow) : Bool :=
  !row.deleted && decide (row.triple = triple)

def findExistingRelationship (triple : Nat × Nat × Nat) (database : Database) : Option Nat :=
  (database.relationships.find? (liveWith triple)).map RelationshipRow.id

def isDerivedFrom (eventId : Nat) (row : RelationshipRow) : Bool :=
  !row.deleted && row.derivedFrom.any fun provenance =>
    decide (provenance.sourceEventId = eventId)

def revokeDerivationsForEvent (world : World) (eventId : Nat) (userId : String) : IngestTransaction (List Nat) :=
  Transaction.attempt fun database => .ok (
    (database.relationships.filter (isDerivedFrom eventId)).map RelationshipRow.id,
    { database with
      relationships := RowUpdate.run
        { selects := isDerivedFrom eventId
          sets := fun row =>
            { row with deleted := true, updatedAt := world.now, updatedBy := userId } }
        database.relationships })

/-- `INSERT … ON CONFLICT DO NOTHING RETURNING id`. -/
def insertRelationship (row : RelationshipRow) : IngestTransaction (Option Nat) :=
  Transaction.attempt fun database => .ok (
    if database.relationships.any (liveWith row.triple) then (none, database)
    else (some database.nextRelationshipId, { database with
      relationships := database.relationships ++ [{ row with id := database.nextRelationshipId }]
      nextRelationshipId := database.nextRelationshipId + 1 }))

def checkFact (world : World) (accountIdentity : AccountIdentity) (seenFactKeys : List String)
    (fact : ConnectorFact) : Except IngestFailure Unit :=
  if !validateConnectorFact fact then .error (.schema "ConnectorFact")
  else if fact.providerStableId ≠ accountIdentity.providerStableId then
    .error (.error ("identity-engine: fact.providerStableId mismatches accountIdentity (got " ++
      fact.providerStableId ++ ", expected " ++ accountIdentity.providerStableId ++ ")"))
  else if fact.sourceAccountId ≠ accountIdentity.sourceAccountId then
    .error (.error ("identity-engine: fact.sourceAccountId mismatches accountIdentity (got " ++
      fact.sourceAccountId ++ ", expected " ++ accountIdentity.sourceAccountId ++ ")"))
  else if fact.priorKey ∈ seenFactKeys then
    .error (.error ("identity-engine: duplicate fact in batch for namespace/value " ++
      fact.namespace_ ++ "/" ++ fact.normalizedValue))
  else
    match world.registry.maxAssurance accountIdentity.connectorKey fact.namespace_ with
    | none =>
      .error (.error ("identity-engine: connector " ++ accountIdentity.connectorKey ++
        " has no registered capability for namespace " ++ fact.namespace_))
    | some cap =>
      if !assuranceMeets cap fact.assurance then
        .error (.error ("identity-engine: connector " ++ accountIdentity.connectorKey ++
          " cannot emit " ++ fact.assurance.text ++ " for namespace " ++ fact.namespace_ ++
          " (capped at " ++ cap.text ++ ")"))
      else .ok ()

def checkFacts (world : World) (accountIdentity : AccountIdentity) :
    List String → List ConnectorFact → Except IngestFailure Unit
  | _, [] => .ok ()
  | seenFactKeys, fact :: facts => do
      checkFact world accountIdentity seenFactKeys fact
      checkFacts world accountIdentity (fact.priorKey :: seenFactKeys) facts

def ConnectorFact.factMetadata (fact : ConnectorFact) : FactEventMetadata where
  namespace_ := fact.namespace_
  identifier := fact.identifier
  normalizedValue := fact.normalizedValue
  assurance := fact.assurance
  providerStableId := fact.providerStableId
  sourceAccountId := fact.sourceAccountId
  validTo := fact.validTo
  notes := fact.notes

def factRow (params : IngestParams) (supersedes : Option Nat) (fact : ConnectorFact) : EventRow where
  organizationId := params.tenantOrganizationId
  entityIds := [params.memberEntityId]
  originId := originIdForFact params.accountIdentity fact.namespace_ fact.normalizedValue
  metadata := .fact fact.factMetadata
  connectorKey := some params.accountIdentity.connectorKey
  connectionId := params.accountIdentity.connectionId
  supersedesEventId := supersedes
  createdBy := params.userId

def tombstoneMeta (accountIdentity : AccountIdentity) (prior : PriorFact) : FactEventMetadata where
  namespace_ := prior.namespace_
  identifier := ""
  normalizedValue := ""
  assurance := .self_attested
  providerStableId := accountIdentity.providerStableId
  sourceAccountId := accountIdentity.sourceAccountId
  notes := some "superseded by absence on connector refresh"

def tombstoneRow (params : IngestParams) (prior : PriorFact) : EventRow where
  organizationId := params.tenantOrganizationId
  entityIds := [params.memberEntityId]
  originId := "identity_fact_tombstone:" ++ params.accountIdentity.connectorKey ++ ":" ++
    params.accountIdentity.providerStableId ++ ":" ++ prior.namespace_ ++ ":" ++
    prior.normalizedValue
  metadata := .fact (tombstoneMeta params.accountIdentity prior)
  connectorKey := some params.accountIdentity.connectorKey
  connectionId := params.accountIdentity.connectionId
  supersedesEventId := some prior.eventId
  createdBy := params.userId

def require (holds : Bool) (failure : IngestFailure) : IngestTransaction Unit :=
  Transaction.ofExcept (if holds then .ok () else .error failure)

/-- An entry of `incomingByNamespaceValue`. -/
structure IncomingFact where
  eventId : Nat
  fact : ConnectorFact

structure Persisted where
  result : IngestResult := {}
  incomingByNamespaceValue : List (String × IncomingFact) := []

def persistFact (params : IngestParams) (priorByKey : List (String × PriorFact))
    (persisted : Persisted) (fact : ConnectorFact) : IngestTransaction Persisted := do
  require (validateFactEventMetadata fact.factMetadata) (.schema "FactEventMetadata")
  let supersedes := (Map.get? priorByKey fact.priorKey).map PriorFact.eventId
  let id ← insertEvent (factRow params supersedes fact)
  return {
    result := { persisted.result with
      factEventIds := persisted.result.factEventIds ++ [id]
      supersededEventIds := persisted.result.supersededEventIds ++ supersedes.toList }
    incomingByNamespaceValue :=
      Map.set persisted.incomingByNamespaceValue fact.priorKey ⟨id, fact⟩ }

def tombstoneAbsent (params : IngestParams) (incoming : List (String × IncomingFact))
    (result : IngestResult) (entry : String × PriorFact) : IngestTransaction IngestResult :=
  if (Map.get? incoming entry.1).isSome then return result
  else do
    require (validateFactEventMetadata (tombstoneMeta params.accountIdentity entry.2))
      (.schema "FactEventMetadata")
    let id ← insertEvent (tombstoneRow params entry.2)
    return { result with
      factEventIds := result.factEventIds ++ [id]
      supersededEventIds := result.supersededEventIds ++ [entry.2.eventId] }

def revokeSuperseded (world : World) (params : IngestParams) (result : IngestResult)
    (supersededId : Nat) : IngestTransaction IngestResult := do
  let revoked ← revokeDerivationsForEvent world supersededId params.userId
  return { result with revokedRelationshipIds := result.revokedRelationshipIds ++ revoked }

def isExpired (world : World) (fact : ConnectorFact) : Bool :=
  (fact.validTo.bind world.parseDate).any fun expiresAt => decide (expiresAt ≤ world.now)

def IngestResult.skip (result : IngestResult) (ruleSet : RuleRow) (reason : String) : IngestResult :=
  { result with
    skippedRules := result.skippedRules ++
      [⟨ruleSet.relationshipTypeSlug ++ "@" ++ toString ruleSet.ruleVersion, reason⟩] }

def MAX_COLLISION_CANDIDATES : Nat := 16

def collisionOriginId (accountIdentity : AccountIdentity) (fact : ConnectorFact) : String :=
  "claim_collision:" ++ accountIdentity.connectorKey ++ ":" ++ accountIdentity.providerStableId ++
    ":" ++ fact.namespace_ ++ ":" ++ fact.normalizedValue

/-- A collision of this origin that waits for a resolution. -/
def EventRow.isPendingCollision (organizationId originId : String) (row : EventRow) : Bool :=
  match row.metadata with
  | .fact _ => false
  | .collision _ =>
    row.pending && decide (row.organizationId = organizationId) &&
      decide (row.originId = originId)

def findPendingCollision (organizationId originId : String) (database : Database) : Option Nat :=
  ((database.events.currentRecords.filter
    (EventRow.isPendingCollision organizationId originId)).getLast?).map EventRow.id

def recordCollision (params : IngestParams) (factEventId : Nat) (candidateMemberIds : List Nat)
    (fact : ConnectorFact) (relationshipTypeId : Nat) : IngestTransaction Nat := do
  let candidateEntityIds := candidateMemberIds.take MAX_COLLISION_CANDIDATES
  let payload : ClaimCollisionPayload := {
    namespace_ := fact.namespace_
    identifier := fact.identifier
    normalizedValue := fact.normalizedValue
    candidateEntityIds
    candidateCount := candidateMemberIds.length
    triggeringEventId := factEventId
    relationshipTypeId }
  require (validateClaimCollisionPayload payload) (.schema "ClaimCollisionPayload")
  let originId := collisionOriginId params.accountIdentity fact
  match ← Transaction.read (findPendingCollision params.tenantOrganizationId originId) with
  | some id => return id
  | none =>
    insertEvent {
      organizationId := params.tenantOrganizationId
      entityIds := candidateEntityIds
      originId
      metadata := .collision payload
      title := some ("Identity match collision on " ++ fact.namespace_)
      content := some ("Two or more candidate $member rows match this provider-verified " ++
        fact.namespace_ ++ "; manual resolution required.")
      pending := true
      createdBy := params.userId }

/-- What stops a derivation before it is written; the schema is checked first. -/
def derivationError (world : World) (params : IngestParams) (target : Nat)
    (provenance : DerivedFromProvenance) : Option String :=
  if !validateDerivedRelationshipMetadata provenance then
    some ("DerivedRelationshipMetadata validation failed: " ++
      world.schemaErrors "DerivedRelationshipMetadata")
  else
    match validateTypeRule world.catalog provenance.relationshipTypeId params.memberEntityId
        target with
    | .ok () => none
    | .error message => some message

def deriveTarget (world : World) (params : IngestParams) (eventId : Nat) (fact : ConnectorFact)
    (ruleSet : RuleRow) (result : IngestResult) (target : EntityRow) :
    IngestTransaction IngestResult := do
  let triple := (params.memberEntityId, target.id, ruleSet.relationshipTypeId)
  match ← Transaction.read (findExistingRelationship triple) with
  | some _ => return result
  | none =>
    let provenance : DerivedFromProvenance := {
      sourceEventId := eventId
      relationshipTypeId := ruleSet.relationshipTypeId
      ruleVersion := ruleSet.ruleVersion
      ruleHash := ruleSet.ruleHash
      factAssurance := fact.assurance
      derivedAt := world.now }
    match derivationError world params target.id provenance with
    | some message =>
      return result.skip ruleSet ("type-rule rejected " ++ toString params.memberEntityId ++
        "→" ++ toString target.id ++ ": " ++ message)
    | none =>
      let relId ← insertRelationship {
        fromEntityId := params.memberEntityId
        toEntityId := target.id
        relationshipTypeId := ruleSet.relationshipTypeId
        organizationId := params.tenantOrganizationId
        derivedFrom := some provenance
        updatedAt := world.now
        createdBy := params.userId
        updatedBy := params.userId }
      return { result with
        derivedRelationshipIds := result.derivedRelationshipIds ++ relId.toList }

def validMatches (world : World) (memberEntityId : Nat) (ruleSet : RuleRow)
    (rule : AutoCreateWhenRule) (fact : ConnectorFact) : List EntityRow :=
  (findEntitiesByMetadataField world.catalog ruleSet.catalogOrganizationId rule.targetField
    fact.normalizedValue).filter fun found =>
      match validateTypeRule world.catalog ruleSet.relationshipTypeId memberEntityId found.id with
      | .ok () => true
      | .error _ => false

def applyRule (world : World) (params : IngestParams) (eventId : Nat) (fact : ConnectorFact)
    (ruleSet : RuleRow) (result : IngestResult) (rule : AutoCreateWhenRule) : IngestTransaction IngestResult :=
  if rule.sourceNamespace ≠ fact.namespace_ then return result
  else if !assuranceMeets fact.assurance rule.assuranceRequired then
    return result.skip ruleSet ("assurance " ++ fact.assurance.text ++ " below required " ++
      rule.assuranceRequired.text)
  else if isExpired world fact then
    return result.skip ruleSet ("fact validTo " ++ fact.validTo.getD "" ++ " is in the past")
  else
    let found := validMatches world params.memberEntityId ruleSet rule fact
    if decide (1 < found.length) && decide (rule.matchStrategy = .unique_only) then do
      let collisionId ← recordCollision params eventId (found.map EntityRow.id) fact
        ruleSet.relationshipTypeId
      return { result with collisionEventIds := result.collisionEventIds ++ [collisionId] }.skip
        ruleSet (toString found.length ++ " valid matches with match_strategy=unique_only")
    else
      -- a rule for a unique match is left with one target or none
      found.foldlM (deriveTarget world params eventId fact ruleSet) result

def applyRuleSet (world : World) (params : IngestParams) (eventId : Nat) (fact : ConnectorFact)
    (result : IngestResult) (ruleSet : RuleRow) : IngestTransaction IngestResult :=
  ruleSet.rules.foldlM (applyRule world params eventId fact ruleSet) result

def applyRules (world : World) (params : IngestParams) (incoming : List (String × IncomingFact))
    (result : IngestResult) (fact : ConnectorFact) : IngestTransaction IngestResult :=
  match Map.get? incoming fact.priorKey with
  | none => return result
  | some entry =>
    (loadRules world.ruleHashFor world.catalog).foldlM
      (applyRuleSet world params entry.eventId fact) result

def ingestFactsLocked (world : World) (params : IngestParams) : IngestTransaction IngestResult := do
  Transaction.ofExcept (checkFacts world params.accountIdentity [] params.facts)
  let priorFacts ← Transaction.read (loadPriorFacts params.accountIdentity.account)
  let persisted ← params.facts.foldlM (persistFact params (priorByKey priorFacts)) {}
  let result ← (priorByKey priorFacts).foldlM
    (tombstoneAbsent params persisted.incomingByNamespaceValue) persisted.result
  if params.shadow then return result
  else do
    let result ← result.supersededEventIds.foldlM (revokeSuperseded world params) result
    params.facts.foldlM (applyRules world params persisted.incomingByNamespaceValue) result

structure IngestCall where
  world : World
  params : IngestParams

abbrev IngestCall.account (call : IngestCall) : Account :=
  call.params.accountIdentity.account

/-- What one call does while it holds the lock of its account. -/
def ingestFacts (call : IngestCall) : IngestTransaction IngestResult :=
  ingestFactsLocked call.world call.params

/-- What the caller is told: a lost race for a supersession counts as a success. -/
def ingestAnswer : Except IngestFailure IngestResult → Except IngestFailure IngestResult
  | .error .supersedeConflict => .ok emptyResult
  | answer => answer

end Lobu.Identity
