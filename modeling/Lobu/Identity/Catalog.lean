import Lobu.Identity.Facts

namespace Lobu.Identity

/-! # The catalog

The rows of `entities`, `entity_relationship_types` and their rules as one ingest pass reads
them, and the registry of connector capabilities.
-/

/-- `metadata` is what `metadata->>field` answers for each field that it has. -/
structure EntityRow where
  id : Nat
  organizationId : String
  deleted : Bool := false
  entityType : String
  metadata : List (String × String)

/-- `metadata` is absent where `metadata ? 'autoCreateWhen'` does not hold, and `malformed`
where it does not have the shape of its schema. -/
inductive RuleMetadata where
  | absent
  | malformed
  | declared (metadata : RelationshipTypeIdentityMetadata)

structure RelationshipTypeRow where
  id : Nat
  slug : String
  organizationId : String
  deleted : Bool := false
  active : Bool := true
  isSymmetric : Bool := false
  metadata : RuleMetadata

structure TypeRuleRow where
  relationshipTypeId : Nat
  sourceEntityTypeSlug : String
  targetEntityTypeSlug : String
  deleted : Bool := false

/-- `identityFields` is what `loadIdentityFields` answers for an organization, from its cache or
from the table. -/
structure Catalog where
  entities : List EntityRow := []
  relationshipTypes : List RelationshipTypeRow := []
  typeRules : List TypeRuleRow := []
  publicOrganizations : List String := []
  identityFields : String → List String := fun _ => []

structure RuleRow where
  relationshipTypeId : Nat
  relationshipTypeSlug : String
  catalogOrganizationId : String
  rules : List AutoCreateWhenRule
  ruleVersion : Nat
  ruleHash : String

/-- A rule set whose stored hash is not the hash of its rules is skipped. -/
def loadRules (ruleHashFor : List AutoCreateWhenRule → String) (catalog : Catalog) : List RuleRow :=
  catalog.relationshipTypes.filterMap fun row =>
    if row.deleted || !row.active || !catalog.publicOrganizations.contains row.organizationId then
      none
    else
      match row.metadata with
      | .absent | .malformed => none
      | .declared metadata =>
        if !validateRelationshipTypeIdentityMetadata metadata then none
        else if ruleHashFor metadata.autoCreateWhen ≠ metadata.ruleHash then none
        else some {
          relationshipTypeId := row.id
          relationshipTypeSlug := row.slug
          catalogOrganizationId := row.organizationId
          rules := metadata.autoCreateWhen
          ruleVersion := metadata.ruleVersion
          ruleHash := metadata.ruleHash }

def findEntitiesByMetadataField (catalog : Catalog) (catalogOrgId field normalizedValue : String) : List EntityRow :=
  if !(catalog.identityFields catalogOrgId).contains field then []
  else catalog.entities.filter fun entity =>
    decide (entity.organizationId = catalogOrgId) && !entity.deleted &&
      decide (entity.metadata.lookup field = some normalizedValue)

/-- `String(rows.find(…)?.entity_type)`. -/
def entityTypeText (catalog : Catalog) (entityId : Nat) : String :=
  ((catalog.entities.find? fun entity => decide (entity.id = entityId)).map
    EntityRow.entityType).getD "undefined"

def validateTypeRule (catalog : Catalog) (relationshipTypeId fromEntityId toEntityId : Nat) : Except String Unit :=
  match catalog.relationshipTypes.find? fun row =>
      decide (row.id = relationshipTypeId) && !row.deleted with
  | none => .error ("Relationship type " ++ toString relationshipTypeId ++ " not found")
  | some type =>
    let fromEntityType := entityTypeText catalog fromEntityId
    let toEntityType := entityTypeText catalog toEntityId
    let ruleRows := catalog.typeRules.filter fun rule =>
      decide (rule.relationshipTypeId = relationshipTypeId) && !rule.deleted
    let fits (rule : TypeRuleRow) : Bool :=
      decide (rule.sourceEntityTypeSlug = fromEntityType) &&
          decide (rule.targetEntityTypeSlug = toEntityType) ||
        type.isSymmetric && decide (rule.sourceEntityTypeSlug = toEntityType) &&
          decide (rule.targetEntityTypeSlug = fromEntityType)
    if ruleRows.isEmpty || ruleRows.any fits then .ok ()
    else .error ("Relationship type " ++ toString relationshipTypeId ++ " does not allow " ++
      fromEntityType ++ " → " ++ toEntityType)

structure ProducedNamespace where
  namespace_ : String
  assurance : AssuranceLevel

structure ConnectorIdentityCapability where
  connectorKey : String
  produces : List ProducedNamespace

/-- The registered connectors; one that is replaced is registered once. -/
abbrev ConnectorCapabilityRegistry := List ConnectorIdentityCapability

namespace ConnectorCapabilityRegistry

/-- The strongest assurance that is declared for the namespace, the later of equals. -/
def maxAssurance (registry : ConnectorCapabilityRegistry) (connectorKey namespace_ : String) :
    Option AssuranceLevel :=
  match registry.find? fun capability => decide (capability.connectorKey = connectorKey) with
  | none => none
  | some capability =>
    capability.produces.foldl
      (fun prior produced =>
        if produced.namespace_ ≠ namespace_ then prior
        else match prior with
          | none => some produced.assurance
          | some level =>
            if assuranceMeets produced.assurance level then some produced.assurance else prior)
      none

end ConnectorCapabilityRegistry

/-- What an ingest pass reads besides the tables that it writes: the clock, how a date is
read from a text, the hash of a rule set, and what is said of a value that fails a schema. -/
structure World where
  catalog : Catalog := {}
  registry : ConnectorCapabilityRegistry := []
  now : Int := 0
  parseDate : String → Option Int := fun _ => none
  ruleHashFor : List AutoCreateWhenRule → String := fun _ => ""
  schemaErrors : String → String := fun _ => ""

end Lobu.Identity
