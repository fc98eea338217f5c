import Lobu.Courses.Toolbox

namespace Lobu.Identity

open Lobu.Courses (utf16Length)

/-! # Identity facts

What a connector emits for one provider account, the rules that a catalog declares on its
relationship types, and the schemas that every one of them is checked against.
-/

inductive AssuranceLevel where
  | oauth_verified_admin_role
  | oauth_verified
  | cookie_session
  | self_attested
deriving DecidableEq

namespace AssuranceLevel

def ASSURANCE_RANK : AssuranceLevel → Nat
  | .oauth_verified_admin_role => 4
  | .oauth_verified => 3
  | .cookie_session => 2
  | .self_attested => 1

def text : AssuranceLevel → String
  | .oauth_verified_admin_role => "oauth_verified_admin_role"
  | .oauth_verified => "oauth_verified"
  | .cookie_session => "cookie_session"
  | .self_attested => "self_attested"

end AssuranceLevel

def assuranceMeets (actual required : AssuranceLevel) : Bool :=
  decide (required.ASSURANCE_RANK ≤ actual.ASSURANCE_RANK)

/-- `Type.String({ minLength, maxLength })`. -/
def lengthWithin (minLength maxLength : Nat) (text : String) : Bool :=
  decide (minLength ≤ utf16Length text) && decide (utf16Length text ≤ maxLength)

theorem ne_empty_of_lengthWithin {minLength maxLength : Nat} {text : String}
    (within : lengthWithin minLength maxLength text = true) (positive : 0 < minLength) : text ≠ "" := by
  rintro rfl
  simp only [lengthWithin, utf16Length, String.toList_empty, List.flatMap_nil, List.length_nil,
    Bool.and_eq_true, decide_eq_true_eq] at within
  omega

structure ConnectorFact where
  namespace_ : String
  identifier : String
  normalizedValue : String
  assurance : AssuranceLevel
  providerStableId : String
  sourceAccountId : String
  validTo : Option String := none
  notes : Option String := none

def validateConnectorFact (fact : ConnectorFact) : Bool :=
  lengthWithin 1 64 fact.namespace_ && lengthWithin 1 1024 fact.identifier &&
    lengthWithin 1 1024 fact.normalizedValue && lengthWithin 1 256 fact.providerStableId &&
    lengthWithin 1 256 fact.sourceAccountId && fact.validTo.all (lengthWithin 1 64) &&
    fact.notes.all (lengthWithin 0 512)

/-- `events.metadata` of an identity fact. -/
structure FactEventMetadata where
  namespace_ : String
  identifier : String
  normalizedValue : String
  assurance : AssuranceLevel
  providerStableId : String
  sourceAccountId : String
  validTo : Option String := none
  notes : Option String := none
deriving DecidableEq

def validateFactEventMetadata (metadata : FactEventMetadata) : Bool :=
  lengthWithin 1 64 metadata.namespace_ && lengthWithin 0 1024 metadata.identifier &&
    lengthWithin 0 1024 metadata.normalizedValue && lengthWithin 0 256 metadata.providerStableId &&
    lengthWithin 1 256 metadata.sourceAccountId && metadata.validTo.all (lengthWithin 1 64) &&
    metadata.notes.all (lengthWithin 0 512)

inductive MatchStrategy where
  | unique_only
  | all_matches
deriving DecidableEq

structure AutoCreateWhenRule where
  sourceNamespace : String
  targetField : String
  assuranceRequired : AssuranceLevel
  matchStrategy : MatchStrategy
  notes : Option String := none

/-- The part of `entity_relationship_types.metadata` that the engine reads. -/
structure RelationshipTypeIdentityMetadata where
  autoCreateWhen : List AutoCreateWhenRule
  ruleVersion : Nat
  ruleHash : String

def validateRelationshipTypeIdentityMetadata (metadata : RelationshipTypeIdentityMetadata) : Bool :=
  decide (metadata.autoCreateWhen.length ≤ 16) &&
    metadata.autoCreateWhen.all (fun rule =>
      lengthWithin 1 64 rule.sourceNamespace && lengthWithin 1 64 rule.targetField &&
        rule.notes.all (lengthWithin 0 512)) &&
    decide (1 ≤ metadata.ruleVersion) && lengthWithin 64 64 metadata.ruleHash

/-- `derivedAt` is the clock that its text is written from. -/
structure DerivedFromProvenance where
  sourceEventId : Nat
  relationshipTypeId : Nat
  ruleVersion : Nat
  ruleHash : String
  factAssurance : AssuranceLevel
  derivedAt : Int

def validateDerivedRelationshipMetadata (provenance : DerivedFromProvenance) : Bool :=
  decide (1 ≤ provenance.sourceEventId) && decide (1 ≤ provenance.relationshipTypeId) &&
    decide (1 ≤ provenance.ruleVersion) && lengthWithin 64 64 provenance.ruleHash

structure ClaimCollisionPayload where
  namespace_ : String
  identifier : String
  normalizedValue : String
  candidateEntityIds : List Nat
  candidateCount : Nat
  triggeringEventId : Nat
  relationshipTypeId : Nat

def validateClaimCollisionPayload (payload : ClaimCollisionPayload) : Bool :=
  lengthWithin 1 64 payload.namespace_ && lengthWithin 1 1024 payload.identifier &&
    lengthWithin 1 1024 payload.normalizedValue &&
    decide (2 ≤ payload.candidateEntityIds.length) &&
    decide (payload.candidateEntityIds.length ≤ 16) &&
    payload.candidateEntityIds.all (fun id => decide (1 ≤ id)) &&
    decide (2 ≤ payload.candidateCount) && decide (1 ≤ payload.triggeringEventId) &&
    decide (1 ≤ payload.relationshipTypeId)

structure AccountIdentity where
  connectorKey : String
  providerStableId : String
  sourceAccountId : String
  connectionId : Option Nat := none

/-- The key of `withAccountLock`. -/
structure Account where
  connectorKey : String
  providerStableId : String
deriving DecidableEq

def AccountIdentity.account (identity : AccountIdentity) : Account :=
  ⟨identity.connectorKey, identity.providerStableId⟩

/-- The shadow setting is what `isShadow` makes of the option and the environment. -/
structure IngestParams where
  tenantOrganizationId : String
  memberEntityId : Nat
  userId : String
  accountIdentity : AccountIdentity
  facts : List ConnectorFact
  shadow : Bool := false

def originIdForFact (accountIdentity : AccountIdentity) (namespace_ normalizedValue : String) : String :=
  "identity_fact:" ++ accountIdentity.connectorKey ++ ":" ++ accountIdentity.providerStableId ++
    ":" ++ namespace_ ++ ":" ++ normalizedValue

/-- The namespace and the value are joined with a unit separator. -/
def priorKey (namespace_ normalizedValue : String) : String :=
  namespace_ ++ "\x1f" ++ normalizedValue

def ConnectorFact.priorKey (fact : ConnectorFact) : String :=
  Identity.priorKey fact.namespace_ fact.normalizedValue

def FactEventMetadata.priorKey (metadata : FactEventMetadata) : String :=
  Identity.priorKey metadata.namespace_ metadata.normalizedValue

end Lobu.Identity
