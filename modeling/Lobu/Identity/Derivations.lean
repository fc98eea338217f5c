import Lobu.Identity.Diff

namespace Lobu.Identity

open Lobu.Foundation

/-! # The derivations of a batch

Which relationships and collisions the rules make of a batch, read off the catalog alone, and
that the loops over facts, rules and targets leave exactly these live and pending.
-/

abbrev Triple := Nat × Nat × Nat

def Database.Live (database : Database) (triple : Triple) : Prop :=
  ∃ row ∈ database.relationships, liveWith triple row = true

/-- The organization and the origin of a collision that waits for a resolution. -/
abbrev CollisionKey := String × String

def Database.Pending (database : Database) (key : CollisionKey) : Prop :=
  ∃ row ∈ database.events.currentRecords, row.isPendingCollision key.1 key.2 = true

def ruleApplies (world : World) (fact : ConnectorFact) (rule : AutoCreateWhenRule) : Bool :=
  decide (rule.sourceNamespace = fact.namespace_) &&
    assuranceMeets fact.assurance rule.assuranceRequired && !isExpired world fact

def isAmbiguous (rule : AutoCreateWhenRule) (found : List EntityRow) : Bool :=
  decide (1 < found.length) && decide (rule.matchStrategy = .unique_only)

/-- The provenance of a rule set has the shape of its schema. -/
def isDerivable (ruleSet : RuleRow) : Bool :=
  decide (1 ≤ ruleSet.relationshipTypeId) && decide (1 ≤ ruleSet.ruleVersion) &&
    lengthWithin 64 64 ruleSet.ruleHash

def targetTriples (memberEntityId : Nat) (ruleSet : RuleRow) (target : EntityRow) : List Triple :=
  if isDerivable ruleSet then [(memberEntityId, target.id, ruleSet.relationshipTypeId)] else []

def ruleTriples (world : World) (memberEntityId : Nat) (fact : ConnectorFact)
    (ruleSet : RuleRow) (rule : AutoCreateWhenRule) : List Triple :=
  let found := validMatches world memberEntityId ruleSet rule fact
  if ruleApplies world fact rule && !isAmbiguous rule found then
    found.flatMap (targetTriples memberEntityId ruleSet)
  else []

def ruleCollisions (world : World) (params : IngestParams) (fact : ConnectorFact)
    (ruleSet : RuleRow) (rule : AutoCreateWhenRule) : List CollisionKey :=
  if ruleApplies world fact rule && isAmbiguous rule (validMatches world params.memberEntityId ruleSet rule fact)
  then [(params.tenantOrganizationId, collisionOriginId params.accountIdentity fact)]
  else []

def factTriples (world : World) (memberEntityId : Nat) (fact : ConnectorFact) : List Triple :=
  (loadRules world.ruleHashFor world.catalog).flatMap fun ruleSet =>
    ruleSet.rules.flatMap (ruleTriples world memberEntityId fact ruleSet)

def factCollisions (world : World) (params : IngestParams) (fact : ConnectorFact) : List CollisionKey :=
  (loadRules world.ruleHashFor world.catalog).flatMap fun ruleSet =>
    ruleSet.rules.flatMap (ruleCollisions world params fact ruleSet)

section Derives

variable {derived : RelationshipRow → Prop} {before between after : Database}
variable {triples more : List Triple} {collisions others : List CollisionKey}

/-- By rows of this kind exactly these relationships were made live, and these collisions were
raised, each only where it was missing. -/
structure Derives (derived : RelationshipRow → Prop) (before after : Database) (triples : List Triple)
    (collisions : List CollisionKey) : Prop where
  events : ∃ rows, before.events.Appends after.events rows ∧ ∀ row ∈ rows,
    row.supersedesEventId = none ∧ ∃ key ∈ collisions,
      row.isPendingCollision key.1 key.2 = true ∧ ¬ before.Pending key
  pending : ∀ key ∈ collisions, after.Pending key
  relationships : ∃ rows, after.relationships = before.relationships ++ rows ∧ ∀ row ∈ rows,
    row.deleted = false ∧ row.triple ∈ triples ∧ derived row
  live : ∀ triple ∈ triples, after.Live triple

theorem Derives.unchanged (live : ∀ triple ∈ triples, before.Live triple)
    (pending : ∀ key ∈ collisions, before.Pending key) : Derives derived before before triples collisions where
  events := ⟨[], .refl _, by simp⟩
  pending := pending
  relationships := ⟨[], by simp, by simp⟩
  live := live

theorem Derives.refl (before : Database) : Derives derived before before [] [] :=
  .unchanged (by simp) (by simp)

theorem Derives.current (derives : Derives derived before after triples collisions) :
    ∃ rows, after.events.currentRecords = before.events.currentRecords ++ rows ∧ ∀ row ∈ rows,
      ∃ key ∈ collisions, row.isPendingCollision key.1 key.2 = true ∧ ¬ before.Pending key := by
  obtain ⟨rows, appends, new⟩ := derives.events
  exact ⟨rows, appends.currentRecords_of_none fun row member => (new row member).1,
    fun row member => (new row member).2⟩

theorem Derives.pending_kept (derives : Derives derived before after triples collisions)
    {key : CollisionKey} (pending : before.Pending key) : after.Pending key := by
  obtain ⟨rows, current, _⟩ := derives.current
  obtain ⟨row, member, waits⟩ := pending
  exact ⟨row, by rw [current]; exact List.mem_append_left _ member, waits⟩

theorem Derives.live_kept (derives : Derives derived before after triples collisions)
    {triple : Triple} (live : before.Live triple) : after.Live triple := by
  obtain ⟨rows, grown, _⟩ := derives.relationships
  obtain ⟨row, member, holds⟩ := live
  exact ⟨row, by rw [grown]; exact List.mem_append_left _ member, holds⟩

theorem Derives.trans (first : Derives derived before between triples collisions)
    (second : Derives derived between after more others) :
    Derives derived before after (triples ++ more) (collisions ++ others) where
  events := by
    obtain ⟨rows, appends, new⟩ := first.events
    obtain ⟨added, grows, newer⟩ := second.events
    refine ⟨rows ++ added, appends.trans grows, ?_⟩
    intro row member
    rcases List.mem_append.mp member with earlier | later
    · obtain ⟨plain, key, listed, waits, missing⟩ := new row earlier
      exact ⟨plain, key, List.mem_append_left _ listed, waits, missing⟩
    · obtain ⟨plain, key, listed, waits, missing⟩ := newer row later
      exact ⟨plain, key, List.mem_append_right _ listed, waits, fun pending => missing (first.pending_kept pending)⟩
  pending := by
    intro key member
    rcases List.mem_append.mp member with earlier | later
    · exact second.pending_kept (first.pending key earlier)
    · exact second.pending key later
  relationships := by
    obtain ⟨rows, grown, new⟩ := first.relationships
    obtain ⟨added, grows, newer⟩ := second.relationships
    refine ⟨rows ++ added, by rw [grows, grown, List.append_assoc], ?_⟩
    intro row member
    rcases List.mem_append.mp member with earlier | later
    · obtain ⟨live, listed, source⟩ := new row earlier
      exact ⟨live, List.mem_append_left _ listed, source⟩
    · obtain ⟨live, listed, source⟩ := newer row later
      exact ⟨live, List.mem_append_right _ listed, source⟩
  live := by
    intro triple member
    rcases List.mem_append.mp member with earlier | later
    · exact second.live_kept (first.live triple earlier)
    · exact second.live triple later

theorem Derives.loop {γ : Type} {items : List γ} {body : IngestResult → γ →
    IngestTransaction IngestResult} {start final : IngestResult} (makes : γ → List Triple)
    (raises : γ → List CollisionKey) (passes : ∀ item ∈ items, ∀ result database next later,
      (body result item).run database = .ok (next, later) → Derives derived database later (makes item) (raises item))
    (ran : (items.foldlM body start).run before = .ok (final, after)) :
    Derives derived before after (items.flatMap makes) (items.flatMap raises) := by
  refine Transaction.run_foldlM_ok (fun done _ database =>
    Derives derived before database (done.flatMap makes) (done.flatMap raises)) (.refl _) ?_ ran
  intro done item result database next later listed held passed
  have member : item ∈ items := listed.subset (by simp)
  simp only [List.flatMap_append, List.flatMap_cons, List.flatMap_nil, List.append_nil]
  exact held.trans (passes item member result database next later passed)

theorem Derives.facts (derives : Derives derived before after triples collisions)
    (account : Account) : after.facts account = before.facts account := by
  obtain ⟨rows, current, new⟩ := derives.current
  have none_ : rows.filterMap (EventRow.factOf account) = [] := by
    rw [List.filterMap_eq_nil_iff]
    intro row member
    obtain ⟨key, _, waits, _⟩ := new row member
    unfold EventRow.isPendingCollision at waits
    unfold EventRow.factOf
    split at waits
    · contradiction
    · rename_i payload is_collision
      rw [is_collision]
  rw [Database.facts, current, List.filterMap_append, none_, List.append_nil, Database.facts]

end Derives

section Passes

variable {derived : RelationshipRow → Prop} {world : World} {params : IngestParams} {eventId : Nat}
variable {fact : ConnectorFact} {ruleSet : RuleRow} {rule : AutoCreateWhenRule}
variable {result next : IngestResult} {database after : Database} {target : EntityRow}

theorem liveWith_of_find {triple : Triple} {id : Nat}
    (found : findExistingRelationship triple database = some id) : database.Live triple := by
  obtain ⟨row, held, _⟩ := Option.map_eq_some_iff.mp found
  exact ⟨row, List.mem_of_find?_eq_some held, List.find?_some held⟩

theorem derivationError_none_iff {provenance : DerivedFromProvenance}
    (valid : validateTypeRule world.catalog ruleSet.relationshipTypeId params.memberEntityId target.id = .ok ())
    (positive : 1 ≤ provenance.sourceEventId) (type : provenance.relationshipTypeId = ruleSet.relationshipTypeId)
    (version : provenance.ruleVersion = ruleSet.ruleVersion) (hash : provenance.ruleHash = ruleSet.ruleHash) :
    derivationError world params target.id provenance = none ↔ isDerivable ruleSet = true := by
  unfold derivationError isDerivable validateDerivedRelationshipMetadata
  rw [type, version, hash, valid]
  simp only [positive, decide_true, Bool.true_and]
  split
  · rename_i invalid
    simp only [Bool.not_eq_true', reduceCtorEq, false_iff] at invalid ⊢
    simp [invalid]
  · rename_i holds
    simp only [Bool.not_eq_true', Bool.not_eq_false] at holds
    simp [holds]

theorem validateTypeRule_of_validMatches (member : target ∈ validMatches world params.memberEntityId ruleSet rule fact) :
    validateTypeRule world.catalog ruleSet.relationshipTypeId params.memberEntityId target.id = .ok () := by
  obtain ⟨_, accepted⟩ := List.mem_filter.mp member
  split at accepted
  · rename_i valid
    exact valid
  · contradiction

/-- The row says which event and which rule set it was derived from, and the rule allows it. -/
structure DerivedBy (world : World) (params : IngestParams) (eventId : Nat) (fact : ConnectorFact)
    (ruleSet : RuleRow) (rule : AutoCreateWhenRule) (row : RelationshipRow) : Prop where
  provenance : row.derivedFrom = some {
    sourceEventId := eventId
    relationshipTypeId := ruleSet.relationshipTypeId
    ruleVersion := ruleSet.ruleVersion
    ruleHash := ruleSet.ruleHash
    factAssurance := fact.assurance
    derivedAt := world.now }
  applies : ruleApplies world fact rule = true
  definite : isAmbiguous rule (validMatches world params.memberEntityId ruleSet rule fact) = false
  target : ∃ target ∈ validMatches world params.memberEntityId ruleSet rule fact,
    row.triple = (params.memberEntityId, target.id, ruleSet.relationshipTypeId)

theorem deriveTarget_ok (positive : 1 ≤ eventId) (applies : ruleApplies world fact rule = true)
    (definite : isAmbiguous rule (validMatches world params.memberEntityId ruleSet rule fact) = false)
    (member : target ∈ validMatches world params.memberEntityId ruleSet rule fact)
    (ran : (deriveTarget world params eventId fact ruleSet result target).run database = .ok (next, after)) :
    Derives (DerivedBy world params eventId fact ruleSet rule) database after
      (targetTriples params.memberEntityId ruleSet target) [] := by
  have valid := validateTypeRule_of_validMatches member
  simp only [deriveTarget, Transaction.run_bind, Transaction.run_read] at ran
  split at ran
  · rename_i found
    cases ran
    refine .unchanged ?_ (by simp)
    intro triple listed
    unfold targetTriples at listed
    split at listed
    · rw [List.mem_singleton.mp listed]
      exact liveWith_of_find found
    · contradiction
  · rename_i missing
    split at ran
    · rename_i message failed
      cases ran
      have underivable : isDerivable ruleSet ≠ true := by
        intro derivable
        rw [(derivationError_none_iff valid positive rfl rfl rfl).mpr derivable] at failed
        contradiction
      rw [targetTriples, if_neg underivable]
      exact .refl _
    · rename_i passed
      have derivable := (derivationError_none_iff valid positive rfl rfl rfl).mp passed
      have absent : database.relationships.any (liveWith (params.memberEntityId, target.id,
          ruleSet.relationshipTypeId)) = false := by
        rw [findExistingRelationship, Option.map_eq_none_iff, List.find?_eq_none] at missing
        simpa using missing
      simp only [insertRelationship, RelationshipRow.triple, Transaction.run_bind,
        Transaction.run_attempt, absent, Bool.false_eq_true, if_false] at ran
      cases ran
      rw [targetTriples, if_pos derivable]
      refine ⟨⟨[], .refl _, by simp⟩, by simp, ⟨[_], rfl, ?_⟩, ?_⟩
      · intro row listed
        rw [List.mem_singleton.mp listed]
        exact ⟨rfl, List.mem_singleton.mpr rfl, rfl, applies, definite, target, member, rfl⟩
      · intro triple listed
        rw [List.mem_singleton.mp listed]
        exact ⟨_, List.mem_append_right _ List.mem_cons_self, by
          simp [liveWith, RelationshipRow.triple]⟩

theorem recordCollision_ok {candidates : List Nat} {relationshipTypeId id : Nat}
    (ran : (recordCollision params eventId candidates fact relationshipTypeId).run database = .ok (id, after)) :
    Derives derived database after []
      [(params.tenantOrganizationId, collisionOriginId params.accountIdentity fact)] := by
  simp only [recordCollision, Transaction.run_bind_ok] at ran
  obtain ⟨_, between, valid, found, same, read, ended⟩ := ran
  obtain ⟨_, rfl⟩ := require_ok valid
  cases read
  split at ended
  · rename_i id found
    cases ended
    refine .unchanged (by simp) ?_
    intro key member
    rw [List.mem_singleton.mp member]
    obtain ⟨row, last, _⟩ := Option.map_eq_some_iff.mp found
    obtain ⟨current, waits⟩ := List.mem_filter.mp (List.mem_of_getLast? last)
    exact ⟨row, current, waits⟩
  · rename_i missing
    obtain ⟨appends, same⟩ := insertEvent_ok ended
    have absent : ¬ between.Pending (params.tenantOrganizationId, collisionOriginId params.accountIdentity fact) := by
      rintro ⟨row, current, waits⟩
      rw [findPendingCollision, Option.map_eq_none_iff, List.getLast?_eq_none_iff] at missing
      have listed := List.mem_filter.mpr ⟨current, waits⟩
      simp only at listed
      rw [missing] at listed
      contradiction
    have raised : ∀ row : EventRow, row.metadata = .collision ⟨fact.namespace_, fact.identifier,
        fact.normalizedValue, candidates.take MAX_COLLISION_CANDIDATES, candidates.length, eventId,
        relationshipTypeId⟩ → row.pending = true →
        row.organizationId = params.tenantOrganizationId →
        row.originId = collisionOriginId params.accountIdentity fact →
        row.isPendingCollision params.tenantOrganizationId
          (collisionOriginId params.accountIdentity fact) = true := by
      intro row payload pending organization origin
      simp [EventRow.isPendingCollision, payload, pending, organization, origin]
    refine ⟨⟨_, appends, ?_⟩, ?_, ⟨[], by simp [same], by simp⟩, by simp⟩
    · intro row member
      rw [List.mem_singleton.mp member]
      exact ⟨rfl, _, List.mem_singleton.mpr rfl, raised _ rfl rfl rfl rfl, absent⟩
    · intro key member
      rw [List.mem_singleton.mp member]
      have current := appends.currentRecords_of_none (by simp)
      refine ⟨_, current ▸ List.mem_append_right _ List.mem_cons_self, ?_⟩
      exact raised _ rfl rfl rfl rfl

theorem applyRule_ok (positive : 1 ≤ eventId)
    (ran : (applyRule world params eventId fact ruleSet result rule).run database = .ok (next, after)) :
    Derives (DerivedBy world params eventId fact ruleSet rule) database after
      (ruleTriples world params.memberEntityId fact ruleSet rule)
      (ruleCollisions world params fact ruleSet rule) := by
  have skipped : ruleApplies world fact rule = false →
      Derives (DerivedBy world params eventId fact ruleSet rule) database database (ruleTriples world params.memberEntityId fact ruleSet rule)
        (ruleCollisions world params fact ruleSet rule) := by
    intro idle
    simp only [ruleTriples, ruleCollisions, idle, Bool.false_and, Bool.false_eq_true, if_false]
    exact .refl _
  unfold applyRule at ran
  split at ran
  · rename_i other
    cases ran
    exact skipped (by simp [ruleApplies, other])
  · rename_i listens
    split at ran
    · rename_i weak
      cases ran
      exact skipped (by simp only [Bool.not_eq_true'] at weak; simp [ruleApplies, weak])
    · rename_i strong
      split at ran
      · rename_i expired
        cases ran
        exact skipped (by simp [ruleApplies, expired])
      · rename_i unexpired
        have applies : ruleApplies world fact rule = true := by
          simp only [Bool.not_eq_true', Bool.not_eq_false, not_not, Bool.not_eq_true] at *
          simp [ruleApplies, listens, strong, unexpired]
        simp only at ran
        split at ran
        · rename_i ambiguous
          have unclear : isAmbiguous rule (validMatches world params.memberEntityId ruleSet rule fact) = true :=
            ambiguous
          simp only [Transaction.run_bind_ok] at ran
          obtain ⟨_, _, recorded, ended⟩ := ran
          cases ended
          simp only [ruleTriples, ruleCollisions, applies, unclear, Bool.not_true, Bool.and_false,
            Bool.and_true, Bool.false_eq_true, if_false, if_true]
          exact recordCollision_ok recorded
        · rename_i definite
          have clear : isAmbiguous rule (validMatches world params.memberEntityId ruleSet rule fact) = false := by
            simpa [isAmbiguous] using definite
          simp only [ruleTriples, ruleCollisions, applies, clear, Bool.not_false, Bool.and_false,
            Bool.and_true, Bool.false_eq_true, if_false, if_true]
          have loop := Derives.loop (targetTriples params.memberEntityId ruleSet) (fun _ => [])
            (fun target member result database next later passed =>
              deriveTarget_ok positive applies clear member passed) ran
          rw [List.flatMap_eq_nil_iff.mpr (fun _ _ => rfl)] at loop
          exact loop

theorem Derives.weaken {weaker : RelationshipRow → Prop} {before : Database}
    {triples : List Triple} {collisions : List CollisionKey}
    (derives : Derives derived before after triples collisions) (implies : ∀ row, derived row → weaker row) :
    Derives weaker before after triples collisions where
  events := derives.events
  pending := derives.pending
  relationships := by
    obtain ⟨rows, grown, new⟩ := derives.relationships
    refine ⟨rows, grown, fun row member => ?_⟩
    obtain ⟨live, listed, source⟩ := new row member
    exact ⟨live, listed, implies row source⟩
  live := derives.live

/-- Some rule of the catalog derives the row from the event. -/
def DerivedFrom (world : World) (params : IngestParams) (eventId : Nat) (fact : ConnectorFact)
    (row : RelationshipRow) : Prop :=
  ∃ ruleSet ∈ loadRules world.ruleHashFor world.catalog, ∃ rule ∈ ruleSet.rules,
    DerivedBy world params eventId fact ruleSet rule row

theorem applyRules_ok {incoming : List (String × IncomingFact)} {entry : IncomingFact}
    (known : Map.get? incoming fact.priorKey = some entry) (positive : 1 ≤ entry.eventId)
    (ran : (applyRules world params incoming result fact).run database = .ok (next, after)) :
    Derives (DerivedFrom world params entry.eventId fact) database after
      (factTriples world params.memberEntityId fact) (factCollisions world params fact) := by
  simp only [applyRules, known] at ran
  refine Derives.loop _ _ (fun ruleSet loaded result database next later passed => ?_) ran
  refine Derives.loop _ _ (fun rule listed result database next later passed => ?_) passed
  exact (applyRule_ok positive passed).weaken fun row derived =>
    ⟨ruleSet, loaded, rule, listed, derived⟩

end Passes

end Lobu.Identity
