import Lobu.Identity.Passes

namespace Lobu.Identity

open Lobu.Foundation

/-! # Facts reconcile to their batch

A pass that commits leaves exactly the facts of its batch current; a pass that is rejected
leaves the tables alone; and a batch that is ingested again is written again, under events that
supersede those of before, but says nothing new.
-/

section Effects

variable {call again : IngestCall} {before after later diff : Database} {result : IngestResult}
variable {rows more : List EventRow} {superseded : List Nat} {triple : Triple}
variable {key : CollisionKey}

theorem Ingested.live_iff (ingested : Ingested call before after rows more superseded diff)
    (shadow : call.params.shadow = false) : after.Live triple ↔
      (∃ row ∈ before.relationships, liveWith triple row = true ∧
        ∀ id ∈ superseded, isDerivedFrom id row = false) ∨ triple ∈ batchTriples call := by
  obtain ⟨revoked, revokes, derives⟩ := ingested.live shadow
  constructor
  · rintro ⟨row, member, holds⟩
    have parts := holds
    simp only [liveWith, Bool.and_eq_true, Bool.not_eq_true', decide_eq_true_eq] at parts
    rcases ingested.live_cases member parts.1 with ⟨present, unrevoked⟩ | ⟨_, listed, _⟩
    · exact .inl ⟨row, present, holds, unrevoked shadow⟩
    · rw [parts.2] at listed
      exact .inr listed
  · rintro (⟨row, present, holds, unrevoked⟩ | listed)
    · apply derives.live_kept
      have parts := holds
      simp only [liveWith, Bool.and_eq_true, Bool.not_eq_true', decide_eq_true_eq] at parts
      rw [← ingested.diffed.relationships] at present
      exact ⟨row, (revokes.live row parts.1).mpr ⟨present, unrevoked⟩, holds⟩
    · exact derives.live triple listed

variable {metadata : FactEventMetadata} {row : EventRow}

theorem isPendingCollision_of_fact {organizationId originId : String} (fact : row.metadata = .fact metadata) :
    row.isPendingCollision organizationId originId = false := by
  simp [EventRow.isPendingCollision, fact]

theorem metadata_of_factOf {account : Account}
    (fact : row.factOf account = some metadata) : row.metadata = .fact metadata := by
  unfold EventRow.factOf at fact
  split at fact
  · contradiction
  · rename_i held is_fact
    split at fact
    · cases fact
      exact is_fact
    · contradiction

theorem Diffed.pending_iff (diffed : Diffed call.params before diff rows more superseded) :
    diff.Pending key ↔ before.Pending key := by
  have written : ∀ row ∈ rows ++ more, row.isPendingCollision key.1 key.2 = false := by
    intro row member
    rcases List.mem_append.mp member with fact | tombstone
    · have shape := List.mem_map_of_mem (f := EventRow.unnumbered) fact
      rw [diffed.written] at shape
      obtain ⟨given, _, same⟩ := List.mem_map.mp shape
      exact isPendingCollision_of_fact (congrArg EventRow.metadata same.symm)
    · obtain ⟨entry, _, same, _⟩ := diffed.tombstones row tombstone
      exact isPendingCollision_of_fact (congrArg EventRow.metadata same)
  unfold Database.Pending
  rw [diffed.current]
  constructor
  · rintro ⟨row, member, waits⟩
    rcases List.mem_append.mp member with kept | new
    · exact ⟨row, (List.mem_filter.mp kept).1, waits⟩
    · rw [written row new] at waits
      contradiction
  · rintro ⟨row, member, waits⟩
    refine ⟨row, List.mem_append_left _ (List.mem_filter.mpr ⟨member, ?_⟩), waits⟩
    rw [decide_eq_true_eq]
    intro gone
    obtain ⟨_, metadata, fact⟩ :=
      diffed.superseded_fact (EventTable.mem_currentRecords.mp member).1 gone
    rw [isPendingCollision_of_fact (metadata_of_factOf fact)] at waits
    contradiction

theorem isPendingCollision_key {other : CollisionKey} (waits : row.isPendingCollision key.1 key.2 = true)
    (waitsToo : row.isPendingCollision other.1 other.2 = true) : key = other := by
  cases held : row.metadata with
  | fact metadata =>
    rw [isPendingCollision_of_fact held] at waits
    contradiction
  | collision payload =>
    simp only [EventRow.isPendingCollision, held, Bool.and_eq_true, decide_eq_true_eq] at waits waitsToo
    exact Prod.ext (waits.1.2.symm.trans waitsToo.1.2) (waits.2.symm.trans waitsToo.2)

theorem Derives.pending_iff {derived : RelationshipRow → Prop} {triples : List Triple}
    {collisions : List CollisionKey} (derives : Derives derived before after triples collisions) :
    after.Pending key ↔ before.Pending key ∨ key ∈ collisions := by
  constructor
  · rintro ⟨row, member, waits⟩
    obtain ⟨added, current, new⟩ := derives.current
    rw [current] at member
    rcases List.mem_append.mp member with kept | raised
    · exact .inl ⟨row, kept, waits⟩
    · obtain ⟨other, listed, waitsToo, _⟩ := new row raised
      rw [isPendingCollision_key waits waitsToo]
      exact .inr listed
  · rintro (pending | listed)
    · exact derives.pending_kept pending
    · exact derives.pending key listed

theorem Revokes.pending_iff {ids : List Nat} (revokes : Revokes ids before after) :
    after.Pending key ↔ before.Pending key := by
  rw [Database.Pending, revokes.events, Database.Pending]

theorem Ingested.pending_iff (ingested : Ingested call before after rows more superseded diff)
    (shadow : call.params.shadow = false) : after.Pending key ↔ before.Pending key ∨ key ∈ batchCollisions call := by
  obtain ⟨revoked, revokes, derives⟩ := ingested.live shadow
  rw [derives.pending_iff, revokes.pending_iff, ingested.diffed.pending_iff]

theorem Ingested.fresh_fact (ingested : Ingested call before after rows more superseded diff) (current : row ∈ after.events.currentRecords)
    (fact : row.factOf call.account = some metadata) : isFresh before diff row.id := by
  have diffed := ingested.diffed
  have held : row ∈ diff.events.currentRecords := by
    cases shadow : call.params.shadow with
    | true =>
      rw [ingested.shadow shadow] at current
      exact current
    | false =>
      obtain ⟨revoked, revokes, derives⟩ := ingested.live shadow
      obtain ⟨added, same, new⟩ := derives.current
      rw [same, revokes.events] at current
      rcases List.mem_append.mp current with kept | raised
      · exact kept
      · obtain ⟨key, _, waits, _⟩ := new row raised
        rw [isPendingCollision_of_fact (metadata_of_factOf fact)] at waits
        contradiction
  have stored := (EventTable.mem_currentRecords.mp held).1
  rw [diffed.current] at held
  rcases List.mem_append.mp held with old | new
  · obtain ⟨present, kept⟩ := List.mem_filter.mp old
    simp [diffed.covered row present metadata fact] at kept
  · exact ⟨diffed.appends.fresh row new, diff.events.fresh row stored⟩

/-- The same batch once more, over the same catalog and before another of its facts expires. -/
structure Repeats (call again : IngestCall) : Prop where
  params : again.params = call.params
  catalog : again.world.catalog = call.world.catalog
  ruleHashFor : again.world.ruleHashFor = call.world.ruleHashFor
  expired : ∀ fact ∈ call.facts, isExpired again.world fact = isExpired call.world fact

theorem Repeats.validMatches (repeats : Repeats call again) : validMatches again.world = validMatches call.world := by
  unfold Identity.validMatches
  rw [repeats.catalog]

theorem Repeats.ruleApplies (repeats : Repeats call again) {fact : ConnectorFact}
    (member : fact ∈ call.facts) : ruleApplies again.world fact = ruleApplies call.world fact := by
  unfold Identity.ruleApplies
  rw [repeats.expired fact member]

theorem Repeats.triples (repeats : Repeats call again) : batchTriples again = batchTriples call := by
  unfold batchTriples IngestCall.facts
  rw [repeats.params]
  apply List.flatMap_congr
  intro fact member
  have same : ∀ ruleSet, ruleTriples again.world call.params.memberEntityId fact ruleSet =
      ruleTriples call.world call.params.memberEntityId fact ruleSet := by
    intro ruleSet
    unfold ruleTriples
    rw [repeats.validMatches, repeats.ruleApplies member]
  simp only [factTriples, repeats.catalog, repeats.ruleHashFor, same]

theorem Repeats.collisions (repeats : Repeats call again) : batchCollisions again = batchCollisions call := by
  unfold batchCollisions IngestCall.facts
  rw [repeats.params]
  apply List.flatMap_congr
  intro fact member
  have same : ∀ ruleSet, ruleCollisions again.world call.params fact ruleSet =
      ruleCollisions call.world call.params fact ruleSet := by
    intro ruleSet
    unfold ruleCollisions
    rw [repeats.validMatches, repeats.ruleApplies member]
  simp only [factCollisions, repeats.catalog, repeats.ruleHashFor, same]

/-- The same facts are current, the same relationships live, the same collisions pending. -/
structure SaysTheSame (account : Account) (before after : Database) : Prop where
  facts : after.facts account = before.facts account
  live : ∀ triple, after.Live triple ↔ before.Live triple
  pending : ∀ key, after.Pending key ↔ before.Pending key

theorem SaysTheSame.refl (account : Account) (database : Database) : SaysTheSame account database database :=
  ⟨rfl, fun _ => .rfl, fun _ => .rfl⟩

variable {added tombs : List EventRow}

theorem Ingested.repeated_live (sound : before.Sound)
    (ingested : Ingested call before after rows more superseded diff) (repeats : Repeats call again) {gone : List Nat} {between : Database}
    (repeated : Ingested again after later added tombs gone between)
    (shadow : call.params.shadow = false) : later.Live triple ↔ after.Live triple := by
  rw [repeated.live_iff (by rw [repeats.params, shadow]), repeats.triples]
  constructor
  · rintro (⟨row, present, holds, _⟩ | listed)
    · exact ⟨row, present, holds⟩
    · exact (ingested.live_iff shadow).mpr (.inr listed)
  · rintro ⟨row, present, holds⟩
    by_cases kept : ∀ id ∈ gone, isDerivedFrom id row = false
    · exact .inl ⟨row, present, holds, kept⟩
    · right
      simp only [not_forall, Bool.not_eq_false] at kept
      obtain ⟨id, named, derived⟩ := kept
      simp only [isDerivedFrom, Bool.and_eq_true, Bool.not_eq_true'] at derived
      obtain ⟨live, source⟩ := derived
      obtain ⟨provenance, recorded, same⟩ := (Option.any_eq_true ..).mp source
      rw [decide_eq_true_eq] at same
      simp only [liveWith, Bool.and_eq_true, decide_eq_true_eq] at holds
      rw [← holds.2]
      rcases ingested.live_cases present live with ⟨old, _⟩ | ⟨_, listed, _⟩
      · have earlier := sound.sources row old live provenance recorded
        obtain ⟨prior, listed, numbered⟩ := repeated.diffed.prior id named
        rw [repeats.params] at listed
        obtain ⟨fact, current, stored, metadata, isFact⟩ := mem_loadPriorFacts listed
        have fresh := (ingested.fresh_fact current isFact).1
        omega
      · exact listed

theorem Ingested.repeated (sound : before.Sound)
    (ingested : Ingested call before after rows more superseded diff) (repeats : Repeats call again) {gone : List Nat} {between : Database}
    (repeated : Ingested again after later added tombs gone between) : SaysTheSame call.account after later where
  facts := by
    have same := repeated.facts
    unfold IngestCall.account IngestCall.facts at same
    rw [repeats.params] at same
    rw [same, ingested.facts]
  live := by
    intro triple
    cases shadow : call.params.shadow with
    | false => exact ingested.repeated_live sound repeats repeated shadow
    | true =>
      rw [repeated.shadow (by rw [repeats.params, shadow]), Database.Live,
        repeated.diffed.relationships, Database.Live]
  pending := by
    intro key
    cases shadow : call.params.shadow with
    | false =>
      rw [repeated.pending_iff (by rw [repeats.params, shadow]), repeats.collisions, ingested.pending_iff shadow]
      tauto
    | true =>
      rw [repeated.shadow (by rw [repeats.params, shadow]), repeated.diffed.pending_iff]

theorem Ingested.repeated_events
    (ingested : Ingested call before after rows more superseded diff) (repeats : Repeats call again) {gone : List Nat} {between : Database}
    (repeated : Ingested again after later added tombs gone between) :
    later.events.rows = after.events.rows ++ added ∧ added.map EventRow.metadata =
        call.facts.map fun fact => EventMetadata.fact fact.factMetadata := by
  have none_ : tombs = [] := by
    rw [List.eq_nil_iff_forall_not_mem]
    intro row member
    obtain ⟨entry, listed, _, missing⟩ := repeated.diffed.tombstones row member
    have keys := List.mem_map_of_mem (f := PriorFact.priorKey) listed
    rw [loadPriorFacts_keys, repeats.params] at keys
    change entry.priorKey ∈ (after.facts call.account).map FactEventMetadata.priorKey at keys
    rw [ingested.facts, List.map_map] at keys
    obtain ⟨fact, given, same⟩ := List.mem_map.mp keys
    rw [repeats.params] at missing
    exact missing fact given same
  have written : added.map EventRow.metadata = call.facts.map fun fact => EventMetadata.fact fact.factMetadata := by
    have shape := congrArg (List.map EventRow.metadata) repeated.diffed.written
    rw [List.map_map, List.map_map, repeats.params] at shape
    exact shape
  refine ⟨?_, written⟩
  have grown := repeated.diffed.appends.appended
  rw [none_, List.append_nil] at grown
  cases shadow : call.params.shadow with
  | true => rw [repeated.shadow (by rw [repeats.params, shadow]), grown]
  | false =>
    obtain ⟨revoked, revokes, derives⟩ := repeated.live (by rw [repeats.params, shadow])
    obtain ⟨collisions, appends, new⟩ := derives.events
    have nothing : collisions = [] := by
      rw [List.eq_nil_iff_forall_not_mem]
      intro row member
      obtain ⟨_, key, listed, _, missing⟩ := new row member
      rw [repeats.collisions] at listed
      apply missing
      rw [revokes.pending_iff, repeated.diffed.pending_iff, ingested.pending_iff shadow]
      exact .inr listed
    rw [appends.appended, nothing, List.append_nil, revokes.events, grown]

end Effects

section Runs

variable {before after : Session IngestCall Database IngestFailure IngestResult}
variable {call : IngestCall} {answer : Except IngestFailure IngestResult}

/-- A batch that commits leaves its own facts current, one that does not commits nothing, and
one that is ingested again says nothing new. -/
theorem facts_reconciled (reached : ingests.Reachable unrestricted before)
    (answered : Session.Answers ingestFacts before after call answer) :
    (∀ failure, answer = .error failure → after.committed = before.committed) ∧
    (∀ aborted, before.step ingestFacts .abort = some aborted → aborted.committed = before.committed) ∧
    ∀ result, answer = .ok result → after.committed.facts call.account = call.facts.map ConnectorFact.factMetadata ∧
      ∀ again, Repeats call again →
        SaysTheSame call.account after.committed ((ingestFacts again).execute after.committed).2 ∧
        ∀ repeated later, (ingestFacts again).execute after.committed = (.ok repeated, later) →
          ∃ rows, later.events.rows = after.committed.events.rows ++ rows ∧ rows.map EventRow.metadata =
              call.facts.map fun fact => EventMetadata.fact fact.factMetadata := by
  have executed := answered.executes reached
  refine ⟨?_, ?_, ?_⟩
  · rintro failure rfl
    exact Transaction.rows_of_execute executed
  · intro aborted stepped
    exact Session.committed_kept stepped (by simp)
  · rintro result rfl
    have sound := sound_of_reachable reached
    obtain ⟨rows, more, superseded, diff, ingested⟩ :=
      ingestFacts_ok (sound.keyed _) (Transaction.run_of_execute executed)
    have soundAfter := ingested.sound sound
    refine ⟨ingested.facts, ?_⟩
    intro again repeats
    refine ⟨?_, ?_⟩
    · cases second : (ingestFacts again).execute after.committed with
      | mk outcome later =>
        cases outcome with
        | error failure =>
          rw [Transaction.rows_of_execute second]
          exact .refl _ _
        | ok repeated =>
          obtain ⟨added, tombs, gone, between, repeated⟩ :=
            ingestFacts_ok (soundAfter.keyed _) (Transaction.run_of_execute second)
          exact ingested.repeated sound repeats repeated
    · intro repeated later second
      obtain ⟨added, tombs, gone, between, repeated⟩ :=
        ingestFacts_ok (soundAfter.keyed _) (Transaction.run_of_execute second)
      exact ⟨added, ingested.repeated_events repeats repeated⟩

end Runs

def worksAtHash : String := "bb191b3a2831221031410883d5ab669a69c310239205a4afef8b00e5f9ceb6af"

/-- A public catalog whose companies are found by their domain. -/
def marketWorld : World where
  catalog := {
    entities := [⟨7, "market", false, "company", [("domain", "bolt.new")]⟩]
    relationshipTypes := [{
      id := 3
      slug := "works_at"
      organizationId := "market"
      metadata := .declared ⟨[⟨"hosted_domain", "domain", .oauth_verified, .unique_only, none⟩],
        1, worksAtHash⟩ }]
    publicOrganizations := ["market"]
    identityFields := fun _ => ["domain"] }
  registry := [⟨"google", [⟨"email", .oauth_verified⟩, ⟨"hosted_domain", .oauth_verified⟩]⟩]
  ruleHashFor := fun _ => worksAtHash

def hostedDomain (providerStableId sourceAccountId : String) : ConnectorFact where
  namespace_ := "hosted_domain"
  identifier := "bolt.new"
  normalizedValue := "bolt.new"
  assurance := .oauth_verified
  providerStableId
  sourceAccountId

def signIn : IngestCall where
  world := marketWorld
  params := {
    tenantOrganizationId := "tenant"
    memberEntityId := 5
    userId := "user"
    accountIdentity := { connectorKey := "google", providerStableId := "sub", sourceAccountId := "row" }
    facts := [hostedDomain "sub" "row"] }

/-- The tables without a row. -/
def Database.initial : Database where
  events :=
    { rows := []
      nextId := 1
      ids := List.nodup_nil
      fresh := fun _ member => absurd member List.not_mem_nil
      positive := Nat.one_pos
      earlier := fun _ member => absurd member List.not_mem_nil
      superseded := List.nodup_nil }
  relationships := []
  nextRelationshipId := 1

theorem Begins.empty : Begins Database.initial where
  events _ member := absurd member List.not_mem_nil
  relationships _ member := absurd member List.not_mem_nil

theorem signIn_answers : ∃ before after, ingests.Reachable unrestricted before ∧
    Session.Answers ingestFacts before after signIn (.ok { factEventIds := [1], derivedRelationshipIds := [1] }) ∧
    after.committed = ((ingestFacts signIn).execute Database.initial).2 := by
  have answer : ((ingestFacts signIn).execute Database.initial).1 =
      .ok { factEventIds := [1], derivedRelationshipIds := [1] } := by decide +kernel
  have executed : (ingestFacts signIn).execute Database.initial =
      (.ok { factEventIds := [1], derivedRelationshipIds := [1] },
        ((ingestFacts signIn).execute Database.initial).2) := Prod.ext answer rfl
  obtain ⟨session, run, answered⟩ := Session.later_execute Begins executed
  have start : ingests.Reachable unrestricted ⟨Database.initial, none⟩ := .start ⟨Begins.empty, rfl⟩
  exact ⟨session, _, start.later run, answered, rfl⟩

theorem facts_reconciled_sign_in : ∃ after : Session IngestCall Database IngestFailure IngestResult,
    after.committed.facts signIn.account = [(hostedDomain "sub" "row").factMetadata] := by
  obtain ⟨before, after, reached, answered, _⟩ := signIn_answers
  exact ⟨after, ((facts_reconciled reached answered).2.2 _ rfl).1⟩

/-- The same batch again writes its fact and its relationship a second time. -/
theorem reingestion_writes_again : ¬ ∀ before after call result, ingests.Reachable unrestricted before →
    Session.Answers ingestFacts before after call (.ok result) →
    ((ingestFacts call).execute after.committed).2 = after.committed := by
  intro unchanged
  obtain ⟨before, after, reached, answered, committed⟩ := signIn_answers
  have same := unchanged before after signIn _ reached answered
  rw [committed] at same
  have lengths := congrArg (fun database => database.relationships.length) same
  revert lengths
  decide +kernel

end Lobu.Identity
