import Lobu.Identity.Derivations

namespace Lobu.Identity

open Lobu.Foundation

/-! # Whole passes

What a call that commits has done, put together from the diff, the revocations and the
derivations, and what every pass keeps of the tables.
-/

section Revocations

variable {world : World} {params : IngestParams} {ids : List Nat} {before after : Database}
variable {result final : IngestResult} {row : RelationshipRow}

/-- The relationships that are still live are those of before that came from no such event. -/
structure Revokes (ids : List Nat) (before after : Database) : Prop where
  events : after.events = before.events
  live : ∀ row : RelationshipRow, row.deleted = false →
    (row ∈ after.relationships ↔
      row ∈ before.relationships ∧ ∀ id ∈ ids, isDerivedFrom id row = false)

theorem revokeSuperseded_ok {id : Nat}
    (ran : (revokeSuperseded world params result id).run before = .ok (final, after)) :
    Revokes [id] before after := by
  simp only [revokeSuperseded, revokeDerivationsForEvent, Transaction.run_bind, Transaction.run_attempt] at ran
  cases ran
  refine ⟨rfl, ?_⟩
  intro row live
  simp only [RowUpdate.mem_run, List.mem_singleton, forall_eq]
  constructor
  · rintro ⟨present, member, same⟩
    cases selected : isDerivedFrom id present with
    | true =>
      rw [RowUpdate.onRow_selected (by exact selected)] at same
      subst same
      contradiction
    | false =>
      rw [RowUpdate.onRow_skipped (by exact selected)] at same
      subst same
      exact ⟨member, selected⟩
  · rintro ⟨member, other⟩
    exact ⟨row, member, RowUpdate.onRow_skipped (by exact other)⟩

theorem revokeSupersededs_ok
    (ran : (ids.foldlM (revokeSuperseded world params) result).run before = .ok (final, after)) :
    Revokes ids before after := by
  refine Transaction.run_foldlM_ok (fun done _ later => Revokes done before later) ⟨rfl, by simp⟩ ?_ ran
  intro done id result between next later _ held passed
  have step := revokeSuperseded_ok passed
  refine ⟨step.events.trans held.events, ?_⟩
  intro row live
  rw [step.live row live, held.live row live, List.forall_mem_append, and_assoc]

end Revocations

abbrev IngestCall.facts (call : IngestCall) : List ConnectorFact := call.params.facts

def batchTriples (call : IngestCall) : List Triple :=
  call.facts.flatMap (factTriples call.world call.params.memberEntityId)

def batchCollisions (call : IngestCall) : List CollisionKey :=
  call.facts.flatMap (factCollisions call.world call.params)

/-- The row was derived from an event that was written for one of the facts. -/
def DerivedFor (call : IngestCall) (rows : List EventRow) (row : RelationshipRow) : Prop :=
  ∃ fact ∈ call.facts, ∃ event ∈ rows, event.metadata = .fact fact.factMetadata ∧
    DerivedFrom call.world call.params event.id fact row

/-- The events that the diff of a batch wrote. -/
def isFresh (before diff : Database) (eventId : Nat) : Prop :=
  before.events.nextId ≤ eventId ∧ eventId < diff.events.nextId

/-- A pass that committed. -/
structure Ingested (call : IngestCall) (before after : Database) (rows more : List EventRow)
    (superseded : List Nat) (diff : Database) : Prop where
  checked : checkFacts call.world call.params.accountIdentity [] call.facts = .ok ()
  diffed : Diffed call.params before diff rows more superseded
  shadow : call.params.shadow = true → after = diff
  live : call.params.shadow = false → ∃ revoked, Revokes superseded diff revoked ∧
    Derives (DerivedFor call rows) revoked after (batchTriples call) (batchCollisions call)

section Passes

variable {call : IngestCall} {before after diff : Database} {result : IngestResult}
variable {rows more : List EventRow} {superseded : List Nat}

theorem ingestFacts_ok (keyed : before.Keyed call.account)
    (ran : (ingestFacts call).run before = .ok (result, after)) :
    ∃ rows more superseded diff, Ingested call before after rows more superseded diff := by
  simp only [ingestFacts, ingestFactsLocked, Transaction.run_bind_ok] at ran
  obtain ⟨_, start, checks, priors, _, read, persisted, between, persists, entries, diff, tombs, ended⟩ := ran
  obtain ⟨checked, rfl⟩ := Transaction.ofExcept_ok checks
  cases read
  obtain ⟨rows, persists⟩ := persistFacts_ok persists
  obtain ⟨more, tombstones⟩ := tombstones_ok tombs
  have diffed := diffed keyed checked persists tombstones
  refine ⟨rows, more, entries.supersededEventIds, diff, checked, diffed, ?_, ?_⟩
  · intro shadow
    rw [if_pos shadow] at ended
    cases ended
    rfl
  · intro live
    rw [if_neg (by simp [live])] at ended
    rw [Transaction.run_bind_ok] at ended
    obtain ⟨revoked, later, revokes, derives⟩ := ended
    refine ⟨later, revokeSupersededs_ok revokes, ?_⟩
    refine Derives.loop _ _ (fun fact member result database next later passed => ?_) derives
    obtain ⟨entry, known⟩ := Option.isSome_iff_exists.mp ((persists.incoming fact.priorKey).mpr ⟨fact, member, rfl⟩)
    obtain ⟨event, written, numbered, given, listed, key, metadata⟩ :=
      persists.numbered _ _ known
    have same : given = fact :=
      List.inj_on_of_nodup_map (checkFacts_ok checked).2.1 listed member key
    subst same
    have positive : 1 ≤ entry.eventId := by
      rw [← numbered]
      exact Nat.le_trans start.events.positive (persists.appends.fresh event written)
    exact (applyRules_ok known positive passed).weaken fun row derived =>
      ⟨given, member, event, written, metadata, by rw [numbered]; exact derived⟩

theorem DerivedFor.fresh (diffed : Diffed call.params before diff rows more superseded)
    {row : RelationshipRow} (derived : DerivedFor call rows row) :
    ∃ provenance, row.derivedFrom = some provenance ∧ isFresh before diff provenance.sourceEventId := by
  obtain ⟨fact, _, event, written, _, ruleSet, _, rule, _, byRule⟩ := derived
  have member : event ∈ rows ++ more := List.mem_append_left _ written
  have stored : event ∈ diff.events.rows := by
    rw [diffed.appends.appended]
    exact List.mem_append_right _ member
  exact ⟨_, byRule.provenance, diffed.appends.fresh event member, diff.events.fresh event stored⟩

theorem Ingested.facts (ingested : Ingested call before after rows more superseded diff) :
    after.facts call.account = call.facts.map ConnectorFact.factMetadata := by
  cases shadow : call.params.shadow with
  | true =>
    rw [ingested.shadow shadow]
    exact ingested.diffed.facts
  | false =>
    obtain ⟨revoked, revokes, derives⟩ := ingested.live shadow
    rw [derives.facts, Database.facts, revokes.events]
    exact ingested.diffed.facts

theorem filterMap_of_none {α β : Type} {items : List α} {column : α → Option β} {keep : α → Bool}
    (dropped : ∀ item ∈ items, keep item = false → column item = none) :
    (items.filter keep).filterMap column = items.filterMap column := by
  rw [List.filterMap_filter]
  apply List.filterMap_congr
  intro item member
  split
  · rfl
  · rename_i gone
    exact (dropped item member (by simpa using gone)).symm

theorem factOf_other {account other : Account} {row : EventRow} {metadata : FactEventMetadata}
    (fact : row.factOf account = some metadata) (different : other ≠ account) : row.factOf other = none := by
  unfold EventRow.factOf at fact ⊢
  split at fact
  · contradiction
  · rename_i held
    split at fact
    · rename_i mine
      simp only [ite_eq_right_iff, reduceCtorEq, imp_false]
      rintro ⟨connector, provider, _⟩
      apply different
      have key : other.connectorKey = account.connectorKey := by
        rw [connector] at mine
        exact Option.some.inj mine.1
      have stable : other.providerStableId = account.providerStableId := by
        rw [← provider, mine.2.1]
      cases other
      cases account
      simp only at key stable
      rw [key, stable]
    · contradiction

theorem Diffed.superseded_fact (diffed : Diffed call.params before diff rows more superseded)
    {row : EventRow} (member : row ∈ before.events.rows) (gone : row.id ∈ superseded) :
    row ∈ before.events.currentRecords ∧ ∃ metadata, row.factOf call.account = some metadata := by
  obtain ⟨prior, listed, same⟩ := diffed.prior row.id gone
  obtain ⟨stored, current, numbered, metadata, fact⟩ := mem_loadPriorFacts listed
  have equal := EventTable.eq_of_id (EventTable.mem_currentRecords.mp current).1 member (numbered.trans same)
  rw [equal] at current fact
  exact ⟨current, metadata, fact⟩

theorem Diffed.other_facts (diffed : Diffed call.params before diff rows more superseded)
    (checked : checkFacts call.world call.params.accountIdentity [] call.facts = .ok ())
    {other : Account} (different : other ≠ call.account) : diff.facts other = before.facts other := by
  have written : rows.filterMap (EventRow.factOf other) = [] := by
    rw [← filterMap_unnumbered _ (fun _ => factOf_unnumbered), diffed.written, List.filterMap_eq_nil_iff]
    intro row member
    obtain ⟨fact, given, rfl⟩ := List.mem_map.mp member
    have sound := (checkFacts_ok checked).1 fact given
    exact factOf_other (factOf_factRow sound.2 sound.1) different
  have tombstones : more.filterMap (EventRow.factOf other) = [] := by
    rw [List.filterMap_eq_nil_iff]
    intro row member
    obtain ⟨entry, _, shape, _⟩ := diffed.tombstones row member
    rw [← factOf_unnumbered, shape, factOf_tombstoneRow]
  rw [Database.facts, diffed.current, List.filterMap_append, List.filterMap_append, written,
    tombstones, List.append_nil, List.append_nil]
  apply filterMap_of_none
  intro row current gone
  simp only [decide_eq_false_iff_not, not_not] at gone
  obtain ⟨_, metadata, fact⟩ :=
    diffed.superseded_fact (EventTable.mem_currentRecords.mp current).1 gone
  exact factOf_other fact different

theorem Ingested.other_facts (ingested : Ingested call before after rows more superseded diff)
    {other : Account} (different : other ≠ call.account) : after.facts other = before.facts other := by
  have kept := ingested.diffed.other_facts ingested.checked different
  cases shadow : call.params.shadow with
  | true =>
    rw [ingested.shadow shadow]
    exact kept
  | false =>
    obtain ⟨revoked, revokes, derives⟩ := ingested.live shadow
    rw [derives.facts, Database.facts, revokes.events]
    exact kept

/-- Every account has one current fact for a key, and live derivations come from known events. -/
structure Database.Sound (database : Database) : Prop where
  keyed : ∀ account, database.Keyed account
  sources : ∀ row ∈ database.relationships, row.deleted = false →
    ∀ provenance ∈ row.derivedFrom, provenance.sourceEventId < database.events.nextId

section

variable (ingested : Ingested call before after rows more superseded diff)
include ingested

theorem Ingested.grown : before.events.nextId ≤ diff.events.nextId ∧ diff.events.nextId ≤ after.events.nextId := by
  refine ⟨ingested.diffed.appends.grown, ?_⟩
  cases shadow : call.params.shadow with
  | true => rw [ingested.shadow shadow]
  | false =>
    obtain ⟨revoked, revokes, derives⟩ := ingested.live shadow
    obtain ⟨added, appends, _⟩ := derives.events
    rw [← revokes.events]
    exact appends.grown

theorem Ingested.live_cases
    {row : RelationshipRow} (member : row ∈ after.relationships) (live : row.deleted = false) :
    (row ∈ before.relationships ∧ (call.params.shadow = false → ∀ id ∈ superseded, isDerivedFrom id row = false)) ∨
    call.params.shadow = false ∧ row.triple ∈ batchTriples call ∧ DerivedFor call rows row := by
  cases shadow : call.params.shadow with
  | true =>
    rw [ingested.shadow shadow, ingested.diffed.relationships] at member
    exact .inl ⟨member, by simp⟩
  | false =>
    obtain ⟨revoked, revokes, derives⟩ := ingested.live shadow
    obtain ⟨added, grown, new⟩ := derives.relationships
    rw [grown] at member
    rcases List.mem_append.mp member with kept | derived
    · obtain ⟨present, unrevoked⟩ := (revokes.live row live).mp kept
      rw [ingested.diffed.relationships] at present
      exact .inl ⟨present, fun _ => unrevoked⟩
    · obtain ⟨_, listed, source⟩ := new row derived
      exact .inr ⟨rfl, listed, source⟩

theorem Ingested.sound (sound : before.Sound) : after.Sound where
  keyed := by
    intro account
    unfold Database.Keyed
    by_cases mine : account = call.account
    · subst mine
      rw [ingested.facts, List.map_map]
      exact (checkFacts_ok ingested.checked).2.1
    · rw [ingested.other_facts mine]
      exact sound.keyed account
  sources := by
    intro row member live provenance derived
    have grown := ingested.grown
    rcases ingested.live_cases member live with ⟨present, _⟩ | ⟨_, _, new⟩
    · have known := sound.sources row present live provenance derived
      omega
    · obtain ⟨source, same, fresh⟩ := new.fresh ingested.diffed
      rw [same] at derived
      cases derived
      exact Nat.lt_of_lt_of_le fresh.2 grown.2

end

/-- Nothing has been ingested yet. -/
structure Begins (database : Database) : Prop where
  events : ∀ row ∈ database.events.rows, ∀ metadata, row.metadata ≠ .fact metadata
  relationships : ∀ row ∈ database.relationships, row.derivedFrom = none

theorem Begins.facts (begins : Begins before) (account : Account) : before.facts account = [] := by
  rw [Database.facts, List.filterMap_eq_nil_iff]
  intro row current
  have plain := begins.events row (EventTable.mem_currentRecords.mp current).1
  unfold EventRow.factOf
  split
  · rfl
  · rename_i metadata fact
    exact absurd fact (plain metadata)

theorem Begins.sound (begins : Begins before) : before.Sound where
  keyed := by
    intro account
    rw [Database.Keyed, begins.facts]
    exact List.nodup_nil
  sources := by
    intro row member _ provenance derived
    rw [begins.relationships row member] at derived
    contradiction

end Passes

/-- The calls of all accounts, one after another: each holds its lock until it has committed or
has been rolled back. -/
abbrev ingests : Machine (Session IngestCall Database IngestFailure IngestResult) (SessionEvent IngestCall) :=
  Session.sessions ingestFacts Begins

theorem sound_of_reachable {session : Session IngestCall Database IngestFailure IngestResult}
    {allowed : Discipline _ _} (reached : ingests.Reachable allowed session) : session.committed.Sound := by
  refine Session.committed_invariant (fun _ begins => begins.sound) ?_ reached
  intro call before result after sound ran
  obtain ⟨rows, more, superseded, diff, ingested⟩ := ingestFacts_ok (sound.keyed _) ran
  exact ingested.sound sound

end Lobu.Identity
