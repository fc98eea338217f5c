import Lobu.Identity.Reconciliation

namespace Lobu.Identity

open Lobu.Foundation

/-! # Facts and the relationships they support

A live derivation names one fact event as its source.  Over runs of passes of any accounts: when
that source is still current, and when every fact that asks for a relationship has it.
-/

/-- Calls that commit or are rolled back, one after another. -/
def passes : Machine Database IngestCall where
  starts := Begins
  step database call := some ((ingestFacts call).execute database).2

section Steps

variable {call : IngestCall} {before after diff : Database} {rows more : List EventRow}
variable {superseded : List Nat} {result : IngestResult}

theorem ingested_of_execute (sound : before.Sound) (moved : ((ingestFacts call).execute before).2 = after) :
    after = before ∨ ∃ rows more superseded diff, Ingested call before after rows more superseded diff := by
  cases ran : (ingestFacts call).execute before with
  | mk outcome later =>
    rw [ran] at moved
    subst moved
    cases outcome with
    | error failure => exact .inl (Transaction.rows_of_execute ran)
    | ok result => exact .inr (ingestFacts_ok (sound.keyed _) (Transaction.run_of_execute ran))

theorem Database.Sound.execute (sound : before.Sound)
    (moved : ((ingestFacts call).execute before).2 = after) : after.Sound := by
  rcases ingested_of_execute sound moved with rfl | ⟨rows, more, superseded, diff, ingested⟩
  · exact sound
  · exact ingested.sound sound

theorem sound_of_passes {database : Database} {allowed : Discipline Database IngestCall}
    (reached : passes.Reachable allowed database) : database.Sound := by
  apply reached.invariant
  · intro database begins
    exact Begins.sound begins
  · intro before call after _ sound _ moved
    exact sound.execute (Option.some.inj moved)

section

variable (ingested : Ingested call before after rows more superseded diff)
include ingested

theorem Ingested.row_fact {event : EventRow} (written : event ∈ rows) :
    ∃ fact ∈ call.facts, event.factOf call.account = some fact.factMetadata := by
  have shape := List.mem_map_of_mem (f := EventRow.unnumbered) written
  rw [ingested.diffed.written] at shape
  obtain ⟨fact, given, same⟩ := List.mem_map.mp shape
  have sound := (checkFacts_ok ingested.checked).1 fact given
  refine ⟨fact, given, ?_⟩
  rw [← factOf_unnumbered, ← same]
  exact factOf_factRow sound.2 sound.1

theorem Ingested.current_kept
    {event : EventRow} (current : event ∈ diff.events.currentRecords) : event ∈ after.events.currentRecords := by
  cases shadow : call.params.shadow with
  | true =>
    rw [ingested.shadow shadow]
    exact current
  | false =>
    obtain ⟨revoked, revokes, derives⟩ := ingested.live shadow
    obtain ⟨added, same, _⟩ := derives.current
    rw [same, revokes.events]
    exact List.mem_append_left _ current

theorem Ingested.unsuperseded {event : EventRow} (current : event ∈ before.events.currentRecords)
    (kept : event.id ∉ superseded) : event ∈ after.events.currentRecords := by
  apply ingested.current_kept
  rw [ingested.diffed.current]
  exact List.mem_append_left _ (List.mem_filter.mpr ⟨current, by simpa using kept⟩)

end

end Steps

/-- The event that the row was derived from is a current fact, and a rule that was read when the
row was derived makes the row of that fact. -/
def IsBacked (reads : World → Prop) (database : Database) (row : RelationshipRow)
    (provenance : DerivedFromProvenance) : Prop :=
  ∃ event ∈ database.events.currentRecords, event.id = provenance.sourceEventId ∧
    ∃ account fact, event.factOf account = some (ConnectorFact.factMetadata fact) ∧
      ∃ world params, reads world ∧ DerivedFrom world params event.id fact row

/-- A batch in shadow mode supersedes no source of a live derivation. -/
def SparesSources (database : Database) (call : IngestCall) : Prop :=
  call.params.shadow = true → ∀ row ∈ database.relationships, row.deleted = false →
    ∀ provenance ∈ row.derivedFrom, ∀ event ∈ database.events.currentRecords,
      event.id = provenance.sourceEventId → event.factOf call.account = none

theorem Ingested.backed {reads : World → Prop} {call : IngestCall} {before after diff : Database}
    {rows more : List EventRow} {superseded : List Nat}
    (ingested : Ingested call before after rows more superseded diff) (read : reads call.world)
    (spares : SparesSources before call) (backed : ∀ row ∈ before.relationships, row.deleted = false →
      ∀ provenance ∈ row.derivedFrom, IsBacked reads before row provenance)
    {row : RelationshipRow} (member : row ∈ after.relationships) (live : row.deleted = false)
    {provenance : DerivedFromProvenance} (derived : provenance ∈ row.derivedFrom) :
    IsBacked reads after row provenance := by
  rcases ingested.live_cases member live with ⟨present, unrevoked⟩ | ⟨_, _, new⟩
  · obtain ⟨event, current, numbered, account, fact, isFact, rest⟩ :=
      backed row present live provenance derived
    refine ⟨event, ingested.unsuperseded current ?_, numbered, account, fact, isFact, rest⟩
    intro gone
    cases shadow : call.params.shadow with
    | false =>
      have kept := unrevoked shadow event.id gone
      rw [Option.mem_def] at derived
      simp [isDerivedFrom, live, derived, numbered] at kept
    | true =>
      have spared := spares shadow row present live provenance derived event current numbered
      obtain ⟨_, metadata, mine⟩ := ingested.diffed.superseded_fact (EventTable.mem_currentRecords.mp current).1 gone
      rw [spared] at mine
      contradiction
  · obtain ⟨fact, given, event, written, metadata, ruleSet, loaded, rule, listed, byRule⟩ := new
    obtain ⟨other, _, isFact⟩ := ingested.row_fact written
    have same : other.factMetadata = fact.factMetadata := by
      have held := metadata_of_factOf isFact
      rw [metadata] at held
      exact (EventMetadata.fact.inj held).symm
    rw [same] at isFact
    have current : event ∈ after.events.currentRecords := by
      apply ingested.current_kept
      rw [ingested.diffed.current]
      exact List.mem_append_right _ (List.mem_append_left _ written)
    rw [byRule.provenance] at derived
    cases derived
    exact ⟨event, current, rfl, call.account, fact, isFact, call.world, call.params, read,
      ruleSet, loaded, rule, listed, byRule⟩

/-- Over runs in which no batch in shadow mode supersedes the source of a live derivation, every
live derivation is backed by its source. -/
theorem derivations_backed (reads : World → Prop) {database : Database}
    (reached : passes.Reachable (fun database call =>
      reads call.world ∧ SparesSources database call) database) :
    ∀ row ∈ database.relationships, row.deleted = false → ∀ provenance ∈ row.derivedFrom,
      IsBacked reads database row provenance := by
  let property (database : Database) : Prop := ∀ row ∈ database.relationships,
    row.deleted = false → ∀ provenance ∈ row.derivedFrom, IsBacked reads database row provenance
  change property database
  apply reached.invariant
  · intro database begins row member _ provenance derived
    rw [Begins.relationships begins row member] at derived
    contradiction
  · intro before call after earlier backed permitted moved
    rcases ingested_of_execute (sound_of_passes earlier) (Option.some.inj moved) with
      rfl | ⟨rows, more, superseded, diff, ingested⟩
    · exact backed
    · intro row member live provenance derived
      exact ingested.backed permitted.1 permitted.2 backed member live derived

/-- The account of a sign-in has nothing to say any more. -/
def withdrawn (call : IngestCall) (shadow : Bool) : IngestCall :=
  { call with params := { call.params with facts := [], shadow } }

def afterCalls (calls : List IngestCall) : Database :=
  calls.foldl (fun database call => ((ingestFacts call).execute database).2) Database.initial

theorem reachable_afterCalls {allowed : Discipline Database IngestCall} (calls : List IngestCall)
    (permitted : ∀ earlier call, earlier ++ [call] <+: calls → allowed (afterCalls earlier) call) :
    passes.Reachable allowed (afterCalls calls) := by
  induction calls using List.reverseRecOn with
  | nil => exact .start Begins.empty
  | append_singleton calls call ih =>
    have before := ih fun earlier next listed =>
      permitted earlier next (listed.trans (List.prefix_append _ _))
    rw [afterCalls, List.foldl_append]
    exact .step before (permitted calls call (List.prefix_refl _)) rfl

theorem derivations_backed_sign_in : ∃ row ∈ (afterCalls [signIn]).relationships, ∃ provenance ∈ row.derivedFrom,
      IsBacked (fun world => world.catalog = marketWorld.catalog) (afterCalls [signIn]) row provenance := by
  have reached : passes.Reachable (fun database call =>
      call.world.catalog = marketWorld.catalog ∧ SparesSources database call)
      (afterCalls [signIn]) := by
    apply reachable_afterCalls
    intro earlier call listed
    obtain ⟨rfl, rfl⟩ : earlier = [] ∧ call = signIn := by
      obtain ⟨rest, same⟩ := listed
      cases earlier <;> simp_all
    exact ⟨rfl, fun shadow => absurd shadow (by decide)⟩
  have derived : (afterCalls [signIn]).relationships.any (fun row =>
      !row.deleted && row.derivedFrom.isSome) = true := by decide +kernel
  obtain ⟨row, member, holds⟩ := List.any_eq_true.mp derived
  rw [Bool.and_eq_true, Bool.not_eq_true', Option.isSome_iff_exists] at holds
  obtain ⟨live, provenance, source⟩ := holds
  exact ⟨row, member, provenance, source, derivations_backed _ reached row member live provenance source⟩

/-- Superseded in shadow mode, the source of a derivation is gone and the derivation stays. -/
theorem stale_after_shadow : ¬ ∀ database, passes.Reachable unrestricted database →
    ∀ row ∈ database.relationships, row.deleted = false → ∀ provenance ∈ row.derivedFrom,
      IsBacked (fun _ => True) database row provenance := by
  intro backed
  have reached : passes.Reachable unrestricted (afterCalls [signIn, withdrawn signIn true]) :=
    reachable_afterCalls _ fun _ _ _ => trivial
  have derived : (afterCalls [signIn, withdrawn signIn true]).relationships.any (fun row =>
      !row.deleted && row.derivedFrom.any fun provenance =>
        decide (provenance.sourceEventId = 1)) = true := by decide +kernel
  have gone : (afterCalls [signIn, withdrawn signIn true]).events.currentRecords.all (fun event =>
      decide (event.id ≠ 1)) = true := by decide +kernel
  obtain ⟨row, member, holds⟩ := List.any_eq_true.mp derived
  rw [Bool.and_eq_true, Bool.not_eq_true', Option.any_eq_true] at holds
  obtain ⟨live, provenance, source, first⟩ := holds
  obtain ⟨event, current, numbered, _⟩ := backed _ reached row member live provenance source
  have other := List.all_eq_true.mp gone event current
  simp only [decide_eq_true_eq] at first other
  exact other (numbered.trans first)

/-- The tables and the clock, which no call finds set back. -/
structure Timeline where
  database : Database
  now : Int

def Timeline.step (timeline : Timeline) (call : IngestCall) : Option Timeline :=
  if call.world.now < timeline.now then none
  else some ⟨((ingestFacts call).execute timeline.database).2, call.world.now⟩

def timelines : Machine Timeline IngestCall where
  starts timeline := Begins timeline.database
  step := Timeline.step

section Principals

/-- One catalog, and one entity for the principal of all accounts. -/
structure Principal where
  memberEntityId : Nat
  world : World

variable {principal : Principal} {timeline later : Timeline} {call : IngestCall}
variable {fact : ConnectorFact} {triple : Triple}

def Principal.worldAt (principal : Principal) (now : Int) : World :=
  { principal.world with now }

/-- The relationships that the rules make of a fact at this time. -/
def Principal.asks (principal : Principal) (now : Int) (fact : ConnectorFact) : List Triple :=
  factTriples (principal.worldAt now) principal.memberEntityId fact

/-- A live ingestion for one of the accounts of the principal. -/
structure Principal.Calls (principal : Principal) (call : IngestCall) : Prop where
  member : call.params.memberEntityId = principal.memberEntityId
  live : call.params.shadow = false
  catalog : call.world.catalog = principal.world.catalog
  ruleHashFor : call.world.ruleHashFor = principal.world.ruleHashFor
  parseDate : call.world.parseDate = principal.world.parseDate

/-- Every current fact has the relationships that it asks for. -/
def Complete (principal : Principal) (timeline : Timeline) : Prop :=
  ∀ account fact, ConnectorFact.factMetadata fact ∈ timeline.database.facts account →
    ∀ triple ∈ principal.asks timeline.now fact, timeline.database.Live triple

/-- What the account's current facts are the source of, its batch asks for again, or no current
fact of another account asks for it. -/
def KeepsSupport (principal : Principal) (timeline : Timeline) (call : IngestCall) : Prop :=
  ∀ row ∈ timeline.database.relationships, row.deleted = false →
    ∀ provenance ∈ row.derivedFrom, ∀ event ∈ timeline.database.events.currentRecords,
      event.id = provenance.sourceEventId → event.factOf call.account ≠ none →
        (∃ fact ∈ call.facts, row.triple ∈ principal.asks call.world.now fact) ∨
          ∀ other, other ≠ call.account → ∀ fact,
            ConnectorFact.factMetadata fact ∈ timeline.database.facts other →
              row.triple ∉ principal.asks call.world.now fact

theorem factMetadata_injective : Function.Injective ConnectorFact.factMetadata := by
  intro first second same
  cases first
  cases second
  simpa [ConnectorFact.factMetadata] using same

theorem factTriples_of_same {first second : World} {memberEntityId : Nat}
    (catalog : first.catalog = second.catalog) (ruleHashFor : first.ruleHashFor = second.ruleHashFor)
    (expired : isExpired first fact = isExpired second fact) :
    factTriples first memberEntityId fact = factTriples second memberEntityId fact := by
  have found : validMatches first memberEntityId = validMatches second memberEntityId := by
    unfold validMatches
    rw [catalog]
  have applies : ruleApplies first fact = ruleApplies second fact := by
    unfold ruleApplies
    rw [expired]
  have same : ∀ ruleSet, ruleTriples first memberEntityId fact ruleSet =
      ruleTriples second memberEntityId fact ruleSet := by
    intro ruleSet
    unfold ruleTriples
    rw [found, applies]
  simp only [factTriples, catalog, ruleHashFor, same]

theorem Principal.Calls.triples (calls : principal.Calls call) (fact : ConnectorFact) :
    factTriples call.world call.params.memberEntityId fact = principal.asks call.world.now fact := by
  rw [Principal.asks, calls.member]
  refine factTriples_of_same calls.catalog calls.ruleHashFor ?_
  unfold isExpired Principal.worldAt
  rw [calls.parseDate]

theorem mem_batchTriples (calls : principal.Calls call) : triple ∈ batchTriples call ↔
    ∃ fact ∈ call.facts, triple ∈ principal.asks call.world.now fact := by
  simp only [batchTriples, List.mem_flatMap, calls.triples]

theorem Principal.asks_earlier {earlier now : Int} (asked : triple ∈ principal.asks now fact)
    (order : earlier ≤ now) : triple ∈ principal.asks earlier fact := by
  have same : isExpired (principal.worldAt earlier) fact = false ∨ isExpired (principal.worldAt now) fact = true := by
    unfold isExpired Principal.worldAt
    cases fact.validTo.bind principal.world.parseDate with
    | none => exact .inl rfl
    | some expiresAt =>
      simp only [Option.any_some, decide_eq_true_eq, decide_eq_false_iff_not]
      omega
  cases expired : isExpired (principal.worldAt now) fact with
  | true =>
    have idle : ∀ rule, ruleApplies (principal.worldAt now) fact rule = false := by
      intro rule
      simp [ruleApplies, expired]
    simp [Principal.asks, factTriples, ruleTriples, idle] at asked
  | false =>
    have fresh := same.resolve_right (by simp [expired])
    have equal : principal.asks earlier fact = principal.asks now fact :=
      factTriples_of_same rfl rfl (by rw [fresh, expired])
    rw [equal]
    exact asked

theorem Complete.step (calls : principal.Calls call) (keeps : KeepsSupport principal timeline call)
    (sound : timeline.database.Sound) (complete : Complete principal timeline)
    (moved : timeline.step call = some later) : Complete principal later := by
  unfold Timeline.step at moved
  split at moved
  · contradiction
  · rename_i order
    cases moved
    intro account fact current triple asked
    have asks : ∀ triple ∈ principal.asks call.world.now fact, triple ∈ principal.asks timeline.now fact :=
      fun triple asked => Principal.asks_earlier asked (Int.not_lt.mp order)
    rcases ingested_of_execute sound rfl with same | ⟨rows, more, superseded, diff, ingested⟩
    · simp only at current ⊢
      rw [same] at current ⊢
      exact complete account fact current triple (asks triple asked)
    · simp only at current asked ⊢
      rw [ingested.live_iff calls.live, mem_batchTriples calls]
      by_cases mine : account = call.account
      · subst mine
        rw [ingested.facts] at current
        obtain ⟨given, listed, same⟩ := List.mem_map.mp current
        rw [factMetadata_injective same] at listed
        exact .inr ⟨fact, listed, asked⟩
      · rw [ingested.other_facts mine] at current
        obtain ⟨row, present, holds⟩ := complete account fact current triple (asks triple asked)
        by_cases kept : ∀ id ∈ superseded, isDerivedFrom id row = false
        · exact .inl ⟨row, present, holds, kept⟩
        · right
          simp only [not_forall, Bool.not_eq_false] at kept
          obtain ⟨id, gone, derived⟩ := kept
          simp only [isDerivedFrom, Bool.and_eq_true, Bool.not_eq_true'] at derived
          obtain ⟨live, source⟩ := derived
          obtain ⟨provenance, recorded, same⟩ := (Option.any_eq_true ..).mp source
          rw [decide_eq_true_eq] at same
          obtain ⟨prior, listed, numbered⟩ := ingested.diffed.prior id gone
          obtain ⟨event, held, stored, metadata, isFact⟩ := mem_loadPriorFacts listed
          simp only [liveWith, Bool.and_eq_true, decide_eq_true_eq] at holds
          rw [← holds.2]
          rcases keeps row present live provenance recorded event held
            (stored.trans (numbered.trans same.symm)) (by rw [isFact]; simp) with again | unsupported
          · exact again
          · rw [← holds.2] at asked
            exact absurd asked (unsupported account mine fact current)

/-- Over runs of live ingestions for the accounts of one principal that keep what other accounts
support, every current fact has its relationships. -/
theorem relationships_complete (principal : Principal)
    (reached : timelines.Reachable (fun timeline call =>
      principal.Calls call ∧ KeepsSupport principal timeline call) timeline) :
    Complete principal timeline := by
  have both : Complete principal timeline ∧ timeline.database.Sound := by
    apply reached.invariant
    · intro timeline begins
      refine ⟨?_, Begins.sound begins⟩
      intro account fact current
      rw [Begins.facts begins] at current
      contradiction
    · intro before call after _ held permitted moved
      refine ⟨held.1.step permitted.1 permitted.2 held.2 moved, ?_⟩
      have stepped : before.step call = some after := moved
      unfold Timeline.step at stepped
      split at stepped
      · contradiction
      · cases stepped
        exact held.2.execute rfl
  exact both.1

end Principals

/-- The same principal signs in with another account of the same domain. -/
def otherSignIn : IngestCall :=
  { signIn with
    params := { signIn.params with
      accountIdentity :=
        { connectorKey := "google", providerStableId := "other", sourceAccountId := "second" }
      facts := [hostedDomain "other" "second"] } }

def signInPrincipal : Principal := ⟨5, marketWorld⟩

theorem timelines_afterCalls {allowed : Discipline Timeline IngestCall} (calls : List IngestCall)
    (still : ∀ call ∈ calls, call.world.now = 0) (permitted : ∀ earlier call, earlier ++ [call] <+: calls →
      allowed ⟨afterCalls earlier, 0⟩ call) : timelines.Reachable allowed ⟨afterCalls calls, 0⟩ := by
  induction calls using List.reverseRecOn with
  | nil => exact .start Begins.empty
  | append_singleton calls call ih =>
    have before := ih (fun earlier member => still earlier (List.mem_append_left _ member))
      fun earlier next listed => permitted earlier next (listed.trans (List.prefix_append _ _))
    have now := still call (List.mem_append_right _ List.mem_cons_self)
    refine .step before (permitted calls call (List.prefix_refl _)) ?_
    change Timeline.step _ call = _
    rw [Timeline.step, now, if_neg (Int.lt_irrefl 0), afterCalls, afterCalls, List.foldl_append]
    rfl

theorem signIn_calls : signInPrincipal.Calls signIn := ⟨rfl, rfl, rfl, rfl, rfl⟩

theorem relationships_complete_sign_in : Complete signInPrincipal ⟨afterCalls [signIn], 0⟩ := by
  refine relationships_complete signInPrincipal (timelines_afterCalls [signIn] (by decide) ?_)
  intro earlier call listed
  obtain ⟨rfl, rfl⟩ : earlier = [] ∧ call = signIn := by
    obtain ⟨rest, same⟩ := listed
    cases earlier <;> simp_all
  exact ⟨signIn_calls, fun row member => absurd member List.not_mem_nil⟩

/-- The account that came first goes, and with it the relationship that the other supports. -/
theorem support_withdrawn : ¬ ∀ timeline, timelines.Reachable (fun _ call => signInPrincipal.Calls call) timeline →
      Complete signInPrincipal timeline := by
  intro complete
  have reached : timelines.Reachable (fun _ call => signInPrincipal.Calls call)
      ⟨afterCalls [signIn, otherSignIn, withdrawn signIn false], 0⟩ := by
    refine timelines_afterCalls _ (by decide) ?_
    intro earlier call listed
    have member : call ∈ [signIn, otherSignIn, withdrawn signIn false] :=
      listed.subset (by simp)
    simp only [List.mem_cons, List.not_mem_nil, or_false] at member
    rcases member with rfl | rfl | rfl <;> exact ⟨rfl, rfl, rfl, rfl, rfl⟩
  have current : (hostedDomain "other" "second").factMetadata ∈
      (afterCalls [signIn, otherSignIn, withdrawn signIn false]).facts otherSignIn.account := by
    decide +kernel
  have asked : (5, 7, 3) ∈ signInPrincipal.asks 0 (hostedDomain "other" "second") := by
    decide +kernel
  obtain ⟨row, member, holds⟩ := complete _ reached _ _ current _ asked
  have gone : (afterCalls [signIn, otherSignIn, withdrawn signIn false]).relationships.all
      (fun row => !liveWith (5, 7, 3) row) = true := by decide +kernel
  have dead := List.all_eq_true.mp gone row member
  rw [holds] at dead
  contradiction

end Lobu.Identity
