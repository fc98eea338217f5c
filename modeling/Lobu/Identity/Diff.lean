import Lobu.Identity.Engine

namespace Lobu.Identity

open Lobu.Foundation

/-! # The diff of a batch

Which rows an ingest pass appends to the event log, and which fact events are current once it
has persisted the batch and written the tombstones.
-/

namespace EventTable

variable {before between after : EventTable} {row : EventRow} {rows more : List EventRow}
variable {id : Nat}

/-- The log has grown by these rows. -/
structure Appends (before after : EventTable) (rows : List EventRow) : Prop where
  appended : after.rows = before.rows ++ rows
  grown : before.nextId ≤ after.nextId
  fresh : ∀ row ∈ rows, before.nextId ≤ row.id

theorem Appends.refl (table : EventTable) : table.Appends table [] where
  appended := by rw [List.append_nil]
  grown := Nat.le_refl _
  fresh := by simp

theorem Appends.trans (first : before.Appends between rows) (second : between.Appends after more) :
    before.Appends after (rows ++ more) where
  appended := by rw [second.appended, first.appended, List.append_assoc]
  grown := Nat.le_trans first.grown second.grown
  fresh := by
    intro row member
    rcases List.mem_append.mp member with earlier | later
    · exact first.fresh row earlier
    · exact Nat.le_trans first.grown (second.fresh row later)

theorem insert_ok (inserted : before.insert row = .ok (id, after)) :
    id = before.nextId ∧ before.Appends after [{ row with id }] := by
  unfold insert at inserted
  split at inserted
  · split at inserted
    · cases inserted
      refine ⟨rfl, rfl, Nat.le_succ _, ?_⟩
      intro added member
      rw [List.mem_singleton.mp member]
    · contradiction
  · contradiction

theorem isCurrent_iff : before.isCurrent row = true ↔
    ∀ newer ∈ before.rows, newer.supersedesEventId ≠ some row.id := by
  simp [isCurrent]

theorem mem_currentRecords : row ∈ before.currentRecords ↔
    row ∈ before.rows ∧ ∀ newer ∈ before.rows, newer.supersedesEventId ≠ some row.id := by
  rw [currentRecords, List.mem_filter, isCurrent_iff]

theorem Appends.currentRecords (appends : before.Appends after rows)
    (older : ∀ row ∈ rows, ∀ id ∈ row.supersedesEventId, id < before.nextId) :
    after.currentRecords =
      (before.currentRecords.filter fun row =>
        decide (row.id ∉ rows.filterMap EventRow.supersedesEventId)) ++ rows := by
  have kept : before.rows.filter after.isCurrent = before.currentRecords.filter fun row =>
      decide (row.id ∉ rows.filterMap EventRow.supersedesEventId) := by
    rw [EventTable.currentRecords, List.filter_filter]
    apply List.filter_congr
    intro row member
    rw [Bool.eq_iff_iff, isCurrent_iff, appends.appended, Bool.and_eq_true, isCurrent_iff, decide_eq_true_eq]
    simp only [List.mem_append, List.mem_filterMap, not_exists, not_and]
    exact ⟨fun all => ⟨fun newer added => all newer (.inr added), fun newer present => all newer (.inl present)⟩,
      fun both newer either => either.elim (both.2 newer) (both.1 newer)⟩
  have added : rows.filter after.isCurrent = rows := by
    rw [List.filter_eq_self]
    intro row member
    rw [isCurrent_iff, appends.appended]
    intro newer present supersedes
    have late := appends.fresh row member
    rcases List.mem_append.mp present with earlier | later
    · exact Nat.not_lt.mpr late (before.earlier newer earlier row.id supersedes)
    · exact Nat.not_lt.mpr late (older newer later row.id supersedes)
  rw [EventTable.currentRecords, appends.appended, List.filter_append, kept, added]

theorem Appends.currentRecords_of_none (appends : before.Appends after rows)
    (none_ : ∀ row ∈ rows, row.supersedesEventId = none) : after.currentRecords = before.currentRecords ++ rows := by
  have nothing : rows.filterMap EventRow.supersedesEventId = [] :=
    List.filterMap_eq_nil_iff.mpr none_
  rw [appends.currentRecords (fun row member id held => by simp [none_ row member] at held), nothing]
  simp

theorem eq_of_id {other : EventRow} (member : row ∈ before.rows) (present : other ∈ before.rows)
    (same : row.id = other.id) : row = other :=
  List.inj_on_of_nodup_map before.ids member present same

end EventTable

namespace Map

variable {α : Type} {map : List (String × α)} {key other : String} {value : α}

@[simp] theorem get?_set_self (map : List (String × α)) (key : String) (value : α) :
    get? (set map key value) key = some value := by
  rw [get?, set, find?_upsert (by simp)]
  rfl

theorem get?_set_other (different : other ≠ key) : get? (set map key value) other = get? map other := by
  rw [get?, set, find?_upsert_other _ (by simp)]
  · rfl
  · intro entry same
    simp only [decide_eq_true_eq] at same
    simp [same, Ne.symm different]

theorem set_of_absent (absent : key ∉ map.map Prod.fst) : set map key value = map ++ [(key, value)] := by
  rw [set, upsert, if_neg]
  simp only [List.any_eq_true, decide_eq_true_eq, not_exists, not_and]
  intro entry member same
  exact absent (List.mem_map.mpr ⟨entry, member, same⟩)

theorem get?_of_mem (distinct : (map.map Prod.fst).Nodup) (member : (key, value) ∈ map) :
    get? map key = some value := by
  obtain ⟨found, held⟩ := Option.isSome_iff_exists.mp (List.find?_isSome.mpr
    ⟨(key, value), member, by simp⟩ : (map.find? fun entry => decide (entry.1 = key)).isSome)
  have same : found = (key, value) := by
    apply List.inj_on_of_nodup_map distinct (List.mem_of_find?_eq_some held) member
    simpa using List.find?_some held
  rw [get?, held, same]
  rfl

theorem mem_of_get? (found : get? map key = some value) : (key, value) ∈ map := by
  rw [get?, Option.map_eq_some_iff] at found
  obtain ⟨entry, held, rfl⟩ := found
  have same := List.find?_some held
  simp only [decide_eq_true_eq] at same
  subst same
  exact List.mem_of_find?_eq_some held

end Map

section Checks

variable {world : World} {accountIdentity : AccountIdentity} {seen : List String}
variable {fact : ConnectorFact} {facts : List ConnectorFact}

theorem checkFact_ok (checked : checkFact world accountIdentity seen fact = .ok ()) :
    validateConnectorFact fact = true ∧
      fact.providerStableId = accountIdentity.providerStableId ∧ fact.priorKey ∉ seen := by
  unfold checkFact at checked
  split at checked
  · contradiction
  · rename_i valid
    split at checked
    · contradiction
    · rename_i provider
      split at checked
      · contradiction
      · split at checked
        · contradiction
        · rename_i unseen
          exact ⟨by simpa using valid, not_not.mp provider, unseen⟩

theorem checkFacts_ok (checked : checkFacts world accountIdentity seen facts = .ok ()) :
    (∀ fact ∈ facts, validateConnectorFact fact = true ∧ fact.providerStableId = accountIdentity.providerStableId) ∧
    (facts.map ConnectorFact.priorKey).Nodup ∧ ∀ fact ∈ facts, fact.priorKey ∉ seen := by
  induction facts generalizing seen with
  | nil => simp
  | cons fact facts ih =>
    rw [checkFacts, Transaction.except_bind_ok] at checked
    obtain ⟨_, first, rest⟩ := checked
    obtain ⟨valid, provider, unseen⟩ := checkFact_ok first
    obtain ⟨all, distinct, others⟩ := ih rest
    refine ⟨?_, ?_, ?_⟩
    · simp only [List.forall_mem_cons]
      exact ⟨⟨valid, provider⟩, all⟩
    · rw [List.map_cons, List.nodup_cons]
      refine ⟨?_, distinct⟩
      intro member
      obtain ⟨other, present, same⟩ := List.mem_map.mp member
      exact others other present (by rw [same]; exact List.mem_cons_self)
    · simp only [List.forall_mem_cons]
      exact ⟨unseen, fun other member seen => others other member (List.mem_cons_of_mem _ seen)⟩

theorem normalizedValue_ne_empty (valid : validateConnectorFact fact = true) : fact.normalizedValue ≠ "" := by
  simp only [validateConnectorFact, Bool.and_eq_true] at valid
  exact ne_empty_of_lengthWithin valid.1.1.1.1.2 (by decide)

end Checks

/-- A row as it is before it has its id. -/
def EventRow.unnumbered (row : EventRow) : EventRow :=
  { row with id := 0 }

def Database.facts (account : Account) (database : Database) : List FactEventMetadata :=
  database.events.currentRecords.filterMap (EventRow.factOf account)

def supersedesOf (prior : List (String × PriorFact)) (fact : ConnectorFact) : Option Nat :=
  (Map.get? prior fact.priorKey).map PriorFact.eventId

def isAbsent (incoming : List (String × IncomingFact)) (entry : String × PriorFact) : Bool :=
  (Map.get? incoming entry.1).isNone

section Rows

variable {row : EventRow} {rows : List EventRow} {account : Account}

@[simp] theorem factOf_unnumbered : row.unnumbered.factOf account = row.factOf account := rfl

@[simp] theorem supersedesEventId_unnumbered :
    row.unnumbered.supersedesEventId = row.supersedesEventId := rfl

theorem filterMap_unnumbered {β : Type} {column : EventRow → Option β} (rows : List EventRow)
    (kept : ∀ row, column row.unnumbered = column row) :
    (rows.map EventRow.unnumbered).filterMap column = rows.filterMap column := by
  rw [List.filterMap_map]
  exact List.filterMap_congr fun row _ => kept row

end Rows

section Phases

variable {params : IngestParams} {prior : List (String × PriorFact)} {start database : Database}
variable {after : Database} {fact : ConnectorFact} {facts : List ConnectorFact} {row : EventRow}
variable {persisted : Persisted} {incoming : List (String × IncomingFact)} {id : Nat}
variable {result final : IngestResult} {entries : List (String × PriorFact)}

theorem insertEvent_ok (ran : (insertEvent row).run database = .ok (id, after)) :
    database.events.Appends after.events [{ row with id }] ∧ after.relationships = database.relationships := by
  simp only [insertEvent, Transaction.run_attempt] at ran
  split at ran
  · rename_i inserted
    cases ran
    exact ⟨(EventTable.insert_ok inserted).2, rfl⟩
  · contradiction

theorem require_ok {holds : Bool} {failure : IngestFailure}
    (ran : (require holds failure).run database = .ok ((), after)) : holds = true ∧ after = database := by
  obtain ⟨given, same⟩ := Transaction.ofExcept_ok ran
  split at given
  · rename_i held
    exact ⟨held, same⟩
  · contradiction

/-- What has been done once these facts have been persisted. -/
structure PersistedFacts (params : IngestParams) (prior : List (String × PriorFact))
    (start : Database) (facts : List ConnectorFact) (persisted : Persisted)
    (database : Database) (rows : List EventRow) : Prop where
  appends : start.events.Appends database.events rows
  written : rows.map EventRow.unnumbered =
    facts.map fun fact => factRow params (supersedesOf prior fact) fact
  superseded : persisted.result.supersededEventIds = rows.filterMap EventRow.supersedesEventId
  incoming : ∀ key, (Map.get? persisted.incomingByNamespaceValue key).isSome = true ↔
    ∃ fact ∈ facts, fact.priorKey = key
  numbered : ∀ key entry, Map.get? persisted.incomingByNamespaceValue key = some entry →
    ∃ row ∈ rows, row.id = entry.eventId ∧ ∃ fact ∈ facts, fact.priorKey = key ∧
      row.metadata = .fact fact.factMetadata
  relationships : database.relationships = start.relationships

theorem PersistedFacts.step {next : Persisted} {rows : List EventRow}
    (held : PersistedFacts params prior start facts persisted database rows)
    (ran : (persistFact params prior persisted fact).run database = .ok (next, after)) :
    ∃ more, PersistedFacts params prior start (facts ++ [fact]) next after more := by
  simp only [persistFact, Transaction.run_bind_ok] at ran
  obtain ⟨_, _, valid, id, later, inserted, ended⟩ := ran
  obtain ⟨_, rfl⟩ := require_ok valid
  obtain ⟨grown, same⟩ := insertEvent_ok inserted
  cases ended
  refine ⟨_, held.appends.trans grown, ?_, ?_, ?_, ?_, ?_⟩
  · rw [List.map_append, held.written, List.map_append]
    rfl
  · rw [List.filterMap_append, held.superseded]
    congr 1
  · intro key
    by_cases same : key = fact.priorKey
    · subst same
      simp
    · rw [Map.get?_set_other same, held.incoming]
      simp [eq_comm (a := fact.priorKey), same]
  · intro key entry found
    by_cases same : key = fact.priorKey
    · subst same
      rw [Map.get?_set_self] at found
      cases found
      exact ⟨_, List.mem_append_right _ List.mem_cons_self, rfl, fact, by simp, rfl, rfl⟩
    · rw [Map.get?_set_other same] at found
      obtain ⟨row, member, numbered, given, listed, named⟩ := held.numbered key entry found
      exact ⟨row, List.mem_append_left _ member, numbered, given, List.mem_append_left _ listed, named⟩
  · rw [same, held.relationships]

theorem persistFacts_ok (ran : (facts.foldlM (persistFact params prior) {}).run database = .ok (persisted, after)) :
    ∃ rows, PersistedFacts params prior database facts persisted after rows := by
  refine Transaction.run_foldlM_ok
    (fun done persisted later => ∃ rows, PersistedFacts params prior database done persisted later rows)
    ⟨[], .refl _, rfl, rfl, by simp [Map.get?], by simp [Map.get?], rfl⟩ ?_ ran
  intro done fact persisted between next later _ held passed
  obtain ⟨rows, held⟩ := held
  exact held.step passed

/-- What has been done once these entries of `priorByKey` have been looked at. -/
structure Tombstoned (params : IngestParams) (incoming : List (String × IncomingFact))
    (start : Database) (result : IngestResult) (entries : List (String × PriorFact))
    (final : IngestResult) (database : Database) (rows : List EventRow) : Prop where
  appends : start.events.Appends database.events rows
  written : rows.map EventRow.unnumbered =
    (entries.filter (isAbsent incoming)).map fun entry => tombstoneRow params entry.2
  superseded : final.supersededEventIds =
    result.supersededEventIds ++ rows.filterMap EventRow.supersedesEventId
  relationships : database.relationships = start.relationships

theorem Tombstoned.step {entry : String × PriorFact} {next : IngestResult} {rows : List EventRow}
    (held : Tombstoned params incoming start result entries final database rows)
    (ran : (tombstoneAbsent params incoming final entry).run database = .ok (next, after)) :
    ∃ more, Tombstoned params incoming start result (entries ++ [entry]) next after more := by
  unfold tombstoneAbsent at ran
  split at ran
  · rename_i present
    cases ran
    refine ⟨rows, held.appends, ?_, held.superseded, held.relationships⟩
    rw [held.written, List.filter_append]
    simp [isAbsent, Option.isSome_iff_ne_none.mp present]
  · rename_i absent
    simp only [Transaction.run_bind_ok] at ran
    obtain ⟨_, _, valid, id, later, inserted, ended⟩ := ran
    obtain ⟨_, rfl⟩ := require_ok valid
    obtain ⟨grown, same⟩ := insertEvent_ok inserted
    cases ended
    refine ⟨_, held.appends.trans grown, ?_, ?_, by rw [same, held.relationships]⟩
    · have chosen : isAbsent incoming entry = true := by simpa [isAbsent] using absent
      rw [List.map_append, held.written, List.filter_append, List.map_append, List.filter_cons_of_pos chosen]
      rfl
    · rw [List.filterMap_append, held.superseded, List.append_assoc]
      rfl

theorem tombstones_ok (ran : (entries.foldlM (tombstoneAbsent params incoming) result).run database =
      .ok (final, after)) : ∃ rows, Tombstoned params incoming database result entries final after rows := by
  refine Transaction.run_foldlM_ok
    (fun done final later => ∃ rows, Tombstoned params incoming database result done final later rows)
    ⟨[], .refl _, rfl, by simp, rfl⟩ ?_ ran
  intro done entry final between next later _ held passed
  obtain ⟨rows, held⟩ := held
  exact held.step passed

end Phases

section Facts

variable {account : Account} {database start between after : Database} {params : IngestParams}
variable {prior : PriorFact} {priors : List PriorFact} {persisted : Persisted}
variable {result : IngestResult} {rows more : List EventRow} {world : World}

/-- The account has one current fact event for each key. -/
def Database.Keyed (account : Account) (database : Database) : Prop :=
  ((database.facts account).map FactEventMetadata.priorKey).Nodup

theorem mem_loadPriorFacts (member : prior ∈ loadPriorFacts account database) :
    ∃ row ∈ database.events.currentRecords, row.id = prior.eventId ∧
      ∃ metadata, row.factOf account = some metadata := by
  obtain ⟨row, current, found⟩ := List.mem_filterMap.mp member
  obtain ⟨metadata, fact, rfl⟩ := Option.map_eq_some_iff.mp found
  exact ⟨row, current, rfl, metadata, fact⟩

theorem loadPriorFacts_keys (account : Account) (database : Database) :
    (loadPriorFacts account database).map PriorFact.priorKey =
      (database.facts account).map FactEventMetadata.priorKey := by
  rw [loadPriorFacts, Database.facts, List.map_filterMap, List.map_filterMap]
  apply List.filterMap_congr
  intro row _
  rw [Option.map_map]
  rfl

theorem priorByKey_of_distinct (distinct : (priors.map PriorFact.priorKey).Nodup) :
    priorByKey priors = priors.map fun prior => (prior.priorKey, prior) := by
  have general : ∀ (rest done : List PriorFact), ((done ++ rest).map PriorFact.priorKey).Nodup →
      rest.foldl (fun map prior => Map.set map prior.priorKey prior)
        (done.map fun prior => (prior.priorKey, prior)) =
      (done ++ rest).map fun prior => (prior.priorKey, prior) := by
    intro rest
    induction rest with
    | nil => simp
    | cons prior rest ih =>
      intro done distinct
      have joined : done ++ prior :: rest = (done ++ [prior]) ++ rest := by simp
      rw [joined] at distinct ⊢
      rw [← ih _ distinct, List.foldl_cons, Map.set_of_absent, List.map_append]
      · rfl
      · rw [List.map_append, List.map_append, List.nodup_append] at distinct
        have earlier := distinct.1
        rw [List.nodup_append] at earlier
        intro member
        rw [List.map_map] at member
        exact earlier.2.2 _ member _ (by simp) rfl
  exact general priors [] distinct

theorem superseded_of_prior (keyed : database.Keyed account)
    (persists : PersistedFacts params (priorByKey (loadPriorFacts account database)) start
      params.facts persisted between rows)
    (tombstones : Tombstoned params persisted.incomingByNamespaceValue between persisted.result
      (priorByKey (loadPriorFacts account database)) result after more)
    (member : prior ∈ loadPriorFacts account database) :
    prior.eventId ∈ (rows ++ more).filterMap EventRow.supersedesEventId := by
  have distinct : ((loadPriorFacts account database).map PriorFact.priorKey).Nodup := by
    rw [loadPriorFacts_keys]
    exact keyed
  have entries := priorByKey_of_distinct distinct
  have entry : (prior.priorKey, prior) ∈ priorByKey (loadPriorFacts account database) := by
    rw [entries]
    exact List.mem_map.mpr ⟨prior, member, rfl⟩
  have found : Map.get? (priorByKey (loadPriorFacts account database)) prior.priorKey = some prior := by
    refine Map.get?_of_mem ?_ entry
    rw [entries, List.map_map]
    exact distinct
  rw [List.filterMap_append, List.mem_append, ← filterMap_unnumbered rows (fun _ => supersedesEventId_unnumbered),
    ← filterMap_unnumbered more (fun _ => supersedesEventId_unnumbered),
    persists.written, tombstones.written, List.mem_filterMap, List.mem_filterMap]
  by_cases present : (Map.get? persisted.incomingByNamespaceValue prior.priorKey).isSome
  · obtain ⟨fact, listed, same⟩ := (persists.incoming _).mp present
    refine .inl ⟨_, List.mem_map.mpr ⟨fact, listed, rfl⟩, ?_⟩
    simp [factRow, supersedesOf, same, found]
  · refine .inr ⟨_, List.mem_map.mpr ⟨(prior.priorKey, prior), ?_, rfl⟩, rfl⟩
    exact List.mem_filter.mpr ⟨entry, by simpa [isAbsent] using present⟩

theorem factOf_factRow {supersedes : Option Nat} {fact : ConnectorFact}
    (provider : fact.providerStableId = params.accountIdentity.providerStableId)
    (valid : validateConnectorFact fact = true) :
    (factRow params supersedes fact).factOf params.accountIdentity.account = some fact.factMetadata := by
  have nonempty := normalizedValue_ne_empty valid
  simp [EventRow.factOf, factRow, ConnectorFact.factMetadata, AccountIdentity.account, provider, nonempty]

theorem factOf_tombstoneRow : (tombstoneRow params prior).factOf account = none := by
  simp [EventRow.factOf, tombstoneRow, tombstoneMeta]

/-- What the diff of a checked batch leaves. -/
structure Diffed (params : IngestParams) (start after : Database) (rows more : List EventRow)
    (superseded : List Nat) : Prop where
  appends : start.events.Appends after.events (rows ++ more)
  written : rows.map EventRow.unnumbered = params.facts.map fun fact =>
    factRow params (supersedesOf (priorByKey
      (loadPriorFacts params.accountIdentity.account start)) fact) fact
  current : after.events.currentRecords =
    (start.events.currentRecords.filter fun row => decide (row.id ∉ superseded)) ++ (rows ++ more)
  prior : ∀ id ∈ superseded, ∃ prior ∈ loadPriorFacts params.accountIdentity.account start,
    prior.eventId = id
  covered : ∀ row ∈ start.events.currentRecords, ∀ metadata,
    row.factOf params.accountIdentity.account = some metadata → row.id ∈ superseded
  tombstones : ∀ row ∈ more, ∃ entry ∈ loadPriorFacts params.accountIdentity.account start,
    row.unnumbered = tombstoneRow params entry ∧
      ∀ fact ∈ params.facts, fact.priorKey ≠ entry.priorKey
  facts : after.facts params.accountIdentity.account =
    params.facts.map ConnectorFact.factMetadata
  relationships : after.relationships = start.relationships

theorem diffed (keyed : start.Keyed params.accountIdentity.account)
    (checked : checkFacts world params.accountIdentity [] params.facts = .ok ()) (persists : PersistedFacts params
      (priorByKey (loadPriorFacts params.accountIdentity.account start)) start params.facts persisted between rows)
    (tombstones : Tombstoned params persisted.incomingByNamespaceValue between persisted.result
      (priorByKey (loadPriorFacts params.accountIdentity.account start)) result after more) :
    Diffed params start after rows more result.supersededEventIds := by
  have distinct : ((loadPriorFacts params.accountIdentity.account start).map PriorFact.priorKey).Nodup := by
    rw [loadPriorFacts_keys]
    exact keyed
  have entries := priorByKey_of_distinct distinct
  have superseded : result.supersededEventIds = (rows ++ more).filterMap EventRow.supersedesEventId := by
    rw [tombstones.superseded, persists.superseded, List.filterMap_append]
  have listed : ∀ entry ∈ priorByKey (loadPriorFacts params.accountIdentity.account start),
      entry.2 ∈ loadPriorFacts params.accountIdentity.account start ∧
        entry.1 = entry.2.priorKey := by
    intro entry member
    rw [entries] at member
    obtain ⟨prior, present, rfl⟩ := List.mem_map.mp member
    exact ⟨present, rfl⟩
  have prior : ∀ id ∈ result.supersededEventIds,
      ∃ prior ∈ loadPriorFacts params.accountIdentity.account start, prior.eventId = id := by
    intro id member
    rw [superseded, List.filterMap_append, List.mem_append,
      ← filterMap_unnumbered rows (fun _ => supersedesEventId_unnumbered),
      ← filterMap_unnumbered more (fun _ => supersedesEventId_unnumbered),
      persists.written, tombstones.written, List.mem_filterMap, List.mem_filterMap] at member
    rcases member with ⟨row, written, supersedes⟩ | ⟨row, written, supersedes⟩
    · obtain ⟨fact, _, rfl⟩ := List.mem_map.mp written
      obtain ⟨held, found, rfl⟩ := Option.map_eq_some_iff.mp supersedes
      exact ⟨held, (listed _ (Map.mem_of_get? found)).1, rfl⟩
    · obtain ⟨entry, absent, rfl⟩ := List.mem_map.mp written
      cases supersedes
      exact ⟨entry.2, (listed _ (List.mem_filter.mp absent).1).1, rfl⟩
  have appends := persists.appends.trans tombstones.appends
  have older : ∀ row ∈ rows ++ more, ∀ id ∈ row.supersedesEventId, id < start.events.nextId := by
    intro row member id supersedes
    obtain ⟨held, present, rfl⟩ := prior id (by
      rw [superseded]
      exact List.mem_filterMap.mpr ⟨row, member, supersedes⟩)
    obtain ⟨fact, current, same, _⟩ := mem_loadPriorFacts present
    rw [← same]
    exact start.events.fresh fact (EventTable.mem_currentRecords.mp current).1
  have current := appends.currentRecords older
  rw [← superseded] at current
  have covered : ∀ row ∈ start.events.currentRecords, ∀ metadata,
      row.factOf params.accountIdentity.account = some metadata →
        row.id ∈ result.supersededEventIds := by
    intro row held metadata found
    have known : (⟨row.id, metadata.namespace_, metadata.normalizedValue,
        params.accountIdentity.account.providerStableId, metadata.assurance⟩ : PriorFact) ∈
        loadPriorFacts params.accountIdentity.account start :=
      List.mem_filterMap.mpr ⟨row, held, by rw [found]; rfl⟩
    rw [superseded]
    exact superseded_of_prior keyed persists tombstones known
  refine ⟨appends, persists.written, current, prior, covered, ?_, ?_, ?_⟩
  · intro row member
    have written := List.mem_map_of_mem (f := EventRow.unnumbered) member
    rw [tombstones.written] at written
    obtain ⟨entry, absent, same⟩ := List.mem_map.mp written
    obtain ⟨present, missing⟩ := List.mem_filter.mp absent
    refine ⟨entry.2, (listed entry present).1, same.symm, ?_⟩
    intro fact given equal
    have found := (persists.incoming entry.1).mpr ⟨fact, given, by rw [equal, (listed entry present).2]⟩
    simp [isAbsent, Option.isSome_iff_ne_none.mp found] at missing
  · have gone : (start.events.currentRecords.filter fun row =>
        decide (row.id ∉ result.supersededEventIds)).filterMap
          (EventRow.factOf params.accountIdentity.account) = [] := by
      rw [List.filterMap_eq_nil_iff]
      intro row member
      obtain ⟨held, unsuperseded⟩ := List.mem_filter.mp member
      by_contra found
      obtain ⟨metadata, found⟩ := Option.ne_none_iff_exists'.mp found
      simp [covered row held metadata found] at unsuperseded
    have facts := (checkFacts_ok checked).1
    rw [Database.facts, current, List.filterMap_append, gone, List.nil_append, List.filterMap_append,
      ← filterMap_unnumbered rows (fun _ => factOf_unnumbered),
      ← filterMap_unnumbered more (fun _ => factOf_unnumbered),
      persists.written, tombstones.written]
    have none_ : ((List.filter (isAbsent persisted.incomingByNamespaceValue)
        (priorByKey (loadPriorFacts params.accountIdentity.account start))).map
          fun entry => tombstoneRow params entry.2).filterMap
            (EventRow.factOf params.accountIdentity.account) = [] := by
      rw [List.filterMap_eq_nil_iff]
      intro row member
      obtain ⟨entry, _, rfl⟩ := List.mem_map.mp member
      exact factOf_tombstoneRow
    rw [none_, List.append_nil, List.filterMap_map]
    rw [List.filterMap_congr (g := fun fact => some fact.factMetadata), List.filterMap_eq_map']
    intro fact given
    exact factOf_factRow (facts fact given).2 (facts fact given).1
  · rw [tombstones.relationships, persists.relationships]

end Facts

end Lobu.Identity
