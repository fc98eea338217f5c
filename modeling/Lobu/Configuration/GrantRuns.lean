import Lobu.Configuration.ProvisioningGrants
import Lobu.Proxy.GrantLookup

namespace Lobu.Configuration

open Lobu.Foundation Lobu.Proxy

/-! # Runs of reconciliations

Reconciliations, users' grants and revocations and the sweeper's deletions change the same
rows in any order.  A history remembers which of the rows that are there were put there by
a reconciliation, however often anybody has changed them since; the database does not.
-/

inductive GrantEvent where
  | sync (target : Target) (field : SettingKey → Option Json) (now : Int)
  | add (target : Target) (field : SettingKey → Option Json) (now : Int)
  | grant (ambient : Option String) (agentId : String) (pattern : List Char)
      (expiresAt : Option Int) (denied : Bool) (organizationId : Option String) (now : Int)
  | revoke (ambient : Option String) (agentId : String) (pattern : List Char)
      (organizationId : Option String)
  | sweep (now : Int)

structure GrantHistory where
  database : GrantDatabase
  created : List GrantKey

namespace GrantHistory

/-- What is still there of the created grants. -/
def moved (history : GrantHistory) (database : GrantDatabase) : GrantHistory :=
  { database, created := history.created.filter database.holds }

/-- The rows that are there after a reconciliation and were not before are its own. -/
def synced (history : GrantHistory) (database : GrantDatabase) : GrantHistory :=
  { database
    created := history.created.filter database.holds ++
      database.keys.filter fun key => !history.database.holds key }

end GrantHistory

def applyGrantEvent {Digest : Type} (platform : Platform Digest) (history : GrantHistory) : GrantEvent → GrantHistory
  | .sync target field now =>
    match syncProvisioningGrantsInTransaction platform target now field history.database with
    | .ok database => history.synced database
    | .error _ => history
  | .add target field now =>
    match addProvisioningGrantsInTransaction platform target now field history.database with
    | .ok database => history.moved database
    | .error _ => history
  | .grant ambient agentId pattern expiresAt denied organizationId now =>
    match Lobu.Proxy.grant platform.names ambient history.database.grants now agentId pattern
        expiresAt denied organizationId with
    | .ok grants => history.moved { history.database with grants }
    | .error _ => history
  | .revoke ambient agentId pattern organizationId =>
    history.moved (history.database.leaving
      (Lobu.Proxy.revoke platform.names ambient history.database.grants agentId pattern
        organizationId))
  | .sweep now =>
    history.moved (history.database.leaving (sweepExpiredGrants history.database.grants now))

/-- Any grants may be there before provisioning has put one there. -/
def grantRuns {Digest : Type} (platform : Platform Digest) : Machine GrantHistory GrantEvent where
  starts history := history.database.keys.Nodup ∧
    history.database.owned = [] ∧ history.created = []
  step history event := some (applyGrantEvent platform history event)

section Kept

variable {database after : GrantDatabase} {target : Target} {now : Int}

/-- A change of the grants that deletes none. -/
structure Extends (before after : GrantDatabase) : Prop where
  keys : ∀ key ∈ before.keys, key ∈ after.keys
  owned : after.owned = before.owned
  unique : before.keys.Nodup → after.keys.Nodup

theorem Extends.refl (database : GrantDatabase) : Extends database database :=
  ⟨fun _ member => member, rfl, id⟩

theorem Extends.trans {first second third : GrantDatabase} (left : Extends first second)
    (right : Extends second third) : Extends first third :=
  ⟨fun key member => right.keys key (left.keys key member), right.owned.trans left.owned,
    fun unique => right.unique (left.unique unique)⟩

theorem extends_same (same : after.keys = database.keys) (owned : after.owned = database.owned) :
    Extends database after :=
  ⟨fun _ member => same ▸ member, owned, fun unique => same ▸ unique⟩

theorem extends_append {row : GrantRow} (absent : row.key ∉ database.keys) :
    Extends database { database with grants := database.grants ++ [row] } where
  keys _ member := by
    simp only [GrantDatabase.keys, List.map_append, List.mem_append]
    exact .inl member
  owned := rfl
  unique unique := by
    simp only [GrantDatabase.keys, List.map_append, List.map_cons, List.map_nil]
    refine List.nodup_append.mpr ⟨unique, by simp, fun key member other same => ?_⟩
    rw [List.mem_singleton.mp same]
    exact fun equal => absent (equal ▸ member)

theorem extends_upsertGrant (database : GrantDatabase) (key : GrantKind × List Char) :
    Extends database (upsertGrant target now database key) := by
  simp only [upsertGrant, GrantDatabase.insertGrant]
  by_cases present : database.holds (freshGrant target now key).key = true
  · simp only [if_pos present]
    exact extends_same GrantDatabase.keys_reactivate rfl
  · simp only [if_neg present]
    exact extends_append (mt GrantDatabase.holds_iff.mpr present)

theorem extends_add {Digest : Type} {platform : Platform Digest} {field : SettingKey → Option Json}
    (added : addProvisioningGrantsInTransaction platform target now field database = .ok after) :
    Extends database after := by
  have folded : ∀ (keys : List (GrantKind × List Char)) (database : GrantDatabase),
      Extends database (keys.foldl (upsertGrant target now) database) := by
    intro keys
    induction keys with
    | nil => exact Extends.refl
    | cons key rest ih => exact fun database => (extends_upsertGrant database key).trans (ih _)
  simp only [addProvisioningGrantsInTransaction] at added
  split at added
  · cases added
  · cases added
    exact folded _ database

theorem extends_grant {names : DomainNames} {ambient organizationId : Option String}
    {agentId : String} {pattern : List Char} {expiresAt : Option Int} {denied : Bool} {grants : List GrantRow}
    (granted : Lobu.Proxy.grant names ambient database.grants now agentId pattern expiresAt denied
      organizationId = .ok grants) : Extends database { database with grants } := by
  simp only [Lobu.Proxy.grant] at granted
  split at granted
  · cases granted
  · split at granted
    · cases granted
      refine extends_same ?_ rfl
      simp only [GrantDatabase.keys, List.map_map]
      refine List.map_congr_left fun row _ => ?_
      simp only [Function.comp]
      split
      · rename_i same
        exact same.symm
      · rfl
    · rename_i absent
      cases granted
      refine extends_append fun found => absent ?_
      obtain ⟨row, member, same⟩ := List.mem_map.mp found
      exact List.any_eq_true.mpr ⟨row, member, beq_iff_eq.mpr same⟩

end Kept

/-- Provisioning owns exactly the grants that a reconciliation has created. -/
structure GrantHistory.Sound (history : GrantHistory) : Prop where
  valid : history.database.Valid
  owned : ∀ key, key ∈ history.database.owned ↔ key ∈ history.created

section Sound

variable {history : GrantHistory} {after : GrantDatabase}

theorem sound_extended (sound : history.Sound) (extended : Extends history.database after) :
    (history.moved after).Sound where
  valid :=
    { keys := extended.unique sound.valid.keys
      owned := extended.owned ▸ sound.valid.owned
      held := fun key owned =>
        extended.keys key (sound.valid.held key (extended.owned ▸ owned)) }
  owned key := by
    simp only [GrantHistory.moved, extended.owned, List.mem_filter, GrantDatabase.holds_iff, ← sound.owned]
    exact ⟨fun owned => ⟨owned, extended.keys key (sound.valid.held key owned)⟩, And.left⟩

theorem sound_leaving (sound : history.Sound) (keep : GrantRow → Bool) :
    (history.moved (history.database.leaving (history.database.grants.filter keep))).Sound where
  valid :=
    { keys := (List.filter_sublist.map GrantRow.key).nodup sound.valid.keys
      owned := sound.valid.owned.filter _
      held := fun key owned => GrantDatabase.holds_iff.mp (List.mem_filter.mp owned).2 }
  owned key := by
    simp only [GrantHistory.moved, List.mem_filter, ← sound.owned]
    exact List.mem_filter

theorem sound_synced {target : Target} {now : Int} {desired : List (GrantKind × List Char)}
    (sound : history.Sound) : (history.synced (reconciled target now desired history.database)).Sound where
  valid := valid_reconciled sound.valid
  owned key := by
    have held := sound.valid.held key
    have wanted := @unwanted_wanted target history.database desired key
    simp only [GrantHistory.synced, List.mem_append, List.mem_filter, ← sound.owned,
      GrantDatabase.holds_iff, mem_owned_reconciled, mem_keys_reconciled, Bool.not_eq_true',
      ← Bool.not_eq_true]
    simp only [← Bool.not_eq_true] at wanted
    tauto

variable {Digest : Type} {platform : Platform Digest}

theorem sound_event (sound : history.Sound) (event : GrantEvent) :
    (applyGrantEvent platform history event).Sound := by
  cases event with
  | sync target field now =>
    simp only [applyGrantEvent]
    cases read : desiredGrants platform field with
    | error failure =>
      simp only [syncProvisioningGrantsInTransaction, read]
      exact sound
    | ok desired =>
      simp only [sync_eq sound.valid read]
      exact sound_synced sound
  | add target field now =>
    simp only [applyGrantEvent]
    split
    · rename_i added
      exact sound_extended sound (extends_add added)
    · exact sound
  | grant ambient agentId pattern expiresAt denied organizationId now =>
    simp only [applyGrantEvent]
    split
    · rename_i granted
      exact sound_extended sound (extends_grant granted)
    · exact sound
  | revoke ambient agentId pattern organizationId => exact sound_leaving sound _
  | sweep now => exact sound_leaving sound _

theorem sound_of_reachable {allowed : Discipline GrantHistory GrantEvent}
    (reached : (grantRuns platform).Reachable allowed history) : history.Sound := by
  refine reached.invariant ?_ ?_
  · intro start ⟨unique, unowned, uncreated⟩
    refine ⟨⟨unique, by simp [unowned], by simp [unowned]⟩, by simp [unowned, uncreated]⟩
  · intro before event next _ sound _ stepped
    cases stepped
    exact sound_event sound event

end Sound

/-- A list of strings, or nothing. -/
def IsPatternList (value : Option Json) : Prop :=
  value = none ∨ value = some .null ∨
    ∃ patterns : List String, value = some (.array (patterns.map Json.string))

/-- What the two fields that name grants are declared to hold. -/
structure TypedGrantFields (field : SettingKey → Option Json) : Prop where
  allowedDomains : IsPatternList ((field .networkConfig).bind fun config =>
    config.get? "allowedDomains")
  preApprovedTools : IsPatternList (field .preApprovedTools)

theorem spread_patternList {value : Option Json} (typed : IsPatternList value) :
    ∃ patterns : List String, spread value = .ok (patterns.map Json.string) := by
  rcases typed with absent | null | ⟨patterns, array⟩
  · exact ⟨[], by rw [absent]; rfl⟩
  · exact ⟨[], by rw [null]; rfl⟩
  · exact ⟨patterns, by rw [array]; rfl⟩

theorem rawPatterns_strings (patterns : List String) :
    rawPatterns (patterns.map Json.string) = .ok (patterns.map String.toList) := by
  induction patterns with
  | nil => rfl
  | cons first rest ih => simp only [List.map_cons, rawPatterns, ih]

theorem desiredGrants_typed {Digest : Type} {platform : Platform Digest}
    {field : SettingKey → Option Json} (typed : TypedGrantFields field) :
    ∃ desired, desiredGrants platform field = .ok desired := by
  obtain ⟨domains, domainsRead⟩ := spread_patternList typed.allowedDomains
  obtain ⟨tools, toolsRead⟩ := spread_patternList typed.preApprovedTools
  refine ⟨(domains ++ tools).map fun raw =>
    let pattern := normalizeDomainPattern platform.names raw.toList
    (inferGrantKind pattern, pattern), ?_⟩
  simp only [desiredGrants, domainsRead, toolsRead, bind, Except.bind, ← List.map_append,
    rawPatterns_strings, pure, Except.pure, List.map_map]
  rfl

section Reconciles

variable {Digest : Type} {platform : Platform Digest} {history : GrantHistory}
variable {field : SettingKey → Option Json}

/-- Whatever users and the sweeper have done to the grants, a reconciliation succeeds.  It
grants what is wanted, takes back what reconciliations have created and is wanted no more,
and keeps every row that none of them has created. -/
theorem reconciliation_settles {allowed : Discipline GrantHistory GrantEvent}
    (reached : (grantRuns platform).Reachable allowed history) (typed : TypedGrantFields field)
    (target : Target) (now : Int) :
    ∃ desired after, desiredGrants platform field = .ok desired ∧
      syncProvisioningGrantsInTransaction platform target now field history.database = .ok after ∧
      (∀ key ∈ desired, ∃ row ∈ after.grants, row.key = target.grantKey key ∧
        row.denied = false ∧ ∀ time, row.live time = true) ∧
      (∀ key ∈ history.created, target.owns key = true → key.2.2 ∉ desired → key ∉ after.keys) ∧
      ∀ row ∈ history.database.grants, row.key ∉ history.created →
        row.key ∈ after.keys ∧ (row.key ∉ desired.map target.grantKey → row ∈ after.grants) := by
  have sound := sound_of_reachable reached
  obtain ⟨desired, read⟩ : ∃ desired, desiredGrants platform field = .ok desired :=
    desiredGrants_typed typed
  refine ⟨desired, reconciled target now desired history.database, read, sync_eq sound.valid read, ?_, ?_, ?_⟩
  · intro key wanted
    have asked : target.grantKey key ∈ desired.map target.grantKey := List.mem_map_of_mem wanted
    obtain ⟨row, member, same⟩ := List.mem_map.mp (mem_keys_reconciled.mpr (.inr asked))
    obtain ⟨endless, allowed⟩ := granted_reconciled member (same ▸ asked)
    exact ⟨row, member, same, allowed, fun time => by simp [GrantRow.live, endless]⟩
  · intro key created own unasked kept
    rw [mem_keys_reconciled] at kept
    rcases kept with ⟨_, wanted⟩ | wanted
    · have owned := (sound.owned key).mpr created
      simp only [Target.owns, Bool.and_eq_true] at own
      simp [unwanted, owned, own, unasked] at wanted
    · obtain ⟨pair, member, same⟩ := List.mem_map.mp wanted
      exact unasked (same ▸ member)
  · intro row member uncreated
    have unowned : row.key ∉ history.database.owned := fun owned =>
      uncreated ((sound.owned _).mp owned)
    refine ⟨?_, mem_grants_reconciled member unowned⟩
    by_cases asked : row.key ∈ desired.map target.grantKey
    · exact mem_keys_reconciled.mpr (.inr asked)
    · exact List.mem_map_of_mem (mem_grants_reconciled member unowned asked)

end Reconciles

def allowing (domains : List String) : SettingKey → Option Json
  | .networkConfig => some (.object [("allowedDomains", .array (domains.map Json.string))])
  | _ => none

def plainGrantPlatform : Platform Json where
  sha256 := id
  digestText _ := ""
  parameterText _ := ""
  names := asciiNames

/-- A user denies one domain, a reconciliation allows another, and the next one wants the
denied one only. -/
def denyThenAllow : GrantHistory :=
  applyGrantEvent plainGrantPlatform
    { database := { grants := exampleGrants "pypi.org" true, owned := [] }, created := [] }
    (.sync { organizationId := "org", agentId := "agent" } (allowing ["github.com"]) 1)

theorem reconciliation_settles_denied :
    ∃ after, syncProvisioningGrantsInTransaction plainGrantPlatform
        { organizationId := "org", agentId := "agent" } 2 (allowing ["pypi.org"]) denyThenAllow.database = .ok after ∧
      (∃ row ∈ after.grants, row.key = ("org", "agent", .domain, "pypi.org".toList) ∧
        row.denied = false ∧ ∀ time, row.live time = true) ∧
      ("org", "agent", GrantKind.domain, "github.com".toList) ∉ after.keys := by
  have begins : (grantRuns plainGrantPlatform).starts
      { database := { grants := exampleGrants "pypi.org" true, owned := [] }, created := [] } :=
    ⟨List.nodup_singleton _, rfl, rfl⟩
  have reached : (grantRuns plainGrantPlatform).Reachable unrestricted denyThenAllow :=
    .step (.start begins) trivial rfl
  have typed : TypedGrantFields (allowing ["pypi.org"]) :=
    ⟨.inr (.inr ⟨["pypi.org"], rfl⟩), .inl rfl⟩
  obtain ⟨desired, after, read, synced, granted, dropped, _⟩ := reconciliation_settles reached typed
    { organizationId := "org", agentId := "agent" } 2
  have wanted : desiredGrants plainGrantPlatform (allowing ["pypi.org"]) = .ok [(.domain, "pypi.org".toList)] := by
    decide +kernel
  rw [wanted] at read
  cases read
  refine ⟨after, synced, granted _ List.mem_cons_self, dropped _ ?_ rfl ?_⟩
  · decide +kernel
  · decide +kernel

end Lobu.Configuration
