import Lobu.Configuration.Store

namespace Lobu.Configuration

open Lobu.Foundation Lobu.Proxy

/-! # Provisioning's grants

The statements of one reconciliation, in the order in which its transaction runs them,
over the grants of every agent and the table that names the grants provisioning owns.
A grant's row takes its ownership along when it goes.
-/

abbrev GrantKey := String × String × GrantKind × List Char

def Target.grantKey (target : Target) (key : GrantKind × List Char) : GrantKey :=
  (target.organizationId, target.agentId, key)

structure GrantDatabase where
  grants : List GrantRow
  /-- The rows of `agent_fenced_provisioning_grants`. -/
  owned : List GrantKey

inductive SyncFailure where
  | failure (failure : Failure)
  | thrown (message : String)

namespace GrantDatabase

def keys (database : GrantDatabase) : List GrantKey := database.grants.map GrantRow.key

def holds (database : GrantDatabase) (key : GrantKey) : Bool :=
  database.grants.any fun row => row.key == key

@[simp] theorem holds_iff {database : GrantDatabase} {key : GrantKey} :
    database.holds key = true ↔ key ∈ database.keys := by
  simp [holds, keys, List.any_eq_true, List.mem_map]

/-- What deletions leave of the grants, with `ON DELETE CASCADE` on their ownership. -/
def leaving (database : GrantDatabase) (grants : List GrantRow) : GrantDatabase :=
  { grants
    owned := database.owned.filter fun key => grants.any fun row => row.key == key }

/-- `DELETE FROM grants … AND EXISTS` an ownership of the same key. -/
def deleteOwned (key : GrantKey) (database : GrantDatabase) : GrantDatabase :=
  database.leaving
    (database.grants.filter fun row => !(row.key == key && database.owned.contains key))

/-- `UPDATE grants SET expires_at = NULL, granted_at = NOW(), denied = false`. -/
def reactivate (now : Int) (key : GrantKey) (database : GrantDatabase) : GrantDatabase :=
  { database with
    grants := database.grants.map fun row =>
      if row.key = key then { row with expiresAt := none, grantedAt := now, denied := false }
      else row }

/-- `INSERT INTO grants … ON CONFLICT DO NOTHING RETURNING 1`. -/
def insertGrant (row : GrantRow) (database : GrantDatabase) : Option GrantDatabase :=
  if database.holds row.key then none
  else some { database with grants := database.grants ++ [row] }

/-- `INSERT INTO agent_fenced_provisioning_grants`, under its primary key. -/
def insertOwned (key : GrantKey) (database : GrantDatabase) : Except SyncFailure GrantDatabase :=
  if database.owned.contains key then
    .error (.failure (.database "agent_fenced_provisioning_grants_pkey"))
  else .ok { database with owned := database.owned ++ [key] }

end GrantDatabase

section Statements

variable {Digest : Type} (platform : Platform Digest) (target : Target) (now : Int)

/-- `SELECT … FROM agent_fenced_provisioning_grants owned JOIN grants`. -/
def selectOwned (database : GrantDatabase) : List (GrantKind × List Char) :=
  (database.owned.filter fun key =>
    key.1 == target.organizationId && key.2.1 == target.agentId && database.holds key).map
      fun key => key.2.2

def deleteUnwanted (desired : List (GrantKind × List Char)) :
    List (GrantKind × List Char) → GrantDatabase → GrantDatabase
  | [], database => database
  | key :: rest, database =>
    if desired.contains key then deleteUnwanted desired rest database
    else deleteUnwanted desired rest (database.deleteOwned (target.grantKey key))

def syncWanted (ownedKeys : List (GrantKind × List Char)) :
    List (GrantKind × List Char) → GrantDatabase → Except SyncFailure GrantDatabase
  | [], database => .ok database
  | key :: rest, database =>
    if ownedKeys.contains key then
      if database.holds (target.grantKey key) then
        syncWanted ownedKeys rest (database.reactivate now (target.grantKey key))
      else .error (.thrown "Required unowned grant changed during fenced apply")
    else
      match database.insertGrant (freshGrant target now key) with
      | none => syncWanted ownedKeys rest (database.reactivate now (target.grantKey key))
      | some inserted =>
        match inserted.insertOwned (target.grantKey key) with
        | .ok recorded => syncWanted ownedKeys rest recorded
        | .error failure => .error failure

/-- The map of the wanted grants keeps the first place of a key that comes twice. -/
def syncProvisioningGrantsInTransaction (field : SettingKey → Option Json)
    (database : GrantDatabase) : Except SyncFailure GrantDatabase :=
  match desiredGrants platform field with
  | .error failure => .error (.failure failure)
  | .ok wanted =>
    let desired := wanted.eraseDups
    let owned := selectOwned target database
    syncWanted target now owned desired (deleteUnwanted target desired owned database)

def upsertGrant (database : GrantDatabase) (key : GrantKind × List Char) : GrantDatabase :=
  match database.insertGrant (freshGrant target now key) with
  | some inserted => inserted
  | none => database.reactivate now (target.grantKey key)

def addProvisioningGrantsInTransaction (field : SettingKey → Option Json)
    (database : GrantDatabase) : Except SyncFailure GrantDatabase :=
  match desiredGrants platform field with
  | .error failure => .error (.failure failure)
  | .ok wanted => .ok (wanted.foldl (upsertGrant target now) database)

end Statements

namespace GrantDatabase

variable {database : GrantDatabase} {key other : GrantKey} {now : Int}

/-- The constraints of the two tables. -/
structure Valid (database : GrantDatabase) : Prop where
  keys : database.keys.Nodup
  owned : database.owned.Nodup
  held : ∀ key ∈ database.owned, key ∈ database.keys

def dropping (gone : GrantKey → Bool) (database : GrantDatabase) : GrantDatabase :=
  { grants := database.grants.filter fun row => !gone row.key
    owned := database.owned.filter fun key => !gone key }

variable {gone other : GrantKey → Bool}

@[simp] theorem mem_keys_dropping : key ∈ (database.dropping gone).keys ↔ key ∈ database.keys ∧ gone key = false := by
  simp only [keys, dropping, List.mem_map, List.mem_filter, Bool.not_eq_true']
  constructor
  · intro ⟨row, ⟨member, kept⟩, same⟩
    exact ⟨⟨row, member, same⟩, same ▸ kept⟩
  · intro ⟨⟨row, member, same⟩, kept⟩
    exact ⟨row, ⟨member, same ▸ kept⟩, same⟩

@[simp] theorem mem_owned_dropping :
    key ∈ (database.dropping gone).owned ↔ key ∈ database.owned ∧ gone key = false := by
  simp [dropping]

theorem keys_dropping : (database.dropping gone).keys = database.keys.filter fun key => !gone key := by
  simp only [keys, dropping, List.filter_map]
  rfl

theorem dropping_dropping :
    (database.dropping gone).dropping other = database.dropping fun key => gone key || other key := by
  simp only [dropping, List.filter_filter, mk.injEq]
  exact ⟨List.filter_congr fun row _ => by simp [Bool.and_comm],
    List.filter_congr fun key _ => by simp [Bool.and_comm]⟩

theorem dropping_congr (same : ∀ key ∈ database.keys, gone key = other key)
    (held : ∀ key ∈ database.owned, key ∈ database.keys) : database.dropping gone = database.dropping other := by
  simp only [dropping, mk.injEq]
  refine ⟨List.filter_congr fun row member => ?_, List.filter_congr fun key member => ?_⟩
  · rw [same row.key (List.mem_map_of_mem member)]
  · rw [same key (held key member)]

theorem leaving_filter (gone : GrantKey → Bool) (held : ∀ key ∈ database.owned, key ∈ database.keys) :
    database.leaving (database.grants.filter fun row => !gone row.key) = database.dropping gone := by
  have kept : (database.dropping gone).keys =
      (database.grants.filter fun row => !gone row.key).map GrantRow.key := rfl
  simp only [leaving, dropping, mk.injEq, true_and]
  refine List.filter_congr fun key member => ?_
  rw [Bool.eq_iff_iff, List.any_eq_true]
  have present : key ∈ (database.dropping gone).keys ↔ gone key = false := by
    simp [held key member]
  rw [kept, List.mem_map] at present
  simpa using present

theorem Valid.dropping (valid : database.Valid) : (database.dropping gone).Valid where
  keys := by
    rw [keys_dropping]
    exact valid.keys.filter _
  owned := valid.owned.filter _
  held := fun key member => by
    rw [mem_owned_dropping] at member
    exact mem_keys_dropping.mpr ⟨valid.held key member.1, member.2⟩

theorem deleteOwned_eq (valid : database.Valid) :
    database.deleteOwned key = database.dropping fun other => other == key && database.owned.contains key :=
  leaving_filter (fun other => other == key && database.owned.contains key) valid.held

@[simp] theorem keys_reactivate : (database.reactivate now key).keys = database.keys := by
  simp only [keys, reactivate, List.map_map]
  refine List.map_congr_left fun row _ => ?_
  simp only [Function.comp]
  split <;> rfl

@[simp] theorem owned_reactivate : (database.reactivate now key).owned = database.owned := rfl

end GrantDatabase

section Reconciling

open GrantDatabase

variable {Digest : Type} {platform : Platform Digest} {target : Target} {now : Int}
variable {database : GrantDatabase} {desired : List (GrantKind × List Char)}

/-- Whether the row of a key is provisioning's and not among the wanted ones. -/
def unwanted (target : Target) (desired : List (GrantKind × List Char))
    (database : GrantDatabase) (key : GrantKey) : Bool :=
  database.owned.contains key && key.1 == target.organizationId && key.2.1 == target.agentId &&
    !desired.contains key.2.2

theorem deleteUnwanted_eq (valid : database.Valid) (listed : List (GrantKind × List Char)) :
    deleteUnwanted target desired listed database = database.dropping fun key =>
      unwanted target desired database key && listed.contains key.2.2 := by
  induction listed generalizing database with
  | nil =>
    simp only [deleteUnwanted, dropping, List.contains_nil, Bool.and_false, Bool.not_false, List.filter_true]
  | cons first rest ih =>
    simp only [deleteUnwanted]
    split
    · rename_i wanted
      rw [ih valid]
      refine dropping_congr (fun key _ => ?_) valid.held
      by_cases same : key.2.2 = first
      · simp [unwanted, same, List.contains_iff_mem.mp wanted]
      · simp [same]
    · rename_i notWanted
      rw [deleteOwned_eq valid, ih valid.dropping, dropping_dropping]
      refine dropping_congr (fun key _ => ?_) valid.held
      have own : key = target.grantKey first ↔ key.1 = target.organizationId ∧
          key.2.1 = target.agentId ∧ key.2.2 = first := by
        simp [Target.grantKey, Prod.ext_iff]
      rw [Bool.eq_iff_iff]
      simp only [unwanted, Bool.or_eq_true, Bool.and_eq_true, beq_iff_eq, List.contains_iff_mem,
        Bool.not_eq_true', mem_owned_dropping, List.mem_cons]
      grind

theorem deleteUnwanted_selectOwned (valid : database.Valid) :
    deleteUnwanted target desired (selectOwned target database) database =
      database.dropping (unwanted target desired database) := by
  rw [deleteUnwanted_eq valid]
  refine dropping_congr (fun key _ => ?_) valid.held
  rw [Bool.and_eq_left_iff_imp]
  intro gone
  simp only [unwanted, Bool.and_eq_true, List.contains_iff_mem] at gone
  obtain ⟨⟨⟨owned, organization⟩, agent⟩, _⟩ := gone
  rw [List.contains_iff_mem, selectOwned, List.mem_map]
  refine ⟨key, List.mem_filter.mpr ⟨owned, ?_⟩, rfl⟩
  simp [organization, agent, valid.held key owned]

/-- One wanted grant: a row that is there is made active, a new row is provisioning's. -/
def syncKey (target : Target) (now : Int) (database : GrantDatabase) (key : GrantKind × List Char) : GrantDatabase :=
  if database.holds (target.grantKey key) then database.reactivate now (target.grantKey key)
  else
    { grants := database.grants ++ [freshGrant target now key]
      owned := database.owned ++ [target.grantKey key] }

section Step

variable {key : GrantKind × List Char} {other : GrantKey} {row : GrantRow}

@[simp] theorem freshGrant_key : (freshGrant target now key).key = target.grantKey key := rfl

@[simp] theorem mem_keys_syncKey :
    other ∈ (syncKey target now database key).keys ↔ other ∈ database.keys ∨ other = target.grantKey key := by
  simp only [syncKey]
  split
  · rename_i present
    rw [holds_iff] at present
    rw [keys_reactivate]
    exact ⟨.inl, fun found => found.elim id fun same => same ▸ present⟩
  · simp [GrantDatabase.keys]

theorem mem_owned_syncKey :
    other ∈ (syncKey target now database key).owned ↔
      other ∈ database.owned ∨ (other = target.grantKey key ∧ other ∉ database.keys) := by
  simp only [syncKey]
  split
  · rename_i present
    rw [holds_iff] at present
    constructor
    · exact .inl
    · intro found
      rcases found with owned | ⟨same, absent⟩
      · exact owned
      · exact absurd (same ▸ present) absent
  · rename_i absent
    rw [holds_iff] at absent
    simp only [List.mem_append, List.mem_singleton]
    constructor
    · intro found
      rcases found with owned | same
      · exact .inl owned
      · exact .inr ⟨same, same ▸ absent⟩
    · intro found
      exact found.imp id And.left

theorem valid_syncKey (valid : database.Valid) : (syncKey target now database key).Valid := by
  have held : ∀ other ∈ (syncKey target now database key).owned, other ∈ (syncKey target now database key).keys := by
    intro other owned
    rw [mem_owned_syncKey] at owned
    rw [mem_keys_syncKey]
    exact owned.imp (valid.held other) And.left
  by_cases present : database.holds (target.grantKey key) = true
  · rw [syncKey, if_pos present] at held ⊢
    refine ⟨?_, valid.owned, held⟩
    rw [keys_reactivate]
    exact valid.keys
  · rw [syncKey, if_neg present] at held ⊢
    rw [holds_iff] at present
    refine ⟨?_, ?_, held⟩
    · simp only [GrantDatabase.keys, List.map_append, List.map_cons, List.map_nil, freshGrant_key]
      exact List.nodup_append.mpr ⟨valid.keys, by simp, fun a member b same => by
        rw [List.mem_singleton.mp same]
        intro equal
        exact present (equal ▸ member)⟩
    · exact List.nodup_append.mpr ⟨valid.owned, by simp, fun a member b same => by
        rw [List.mem_singleton.mp same]
        intro equal
        exact present (valid.held _ (equal ▸ member))⟩

/-- A grant that allows, and that no time ends. -/
def Granted (row : GrantRow) : Prop := row.expiresAt = none ∧ row.denied = false

theorem granted_syncKey (member : row ∈ (syncKey target now database key).grants)
    (same : row.key = target.grantKey key) : Granted row := by
  simp only [syncKey] at member
  split at member
  · simp only [GrantDatabase.reactivate, List.mem_map] at member
    obtain ⟨before, _, rfl⟩ := member
    split
    · exact ⟨rfl, rfl⟩
    · rename_i differs
      rw [if_neg differs] at same
      exact absurd same differs
  · rename_i absent
    rw [holds_iff] at absent
    rcases List.mem_append.mp member with old | fresh
    · exact absurd (same ▸ List.mem_map_of_mem old) absent
    · rw [List.mem_singleton.mp fresh]
      exact ⟨rfl, rfl⟩

theorem mem_grants_syncKey (differs : row.key ≠ target.grantKey key) :
    row ∈ (syncKey target now database key).grants ↔ row ∈ database.grants := by
  simp only [syncKey]
  split
  · simp only [GrantDatabase.reactivate, List.mem_map]
    constructor
    · intro ⟨before, member, same⟩
      split at same
      · rename_i own
        exact absurd (same ▸ own) differs
      · exact same ▸ member
    · intro member
      exact ⟨row, member, if_neg differs⟩
  · simp only [List.mem_append, List.mem_singleton, or_iff_left_iff_imp]
    intro fresh
    exact absurd (fresh ▸ freshGrant_key) differs

end Step

section All

variable {other : GrantKey} {row : GrantRow}

theorem mem_keys_syncKeys : other ∈ (desired.foldl (syncKey target now) database).keys ↔
    other ∈ database.keys ∨ other ∈ desired.map target.grantKey := by
  induction desired generalizing database with
  | nil => simp
  | cons key rest ih =>
    rw [List.foldl_cons, ih, mem_keys_syncKey, List.map_cons, List.mem_cons, or_assoc]

theorem mem_owned_syncKeys : other ∈ (desired.foldl (syncKey target now) database).owned ↔
    other ∈ database.owned ∨ (other ∈ desired.map target.grantKey ∧ other ∉ database.keys) := by
  induction desired generalizing database with
  | nil => simp
  | cons key rest ih =>
    rw [List.foldl_cons, ih, mem_owned_syncKey, mem_keys_syncKey, List.map_cons, List.mem_cons]
    tauto

theorem valid_syncKeys (valid : database.Valid) : (desired.foldl (syncKey target now) database).Valid := by
  induction desired generalizing database with
  | nil => exact valid
  | cons key rest ih => exact ih (valid_syncKey valid)

theorem mem_grants_syncKeys (unwanted : row.key ∉ desired.map target.grantKey) :
    row ∈ (desired.foldl (syncKey target now) database).grants ↔ row ∈ database.grants := by
  induction desired generalizing database with
  | nil => rfl
  | cons key rest ih =>
    rw [List.map_cons, List.mem_cons, not_or] at unwanted
    rw [List.foldl_cons, ih unwanted.2, mem_grants_syncKey unwanted.1]

theorem granted_syncKeys (member : row ∈ (desired.foldl (syncKey target now) database).grants)
    (wanted : row.key ∈ desired.map target.grantKey) : Granted row := by
  -- The last key that is this row's decides; the later ones leave the row alone.
  induction desired using List.reverseRecOn with
  | nil => simp at wanted
  | append_singleton earlier key ih =>
    rw [List.foldl_append, List.foldl_cons, List.foldl_nil] at member
    by_cases same : row.key = target.grantKey key
    · exact granted_syncKey member same
    · rw [mem_grants_syncKey same] at member
      refine ih member ?_
      simpa [same] using wanted

/-- No statement of the second loop fails, and every one does what `syncKey` says. -/
theorem syncWanted_eq (valid : database.Valid) {ownedKeys : List (GrantKind × List Char)}
    (present : ∀ key ∈ ownedKeys, key ∈ desired → target.grantKey key ∈ database.keys) :
    syncWanted target now ownedKeys desired database = .ok (desired.foldl (syncKey target now) database) := by
  induction desired generalizing database with
  | nil => rfl
  | cons key rest ih =>
    have later : ∀ other ∈ ownedKeys, other ∈ rest →
        target.grantKey other ∈ (syncKey target now database key).keys := by
      intro other owned member
      rw [mem_keys_syncKey]
      exact .inl (present other owned (List.mem_cons_of_mem _ member))
    have rest := ih (valid_syncKey valid) later
    rw [List.foldl_cons, ← rest]
    by_cases held : database.holds (target.grantKey key) = true
    · have renewed : syncKey target now database key = database.reactivate now (target.grantKey key) := if_pos held
      simp only [syncWanted, held, if_true, GrantDatabase.insertGrant, freshGrant_key, renewed, ite_self]
    · have absent : target.grantKey key ∉ database.keys := fun found =>
        held (holds_iff.mpr found)
      have unowned : ¬ ownedKeys.contains key = true := fun owned =>
        absent (present key (List.contains_iff_mem.mp owned) List.mem_cons_self)
      have free : ¬ database.owned.contains (target.grantKey key) = true := fun owned =>
        absent (valid.held _ (List.contains_iff_mem.mp owned))
      have inserted : database.insertGrant (freshGrant target now key) =
          some { database with grants := database.grants ++ [freshGrant target now key] } :=
        if_neg held
      have recorded : GrantDatabase.insertOwned (target.grantKey key)
          { database with grants := database.grants ++ [freshGrant target now key] } =
            .ok (syncKey target now database key) := by
        rw [syncKey, if_neg held]
        exact if_neg free
      simp only [syncWanted, if_neg unowned, inserted, recorded]

end All

/-- What a reconciliation leaves. -/
def reconciled (target : Target) (now : Int) (wanted : List (GrantKind × List Char))
    (database : GrantDatabase) : GrantDatabase :=
  wanted.eraseDups.foldl (syncKey target now)
    (database.dropping (unwanted target wanted.eraseDups database))

theorem sync_eq {field : SettingKey → Option Json} (valid : database.Valid)
    (read : desiredGrants platform field = .ok desired) :
    syncProvisioningGrantsInTransaction platform target now field database =
      .ok (reconciled target now desired database) := by
  simp only [syncProvisioningGrantsInTransaction, read]
  rw [deleteUnwanted_selectOwned valid]
  refine syncWanted_eq valid.dropping fun key owned wanted => ?_
  rw [selectOwned, List.mem_map] at owned
  obtain ⟨full, member, rfl⟩ := owned
  rw [List.mem_filter] at member
  simp only [Bool.and_eq_true, beq_iff_eq, holds_iff] at member
  obtain ⟨_, ⟨organization, agent⟩, held⟩ := member
  have same : target.grantKey full.2.2 = full := by
    rw [Target.grantKey, ← organization, ← agent]
  rw [same, mem_keys_dropping]
  refine ⟨held, ?_⟩
  simp [unwanted, List.mem_eraseDups.mp wanted]

section Reconciled

variable {other : GrantKey} {row : GrantRow}

theorem unwanted_wanted (wanted : other ∈ desired.map target.grantKey) :
    unwanted target desired.eraseDups database other = false := by
  obtain ⟨key, member, rfl⟩ := List.mem_map.mp wanted
  simp [unwanted, Target.grantKey, member]

theorem unwanted_owned (gone : unwanted target desired.eraseDups database other = true) : other ∈ database.owned := by
  simp only [unwanted, Bool.and_eq_true, List.contains_iff_mem] at gone
  exact gone.1.1.1

theorem mem_wantedKeys : other ∈ desired.eraseDups.map target.grantKey ↔ other ∈ desired.map target.grantKey := by
  simp only [List.mem_map, List.mem_eraseDups]

theorem mem_keys_reconciled : other ∈ (reconciled target now desired database).keys ↔
    (other ∈ database.keys ∧ unwanted target desired.eraseDups database other = false) ∨
      other ∈ desired.map target.grantKey := by
  rw [reconciled, mem_keys_syncKeys, mem_keys_dropping, mem_wantedKeys]

theorem mem_owned_reconciled : other ∈ (reconciled target now desired database).owned ↔
    (other ∈ database.owned ∧ unwanted target desired.eraseDups database other = false) ∨
      (other ∈ desired.map target.grantKey ∧ other ∉ database.keys) := by
  rw [reconciled, mem_owned_syncKeys, mem_owned_dropping, mem_keys_dropping, mem_wantedKeys]
  have kept := @unwanted_wanted target database desired other
  constructor
  · intro found
    exact found.imp id fun ⟨wanted, absent⟩ => ⟨wanted, fun held => absent ⟨held, kept wanted⟩⟩
  · intro found
    exact found.imp id fun ⟨wanted, absent⟩ => ⟨wanted, fun held => absent held.1⟩

theorem valid_reconciled (valid : database.Valid) : (reconciled target now desired database).Valid :=
  valid_syncKeys valid.dropping

theorem granted_reconciled (member : row ∈ (reconciled target now desired database).grants)
    (wanted : row.key ∈ desired.map target.grantKey) : Granted row :=
  granted_syncKeys member (mem_wantedKeys.mpr wanted)

theorem mem_grants_reconciled (member : row ∈ database.grants) (unowned : row.key ∉ database.owned)
    (unasked : row.key ∉ desired.map target.grantKey) : row ∈ (reconciled target now desired database).grants := by
  rw [reconciled, mem_grants_syncKeys (mt mem_wantedKeys.mp unasked)]
  refine List.mem_filter.mpr ⟨member, ?_⟩
  rw [Bool.not_eq_true', ← Bool.not_eq_true]
  exact fun gone => unowned (unwanted_owned gone)

end Reconciled

end Reconciling

section View

variable {target : Target} {now : Int} {key : GrantKind × List Char}
variable {database : GrantDatabase} {desired : List (GrantKind × List Char)}

def Target.owns (target : Target) (key : GrantKey) : Bool :=
  key.1 == target.organizationId && key.2.1 == target.agentId

@[simp] theorem Target.grantKey_pattern : (target.grantKey key).2.2 = key := rfl

def GrantDatabase.tablesOf (target : Target) (database : GrantDatabase) : GrantTables :=
  { grants := database.grants.filter fun row => target.owns row.key
    provisioningGrants := (database.owned.filter target.owns).map fun key => key.2.2 }

end View

end Lobu.Configuration
