import Lobu.Foundation.Transaction
import Lobu.Tools.EffectiveInventory

namespace Lobu.Tools

open Lobu.Foundation
open Lobu.Worker (trimmed)

/-! # Who is eligible

What the inventory is for, said of a server and a name: which pairs were
discovered, and what a pair needs so that it may be called.  The inventory puts
every discovered pair in one of its two lists, once.
-/

/-- The tools of a server that bear the name, blanks around it aside. -/
def bearers (scopedTools : ToolsByMcp) (mcpId toolName : String) : List McpToolDef :=
  ((scopedTools.get? mcpId).getD []).filter fun tool =>
    decide (tool.name.map trimmed = some toolName)

def Discovered (scopedTools : ToolsByMcp) (mcpId toolName : String) : Prop :=
  toolName ≠ "" ∧ bearers scopedTools mcpId toolName ≠ []

/-- One of the keys stands for the pair. -/
def Names (keys : List String) (mcpId toolName : String) : Prop :=
  toolIdentityKey mcpId toolName ∈ keys ∨ qualifiedToolKey mcpId toolName ∈ keys

/-- The release is active and unexpired and has the capability. -/
def Held (runtime : Runtime) (state : ReleaseCapabilityState) (capability : String) (now : Int) : Prop :=
  ∃ claim expiresAt, state = .active claim ∧
    runtime.parseDate claim.expiresAt = some expiresAt ∧ now < expiresAt ∧
    capability ∈ claim.capabilityIds

/-- Every restriction that is given admits the pair. -/
structure Admitted (runtime : Runtime) (params : BuildEffectiveToolInventoryParams)
    (mcpId toolName : String) : Prop where
  alone : (bearers params.scopedTools mcpId toolName).length ≤ 1
  connected : ∀ servers, params.connectedMcpIds = some servers → mcpId ∈ servers
  granted : ∀ keys, params.grantedToolKeys = some keys → Names keys mcpId toolName
  trusted : ∀ keys, params.untrustedProvenanceToolKeys = some keys → ¬ Names keys mcpId toolName
  policy : ∀ allows, params.isPolicyAllowed = some allows →
    allows (qualifiedToolKey mcpId toolName) toolName mcpId = true
  released : ∀ capability,
    requiredCapability params (toolIdentityKey mcpId toolName)
        (qualifiedToolKey mcpId toolName) = some capability →
      params.releaseState = .legacyUnenrolled ∨
        Held runtime params.releaseState capability params.now
  approved : ∀ keys, params.approvalRequiredToolKeys = some keys → ¬ Names keys mcpId toolName
  clear : ∀ keys, params.clarificationRequiredToolKeys = some keys → ¬ Names keys mcpId toolName

variable {runtime : Runtime} {scopedTools : ToolsByMcp}
variable {params : BuildEffectiveToolInventoryParams} {mcpId toolName key : String}
variable {tool : McpToolDef} {entry : DiscoveredTool}

theorem DiscoveredTool.identityKey_iff :
    entry.identityKey = toolIdentityKey mcpId toolName ↔
      entry.mcpId = mcpId ∧ entry.toolName = toolName := toolIdentityKey_inj

theorem DiscoveredTool.toolKey_iff :
    entry.toolKey = qualifiedToolKey mcpId toolName ↔
      entry.mcpId = mcpId ∧ entry.toolName = toolName := qualifiedToolKey_inj

theorem normalizedTool_name : (normalizedTool tool).map Prod.fst = (tool.name.map trimmed).filter (· ≠ "") := by
  unfold normalizedTool
  split
  · rename_i unnamed
    simp [unnamed]
  · rename_i name called
    split
    · rename_i blank
      simp [called, blank, Option.filter]
    · rename_i named
      simp [called, named, Option.filter]

theorem discoveredTool_name (runtime : Runtime) (mcpId : String) (tool : McpToolDef) :
    (discoveredTool runtime mcpId tool).map DiscoveredTool.toolName = (tool.name.map trimmed).filter (· ≠ "") := by
  rw [← normalizedTool_name]
  unfold discoveredTool
  split
  · rename_i unnamed
    simp [unnamed]
  · rename_i name normalized found
    simp [found]

theorem discoveredTool_server (found : discoveredTool runtime mcpId tool = some entry) : entry.mcpId = mcpId := by
  unfold discoveredTool at found
  split at found
  · cases found
  · cases found
    rfl

theorem mem_discoveredTools :
    entry ∈ discoveredTools runtime scopedTools ↔ ∃ server ∈ scopedTools.entries, ∃ tool ∈ server.2,
        discoveredTool runtime server.1 tool = some entry := by
  simp [discoveredTools, List.mem_flatMap, List.mem_filterMap]

theorem discoveredTools_named (member : entry ∈ discoveredTools runtime scopedTools) : entry.toolName ≠ "" := by
  obtain ⟨server, -, tool, -, found⟩ := mem_discoveredTools.mp member
  have name := discoveredTool_name runtime server.1 tool
  rw [found, Option.map_some] at name
  have kept := (Option.filter_eq_some_iff.mp name.symm).2
  simpa using kept

def isPair (mcpId toolName : String) (entry : DiscoveredTool) : Bool :=
  decide (entry.identityKey = toolIdentityKey mcpId toolName)

def bearsName (toolName : String) (tool : McpToolDef) : Bool :=
  decide (tool.name.map trimmed = some toolName)

theorem isPair_of_found (found : discoveredTool runtime mcpId tool = some entry)
    (server toolName : String) : isPair server toolName entry =
      (decide (mcpId = server) && bearsName toolName tool) := by
  have name := discoveredTool_name runtime mcpId tool
  rw [found, Option.map_some] at name
  have called := (Option.filter_eq_some_iff.mp name.symm).1
  have origin := discoveredTool_server found
  simp only [isPair, DiscoveredTool.identityKey_iff, origin, bearsName, called, Option.some.injEq, Bool.decide_and]

theorem bearsName_of_unfound (named : toolName ≠ "")
    (unfound : discoveredTool runtime mcpId tool = none) : bearsName toolName tool = false := by
  have name := discoveredTool_name runtime mcpId tool
  rw [unfound, Option.map_none, eq_comm, Option.filter_eq_none_iff] at name
  have other : tool.name.map trimmed ≠ some toolName := by
    intro bears
    exact name _ bears (by simpa using named)
  exact decide_eq_false other

theorem serverTools_count (named : toolName ≠ "") (server : String) (tools : List McpToolDef) :
    ((tools.filterMap (discoveredTool runtime server)).filter (isPair mcpId toolName)).length =
      if server = mcpId then (tools.filter (bearsName toolName)).length else 0 := by
  induction tools with
  | nil => simp
  | cons tool tools ih =>
    cases found : discoveredTool runtime server tool with
    | none =>
      rw [List.filterMap_cons_none found, ih, List.filter_cons_of_neg (by simp [bearsName_of_unfound named found])]
    | some entry =>
      have pair := isPair_of_found found mcpId toolName
      rw [List.filterMap_cons_some found, List.filter_cons, List.filter_cons, pair]
      by_cases same : server = mcpId
      · cases bearsName toolName tool <;> simp [same] at ih ⊢ <;> exact ih
      · simp [same] at ih ⊢
        exact ih

theorem servers_count (runtime : Runtime) (mcpId : String) (named : toolName ≠ "")
    (servers : List (String × List McpToolDef)) (once : (servers.map Prod.fst).Nodup) :
    ((servers.flatMap fun server => server.2.filterMap (discoveredTool runtime server.1)).filter
        (isPair mcpId toolName)).length = (((servers.lookup mcpId).getD []).filter (bearsName toolName)).length := by
  induction servers with
  | nil => simp
  | cons server servers ih =>
    rw [List.map_cons, List.nodup_cons] at once
    rw [List.flatMap_cons, List.filter_append, List.length_append, serverTools_count named,
      ih once.2, List.lookup_cons]
    by_cases same : server.1 = mcpId
    · have absent : servers.lookup mcpId = none := by
        rw [List.lookup_eq_none_iff]
        intro other member
        have differs : mcpId ≠ other.1 := by
          rintro rfl
          exact once.1 (same ▸ List.mem_map_of_mem member)
        simpa using differs
      simp [same, absent]
    · have unlike : (mcpId == server.1) = false := beq_false_of_ne (Ne.symm same)
      simp [same, unlike]

def underIdentity (runtime : Runtime) (scopedTools : ToolsByMcp) (key : String) : List DiscoveredTool :=
  itemsUnder key ((discoveredTools runtime scopedTools).map fun entry => (entry.identityKey, entry))

theorem mem_underIdentity :
    entry ∈ underIdentity runtime scopedTools key ↔
      entry ∈ discoveredTools runtime scopedTools ∧ key = entry.identityKey := by
  rw [underIdentity, mem_itemsUnder, List.mem_map]
  constructor
  · rintro ⟨other, listed, pair⟩
    cases pair
    exact ⟨listed, rfl⟩
  · rintro ⟨listed, rfl⟩
    exact ⟨entry, listed, rfl⟩

theorem underIdentity_length (runtime : Runtime) (scopedTools : ToolsByMcp) (mcpId : String) (named : toolName ≠ "") :
    (underIdentity runtime scopedTools (toolIdentityKey mcpId toolName)).length =
      (bearers scopedTools mcpId toolName).length := by
  have counted := servers_count runtime mcpId named scopedTools.entries scopedTools.once
  rw [underIdentity, itemsUnder, List.length_map, List.filter_map, List.length_map]
  exact counted

theorem sortedByText_perm {α : Type} (runtime : Runtime) (text : α → String) (items : List α) :
    (sortedByText runtime text items).Perm items := List.perm_insertionSort _ items

theorem mem_discoveredGroups {group : List DiscoveredTool} :
    (key, group) ∈ discoveredGroups runtime scopedTools ↔ group = sortedByText runtime DiscoveredTool.canonical
          (underIdentity runtime scopedTools key) ∧ underIdentity runtime scopedTools key ≠ [] := by
  simp only [discoveredGroups, List.mem_map, (sortedByText_perm runtime _ _).mem_iff]
  constructor
  · rintro ⟨⟨name, held⟩, member, same⟩
    cases same
    obtain ⟨rfl, nonempty⟩ := mem_grouped.mp member
    exact ⟨rfl, nonempty⟩
  · rintro ⟨rfl, nonempty⟩
    exact ⟨(key, _), mem_grouped.mpr ⟨rfl, nonempty⟩, rfl⟩

theorem mem_discovered (member : (key, entry) ∈ discovered runtime scopedTools) :
    key = entry.identityKey ∧ entry ∈ discoveredTools runtime scopedTools := by
  obtain ⟨⟨name, group⟩, inGroups, first⟩ := List.mem_filterMap.mp member
  obtain ⟨representative, head, same⟩ := Option.map_eq_some_iff.mp first
  cases same
  obtain ⟨rfl, -⟩ := mem_discoveredGroups.mp inGroups
  have inGroup := (sortedByText_perm runtime _ _).mem_iff.mp (List.mem_of_mem_head? head)
  obtain ⟨listed, identity⟩ := mem_underIdentity.mp inGroup
  exact ⟨identity, listed⟩

theorem discovered_nodup : ((discovered runtime scopedTools).map Prod.fst).Nodup := by
  have groups : ((discoveredGroups runtime scopedTools).map Prod.fst).Nodup := by
    rw [discoveredGroups, List.map_map]
    exact ((sortedByText_perm runtime _ _).map _).nodup_iff.mpr (grouped_nodup _)
  have kept : ((discovered runtime scopedTools).map Prod.fst).Sublist
      ((discoveredGroups runtime scopedTools).map Prod.fst) := by
    unfold discovered
    generalize discoveredGroups runtime scopedTools = groups
    induction groups with
    | nil => exact List.Sublist.refl _
    | cons group groups ih =>
      rw [List.filterMap_cons]
      cases group.2.head? with
      | none => exact ih.cons _
      | some representative => exact ih.cons_cons _
  exact groups.sublist kept

theorem discovered_iff (runtime : Runtime) :
    Discovered scopedTools mcpId toolName ↔
      ∃ entry, (toolIdentityKey mcpId toolName, entry) ∈ discovered runtime scopedTools := by
  constructor
  · rintro ⟨named, borne⟩
    have counted := underIdentity_length runtime scopedTools mcpId named
    have positive := List.length_pos_of_ne_nil borne
    have sorted := sortedByText_perm runtime DiscoveredTool.canonical
      (underIdentity runtime scopedTools (toolIdentityKey mcpId toolName))
    have nonempty := List.ne_nil_of_length_pos (counted.symm ▸ positive)
    obtain ⟨first, rest, shape⟩ := List.exists_cons_of_length_pos (sorted.length_eq ▸ counted.symm ▸ positive)
    refine ⟨first, List.mem_filterMap.mpr ⟨_, mem_discoveredGroups.mpr ⟨rfl, nonempty⟩, ?_⟩⟩
    simp only [shape, List.head?_cons, Option.map_some]
  · rintro ⟨entry, member⟩
    obtain ⟨identity, listed⟩ := mem_discovered member
    obtain ⟨rfl, rfl⟩ := DiscoveredTool.identityKey_iff.mp identity.symm
    have named := discoveredTools_named listed
    refine ⟨named, List.ne_nil_of_length_pos ?_⟩
    rw [← underIdentity_length runtime scopedTools _ named]
    exact List.length_pos_of_mem (mem_underIdentity.mpr ⟨listed, identity⟩)

theorem duplicate_iff (runtime : Runtime) (scopedTools : ToolsByMcp) (mcpId : String) (named : toolName ≠ "") :
    ((duplicateEvidence runtime scopedTools).map Prod.fst).contains (toolIdentityKey mcpId toolName) = true ↔
      1 < (bearers scopedTools mcpId toolName).length := by
  rw [← underIdentity_length runtime scopedTools _ named, List.contains_iff_mem]
  constructor
  · intro member
    obtain ⟨⟨name, texts⟩, evidence, rfl⟩ := List.mem_map.mp member
    obtain ⟨⟨held, group⟩, inGroups, several⟩ := List.mem_filterMap.mp evidence
    split at several
    · rename_i long
      cases several
      obtain ⟨rfl, -⟩ := mem_discoveredGroups.mp inGroups
      rwa [(sortedByText_perm runtime _ _).length_eq] at long
    · cases several
  · intro several
    have nonempty := List.ne_nil_of_length_pos (Nat.lt_of_succ_lt several)
    have sorted := sortedByText_perm runtime DiscoveredTool.canonical
      (underIdentity runtime scopedTools (toolIdentityKey mcpId toolName))
    have inGroups := mem_discoveredGroups.mpr ⟨rfl, nonempty⟩
    apply List.mem_map_of_mem (f := Prod.fst) (a := (toolIdentityKey mcpId toolName, _))
    exact List.mem_filterMap.mpr ⟨_, inGroups, if_pos (sorted.length_eq ▸ several)⟩

variable {values : Option (List String)}

theorem holds_identitySet (member : (key, entry) ∈ discovered runtime scopedTools) :
    holds (identitySetFrom values (discovered runtime scopedTools)) key = true ↔
      ∃ keys, values = some keys ∧ Names keys entry.mcpId entry.toolName := by
  cases values with
  | none => simp [holds, identitySetFrom]
  | some keys =>
    obtain ⟨identity, -⟩ := mem_discovered member
    simp only [holds, identitySetFrom, Option.map_some, Option.any_some, List.contains_iff_mem,
      List.mem_map, List.mem_filter, Bool.or_eq_true, Option.some.injEq, exists_eq_left']
    constructor
    · rintro ⟨⟨name, other⟩, ⟨listed, named⟩, rfl⟩
      obtain ⟨-, rfl⟩ := Prod.mk.inj (List.inj_on_of_nodup_map discovered_nodup listed member rfl)
      rw [identity] at named
      exact named
    · intro named
      refine ⟨(key, entry), ⟨member, ?_⟩, rfl⟩
      rw [identity]
      exact named

theorem hasActiveCapability_iff {state : ReleaseCapabilityState} {capability : String} {now : Int} :
    hasActiveCapability runtime state capability now = true ↔ Held runtime state capability now := by
  unfold Held
  cases state with
  | legacyUnenrolled => simp [hasActiveCapability]
  | enrolledInactive environment reason => simp [hasActiveCapability]
  | active claim =>
    simp only [hasActiveCapability, Bool.and_eq_true, Option.any_eq_true, decide_eq_true_eq,
      List.contains_iff_mem, ReleaseCapabilityState.active.injEq]
    constructor
    · rintro ⟨⟨expiresAt, parsed, later⟩, listed⟩
      exact ⟨claim, expiresAt, rfl, parsed, later, listed⟩
    · rintro ⟨_, expiresAt, rfl, parsed, later, listed⟩
      exact ⟨⟨expiresAt, parsed, later⟩, listed⟩

theorem inactive_not_held {state : ReleaseCapabilityState} {now : Int}
    {reason : EffectiveToolBlockedReason} (capability : String)
    (inactive : inactiveReleaseReason runtime state now = some reason) :
    state ≠ .legacyUnenrolled ∧ ¬ Held runtime state capability now := by
  constructor
  · rintro rfl
    cases inactive
  · rintro ⟨claim, expiresAt, rfl, parsed, later, -⟩
    simp only [inactiveReleaseReason, parsed, if_neg (not_le.mpr later)] at inactive
    cases inactive

theorem releaseReason_eq_none :
    releaseReason runtime params (toolIdentityKey mcpId toolName) (qualifiedToolKey mcpId toolName) = none ↔
      ∀ capability, requiredCapability params (toolIdentityKey mcpId toolName)
          (qualifiedToolKey mcpId toolName) = some capability → params.releaseState = .legacyUnenrolled ∨
          Held runtime params.releaseState capability params.now := by
  unfold releaseReason
  split
  · rename_i ungated
    simp [ungated]
  · rename_i capability gated
    simp only [gated, Option.some.injEq, forall_eq']
    split
    · rename_i reason inactive
      obtain ⟨enrolled, unheld⟩ := inactive_not_held capability inactive
      simp [enrolled, unheld]
    · rw [← hasActiveCapability_iff]
      split
      · rename_i lacking
        simp [lacking.1, lacking.2]
      · rename_i fine
        simp only [true_iff]
        by_cases legacy : params.releaseState = .legacyUnenrolled
        · exact .inl legacy
        · right
          by_contra lacking
          exact fine ⟨legacy, by simpa using lacking⟩

theorem first_reason {condition : Prop} [Decidable condition] {ρ : Type} {reason : ρ} {rest : Option ρ} :
    (if condition then some reason else rest) = none ↔ ¬ condition ∧ rest = none := by
  by_cases first : condition <;> simp [first]

theorem last_reason {condition : Bool} {ρ : Type} {reason : ρ} {before : Option ρ} :
    (if (before.isNone && condition) = true then some reason else before) = none ↔
      before = none ∧ ¬ condition = true := by
  cases before <;> cases condition <;> simp

theorem listed_iff {set : Option (List String)} {item : String} :
    ¬ (set.isSome = true ∧ ¬ holds set item = true) ↔ ∀ items, set = some items → item ∈ items := by
  cases set <;> simp [holds]

theorem every_iff {names : List String → Prop} :
    ¬ (values.isSome = true ∧ ∀ keys, values = some keys → ¬ names keys) ↔
      ∀ keys, values = some keys → names keys := by
  cases values <;> simp

theorem none_iff {names : List String → Prop} :
    (¬ ∃ keys, values = some keys ∧ names keys) ↔ ∀ keys, values = some keys → ¬ names keys := by
  cases values <;> simp

theorem policy_iff {policy : Option (String → String → String → Bool)} {toolKey toolName mcpId : String} :
    ¬ (policy.any fun allows => !allows toolKey toolName mcpId) = true ↔
      ∀ allows, policy = some allows → allows toolKey toolName mcpId = true := by
  cases policy <;> simp

theorem blockedReason_eq_none (member : (key, entry) ∈ discovered runtime params.scopedTools) :
    blockedReason runtime params key entry = none ↔ Admitted runtime params entry.mcpId entry.toolName := by
  obtain ⟨identity, listed⟩ := mem_discovered member
  have duplicate := duplicate_iff runtime params.scopedTools entry.mcpId (discoveredTools_named listed)
  have key_identity : key = toolIdentityKey entry.mcpId entry.toolName := identity
  have given : (identitySetFrom params.grantedToolKeys
      (discovered runtime params.scopedTools)).isSome = params.grantedToolKeys.isSome :=
    Option.isSome_map
  simp only [blockedReason, last_reason]
  simp only [first_reason, Bool.and_eq_true, Bool.not_eq_true', ← Bool.not_eq_true, given,
    holds_identitySet member, listed_iff, every_iff, none_iff, policy_iff]
  simp only [key_identity, duplicate, not_lt]
  constructor
  · rintro ⟨⟨⟨alone, connected, granted, trusted, policy, released⟩, approved⟩, clear⟩
    exact ⟨alone, connected, granted, trusted, policy, releaseReason_eq_none.mp released, approved, clear⟩
  · intro admitted
    exact ⟨⟨⟨admitted.alone, admitted.connected, admitted.granted, admitted.trusted,
      admitted.policy, releaseReason_eq_none.mpr admitted.released⟩, admitted.approved⟩,
      admitted.clear⟩

theorem sortedDiscovered_perm : (sortedDiscovered runtime params).Perm (discovered runtime params.scopedTools) :=
  sortedByText_perm runtime _ _

theorem mem_sortedDiscovered :
    (key, entry) ∈ sortedDiscovered runtime params ↔ (key, entry) ∈ discovered runtime params.scopedTools :=
  sortedDiscovered_perm.mem_iff

theorem mem_allowedTools :
    entry ∈ allowedTools runtime params ↔ (entry.identityKey, entry) ∈ discovered runtime params.scopedTools ∧
        Admitted runtime params entry.mcpId entry.toolName := by
  simp only [allowedTools, List.mem_map, List.mem_filter, Option.isNone_iff_eq_none]
  constructor
  · rintro ⟨⟨key, found⟩, ⟨listed, unblocked⟩, rfl⟩
    have member := mem_sortedDiscovered.mp listed
    obtain ⟨rfl, -⟩ := mem_discovered member
    exact ⟨member, (blockedReason_eq_none member).mp unblocked⟩
  · rintro ⟨member, admitted⟩
    exact ⟨(entry.identityKey, entry), ⟨mem_sortedDiscovered.mpr member,
      (blockedReason_eq_none member).mpr admitted⟩, rfl⟩

theorem allowedKey_iff :
    qualifiedToolKey mcpId toolName ∈ (allowedTools runtime params).map DiscoveredTool.toolKey ↔
      Discovered params.scopedTools mcpId toolName ∧ Admitted runtime params mcpId toolName := by
  rw [List.mem_map]
  constructor
  · rintro ⟨entry, listed, same⟩
    obtain ⟨rfl, rfl⟩ := DiscoveredTool.toolKey_iff.mp same
    obtain ⟨member, admitted⟩ := mem_allowedTools.mp listed
    exact ⟨(discovered_iff runtime).mpr ⟨entry, member⟩, admitted⟩
  · rintro ⟨found, admitted⟩
    obtain ⟨entry, member⟩ := (discovered_iff runtime).mp found
    obtain ⟨identity, -⟩ := mem_discovered member
    obtain ⟨rfl, rfl⟩ := DiscoveredTool.identityKey_iff.mp identity.symm
    exact ⟨entry, mem_allowedTools.mpr ⟨member, admitted⟩, rfl⟩

theorem keys_split {ρ : Type} (items : List (String × DiscoveredTool)) (reason : String × DiscoveredTool → Option ρ) :
    (((items.filter fun item => (reason item).isNone).map fun item => item.2.toolKey) ++
        (items.filterMap fun item => (reason item).map fun _ => item.2.toolKey)).Perm
      (items.map fun item => item.2.toolKey) := by
  induction items with
  | nil => exact List.Perm.refl _
  | cons item items ih =>
    cases given : reason item with
    | none => simpa [given] using ih
    | some found =>
      have moved : ∀ front back : List String, (front ++ item.2.toolKey :: back).Perm
          (item.2.toolKey :: (front ++ back)) := fun _ _ => List.perm_middle
      simpa [given] using (moved _ _).trans (ih.cons _)

theorem keys_perm :
    ((allowedTools runtime params).map DiscoveredTool.toolKey ++
        (blockedTools runtime params).map EffectiveToolBlockedEntry.toolKey).Perm
      (((discovered runtime params.scopedTools).map fun entry => entry.2.toolKey) ++
        undiscoveredGates runtime params) := by
  have sorted := (sortedByText_perm runtime EffectiveToolBlockedEntry.toolKey
    (((sortedDiscovered runtime params).filterMap fun entry =>
        (blockedReason runtime params entry.1 entry.2).map fun reason =>
          EffectiveToolBlockedEntry.mk entry.2.toolKey reason) ++
      (undiscoveredGates runtime params).map fun toolKey =>
        EffectiveToolBlockedEntry.mk toolKey .notDiscovered)).map EffectiveToolBlockedEntry.toolKey
  have split := keys_split (sortedDiscovered runtime params) fun entry =>
    blockedReason runtime params entry.1 entry.2
  have all := split.trans (sortedDiscovered_perm.map fun entry => entry.2.toolKey)
  rw [List.map_append, List.map_filterMap, List.map_map] at sorted
  simp only [Option.map_map, Function.comp_def, List.map_id'] at sorted
  have listed := (sorted.append_left ((allowedTools runtime params).map DiscoveredTool.toolKey))
  rw [← List.append_assoc] at listed
  refine listed.trans (List.Perm.append_right _ ?_)
  simpa [allowedTools, Function.comp_def] using all

theorem discovered_key_count (found : Discovered params.scopedTools mcpId toolName) :
    ((discovered runtime params.scopedTools).map fun entry => entry.2.toolKey).count
      (qualifiedToolKey mcpId toolName) = 1 := by
  have once : ((discovered runtime params.scopedTools).map fun entry =>
      entry.2.toolKey).Nodup := by
    refine List.Nodup.map_on ?_ (List.Nodup.of_map _ discovered_nodup)
    rintro ⟨key, entry⟩ member ⟨other, second⟩ others same
    obtain ⟨identity, -⟩ := mem_discovered member
    obtain ⟨otherIdentity, -⟩ := mem_discovered others
    have pair := DiscoveredTool.toolKey_iff.mp same
    have keys : key = other := by
      rw [identity, otherIdentity]
      exact DiscoveredTool.identityKey_iff.mpr pair
    exact List.inj_on_of_nodup_map discovered_nodup member others keys
  obtain ⟨entry, member⟩ := (discovered_iff runtime).mp found
  obtain ⟨identity, -⟩ := mem_discovered member
  have key := DiscoveredTool.toolKey_iff.mpr (DiscoveredTool.identityKey_iff.mp identity.symm)
  exact List.count_eq_one_of_mem once (List.mem_map.mpr ⟨_, member, key⟩)

theorem discovered_listed_once (runtime : Runtime) (found : Discovered params.scopedTools mcpId toolName) :
    ((allowedTools runtime params).map DiscoveredTool.toolKey ++
        (blockedTools runtime params).map EffectiveToolBlockedEntry.toolKey).count
      (qualifiedToolKey mcpId toolName) = 1 := by
  have gates : (undiscoveredGates runtime params).count (qualifiedToolKey mcpId toolName) = 0 := by
    rw [List.count_eq_zero]
    intro gate
    have undiscovered := (List.mem_filter.mp gate).2
    obtain ⟨entry, member⟩ := (discovered_iff runtime).mp found
    obtain ⟨identity, -⟩ := mem_discovered member
    have key := DiscoveredTool.toolKey_iff.mpr (DiscoveredTool.identityKey_iff.mp identity.symm)
    simp only [Bool.and_eq_true, Bool.not_eq_true', List.contains_eq_mem, decide_eq_false_iff_not] at undiscovered
    exact undiscovered.2 (List.mem_map.mpr ⟨_, member, key⟩)
  rw [keys_perm.count_eq, List.count_append, discovered_key_count found, gates]

theorem freezeToolsByMcp_ok (entries : List (String × McpToolDef))
    (plain : ∀ entry ∈ entries, entry.1 ∉ inheritedNames) :
    freezeToolsByMcp entries = .ok (Record.ofItems entries) := by
  unfold freezeToolsByMcp
  rw [if_neg]
  · rfl
  · simpa using plain

/-- What the inventory asks of the tools, whatever the restrictions: JSON of a bounded size,
few enough of them, and no server with a name that objects inherit. -/
structure Buildable (runtime : Runtime) (scopedTools : ToolsByMcp) : Prop where
  finite : finiteNumbers (inventoryJson scopedTools) = true
  bounded : jsonNodes (inventoryJson scopedTools) ≤ 100000
  few : (discoveredTools runtime scopedTools).length ≤ maxDiscoveredTools
  plain : ∀ server ∈ scopedTools.entries, server.1 ∉ inheritedNames

theorem buildable_returns (buildable : Buildable runtime params.scopedTools) :
    ∃ inventory, buildEffectiveToolInventory runtime params = .ok inventory := by
  have snapshot : snapshotToolsByMcp params.scopedTools = .ok params.scopedTools := by
    have room : 0 + jsonNodes (inventoryJson params.scopedTools) ≤ 100000 := by
      simpa using buildable.bounded
    rw [snapshotToolsByMcp, assertJsonLike_ok _ 0 buildable.finite room]
    rfl
  have servers : ∀ key entry, (key, entry) ∈ discovered runtime params.scopedTools →
      entry.mcpId ∉ inheritedNames := by
    intro key entry member
    obtain ⟨server, listed, tool, -, found⟩ := mem_discoveredTools.mp (mem_discovered member).2
    rw [discoveredTool_server found]
    exact buildable.plain server listed
  have allServers : ∀ pair ∈ (discovered runtime params.scopedTools).map fun entry =>
      (entry.2.mcpId, entry.2.tool), pair.1 ∉ inheritedNames := by
    intro pair member
    obtain ⟨⟨key, entry⟩, listed, rfl⟩ := List.mem_map.mp member
    exact servers key entry listed
  have allowedServers : ∀ pair ∈ (allowedTools runtime params).map fun entry =>
      (entry.mcpId, entry.tool), pair.1 ∉ inheritedNames := by
    intro pair member
    obtain ⟨entry, listed, rfl⟩ := List.mem_map.mp member
    exact servers _ entry (mem_allowedTools.mp listed).1
  have few := Nat.not_lt.mpr buildable.few
  simp only [buildEffectiveToolInventory, snapshot, freezeToolsByMcp_ok _ allServers,
    freezeToolsByMcp_ok _ allowedServers, if_neg few, bind, Except.bind]
  exact ⟨_, rfl⟩

theorem built_lists {inventory : EffectiveToolInventory}
    (built : buildEffectiveToolInventory runtime params = .ok inventory) :
    inventory.allowedToolKeys = (allowedTools runtime params).map DiscoveredTool.toolKey ∧
      inventory.blocked = blockedTools runtime params ∧
      inventory.namesFingerprint = runtime.sha256 (canonicalJson runtime (namesJson inventory.allowedToolKeys)) := by
  obtain ⟨rawScopedTools, -, counted⟩ := Transaction.except_bind_ok.mp built
  split at counted
  · cases counted
  · obtain ⟨_, -, frozen⟩ := Transaction.except_bind_ok.mp counted
    obtain ⟨_, -, made⟩ := Transaction.except_bind_ok.mp frozen
    cases made
    exact ⟨rfl, rfl, rfl⟩

def plainRuntime : Runtime where
  numberText value := toString value.num
  localeCompare := compare
  sha256 text := text
  parseDate _ := none

def namedTool (name : String) : McpToolDef where
  fields := [("name", .string name)]
  named := rfl

end Lobu.Tools
