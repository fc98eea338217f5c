import Lobu.Tools.Eligibility
import Lobu.Tools.RuntimeCatalog

namespace Lobu.Tools

open Lobu.Foundation
open Lobu.Worker (trimmed)

/-! # The authorization boundary

Whatever a request says, the tool that is called for it is one that the
inventory allows, and the one that the request names.
-/

variable {runtime : CallRuntime} {params : BuildRuntimeToolCatalogParams}
variable {catalog : List RuntimeToolCatalogEntry} {entry other : RuntimeToolCatalogEntry}
variable {toolName : String} {mcpId : Option String}

def CatalogSource.identityKey (source : CatalogSource) : String :=
  toolIdentityKey source.mcpId source.toolName

theorem representative_identity {group : List CatalogSource} {found : CatalogSource × Bool}
    (represented : representative runtime group = some found) :
    ∃ source ∈ group, source.identityKey = found.1.identityKey := by
  obtain ⟨source, first, rfl⟩ := Option.map_eq_some_iff.mp represented
  have member := List.mem_of_mem_head? (Option.mem_def.mpr first)
  exact ⟨source, (List.mem_insertionSort _).mp member, rfl⟩

theorem catalogSources_nodup (allTools : ToolsByMcp) :
    ((catalogSources runtime allTools).map fun source => source.1.identityKey).Nodup := by
  have groups := grouped_nodup ((catalogTools runtime allTools).map fun source =>
    (source.identityKey, source))
  have keyed : ∀ group ∈ grouped ((catalogTools runtime allTools).map fun source =>
      (source.identityKey, source)), ∀ source ∈ group.2, source.identityKey = group.1 := by
    rintro ⟨key, group⟩ member source inside
    obtain ⟨rfl, -⟩ := mem_grouped.mp member
    obtain ⟨listed, -, pair⟩ := List.mem_map.mp (mem_itemsUnder.mp inside)
    cases pair
    rfl
  have kept : ∀ groups : List (String × List CatalogSource),
      (∀ group ∈ groups, ∀ source ∈ group.2, source.identityKey = group.1) →
      ((groups.filterMap fun group => representative runtime group.2).map fun source =>
        source.1.identityKey).Sublist (groups.map Prod.fst) := by
    intro groups keyed
    induction groups with
    | nil => exact List.Sublist.refl _
    | cons group groups ih =>
      have rest := ih fun group member => keyed group (List.mem_cons_of_mem _ member)
      rw [List.filterMap_cons]
      split
      · exact rest.cons _
      · rename_i found represented
        obtain ⟨source, inside, identity⟩ := representative_identity represented
        rw [List.map_cons, List.map_cons, ← identity, keyed group List.mem_cons_self source inside]
        exact rest.cons_cons _
  exact ((List.perm_insertionSort _ _).map _).nodup_iff.mpr (groups.sublist (kept _ keyed))

theorem catalog_nodup (built : buildRuntimeToolCatalog runtime params = .ok catalog) :
    (catalog.map fun entry => toolIdentityKey entry.mcpId entry.name).Nodup := by
  obtain ⟨allTools, -, made⟩ := Transaction.except_bind_ok.mp built
  cases made
  rw [List.map_map]
  exact (catalogSources_nodup allTools).sublist (List.filter_sublist.map _)

theorem catalog_entry_unique (built : buildRuntimeToolCatalog runtime params = .ok catalog)
    (member : entry ∈ catalog) (others : other ∈ catalog) (server : entry.mcpId = other.mcpId)
    (name : entry.name = other.name) : entry = other := by
  apply List.inj_on_of_nodup_map (catalog_nodup built) member others
  rw [server, name]

theorem find_found (found : findRuntimeToolCatalogEntry catalog toolName mcpId = .found entry) :
    entry ∈ catalog ∧ isRequested toolName mcpId entry = true ∧
      (requestedServer mcpId = none → '/' ∉ (trimmed toolName).toList →
        ∀ other ∈ catalog, isRequested toolName mcpId other = true → other = entry) := by
  unfold findRuntimeToolCatalogEntry at found
  split at found
  · cases found
  · rename_i first others shape
    split at found
    · cases found
    · rename_i certain
      cases found
      have member : ∀ other, other ∈ entry :: others ↔ other ∈ catalog ∧ isRequested toolName mcpId other = true := by
        intro other
        rw [← shape, List.mem_filter]
      obtain ⟨listed, requested⟩ := (member entry).mp List.mem_cons_self
      refine ⟨listed, requested, ?_⟩
      intro unnamed plain other inside named
      have alone : others = [] := by simpa [unnamed, plain] using certain
      subst alone
      exact List.mem_singleton.mp ((member other).mpr ⟨inside, named⟩)

theorem find_only (member : entry ∈ catalog) (requested : isRequested toolName mcpId entry = true)
    (once : (catalog.map fun entry => toolIdentityKey entry.mcpId entry.name).Nodup)
    (only : ∀ other ∈ catalog, isRequested toolName mcpId other = true → other = entry) :
    findRuntimeToolCatalogEntry catalog toolName mcpId = .found entry := by
  have matched : catalog.filter (isRequested toolName mcpId) = [entry] := by
    have inside := List.mem_filter.mpr ⟨member, requested⟩
    have distinct := (List.Nodup.of_map _ once).filter (isRequested toolName mcpId)
    cases shape : catalog.filter (isRequested toolName mcpId) with
    | nil =>
      rw [shape] at inside
      cases inside
    | cons first others =>
      rw [shape] at distinct
      have same : ∀ other ∈ first :: others, other = entry := by
        intro other listed
        rw [← shape, List.mem_filter] at listed
        exact only other listed.1 listed.2
      cases others with
      | nil => rw [same first List.mem_cons_self]
      | cons second others =>
        have equal := (same first List.mem_cons_self).trans
          (same second (List.mem_cons_of_mem _ List.mem_cons_self)).symm
        rw [equal] at distinct
        exact absurd List.mem_cons_self (List.nodup_cons.mp distinct).1
  rw [findRuntimeToolCatalogEntry, matched]
  simp

theorem find_ambiguous (member : entry ∈ catalog) (others : other ∈ catalog)
    (different : entry ≠ other) (requested : isRequested toolName mcpId entry = true)
    (too : isRequested toolName mcpId other = true) (unnamed : requestedServer mcpId = none)
    (plain : '/' ∉ (trimmed toolName).toList) :
    ∃ candidates, findRuntimeToolCatalogEntry catalog toolName mcpId = .ambiguous candidates := by
  have inside := List.mem_filter.mpr ⟨member, requested⟩
  have second := List.mem_filter.mpr ⟨others, too⟩
  unfold findRuntimeToolCatalogEntry
  split
  · rename_i empty
    rw [empty] at inside
    cases inside
  · rename_i first rest shape
    rw [shape] at inside second
    have several : rest ≠ [] := by
      rintro rfl
      rw [List.mem_singleton] at inside second
      exact different (inside.trans second.symm)
    simp [unnamed, plain, several]

/-- What is called for a request: once, with its arguments, and only what it names. -/
structure Calls (inventory : EffectiveToolInventory) (request : DispatchRuntimeToolCallParams)
    (call : RuntimeToolCall) : Prop where
  allowed : isEffectiveToolAllowed inventory call.mcpId call.toolName = true
  args : call.args = request.args
  catalogued : ∃ entry ∈ request.catalog, entry.mcpId = call.mcpId ∧ entry.name = call.toolName
  pair : ∀ server, request.mcpId = some server → trimmed server = server → server ≠ "" →
    call.mcpId = server ∧ call.toolName = trimmed request.toolName
  key : request.mcpId = none → call.toolName = trimmed request.toolName ∨
    qualifiedToolKey call.mcpId call.toolName = trimmed request.toolName
  sole : request.mcpId = none → '/' ∉ (trimmed request.toolName).toList →
    ∀ entry ∈ request.catalog, entry.name = trimmed request.toolName → entry.mcpId = call.mcpId

theorem requestedServer_named {server : String} (trim : trimmed server = server)
    (named : server ≠ "") : requestedServer (some server) = some server := by
  simp [requestedServer, Option.filter, trim, named]

theorem isRequested_pair {server : String} (trim : trimmed server = server) (named : server ≠ "") :
    isRequested toolName (some server) entry = true ↔ entry.mcpId = server ∧ entry.name = trimmed toolName := by
  simp [isRequested, requestedServer_named trim named]

theorem isRequested_name :
    isRequested toolName none entry = true ↔ entry.name = trimmed toolName ∨ entry.toolKey = trimmed toolName := by
  simp [isRequested, requestedServer]

theorem isRequested_plain (plain : '/' ∉ (trimmed toolName).toList) :
    isRequested toolName none entry = true ↔ entry.name = trimmed toolName := by
  rw [isRequested_name]
  constructor
  · rintro (same | same)
    · exact same
    · rw [← same] at plain
      exact absurd (slash_mem_qualifiedToolKey _ _) plain
  · exact .inl

variable {inventory : EffectiveToolInventory} {request : DispatchRuntimeToolCallParams}

theorem refusal_none (cleared : refusal runtime request entry = none)
    (boundary : request.allowedToolKeys = some inventory.allowedToolKeys) :
    isEffectiveToolAllowed inventory entry.mcpId entry.name = true := by
  unfold refusal at cleared
  split at cleared
  · cases cleared
  · split at cleared
    · cases cleared
    · rename_i inside
      simpa [boundary, isEffectiveToolAllowed, RuntimeToolCatalogEntry.toolKey] using inside

theorem found_calls (found : findRuntimeToolCatalogEntry request.catalog request.toolName
      request.mcpId = .found entry) (allowed : isEffectiveToolAllowed inventory entry.mcpId entry.name = true) :
    Calls inventory request ⟨entry.mcpId, entry.name, request.args⟩ := by
  obtain ⟨member, requested, sole⟩ := find_found found
  refine ⟨allowed, rfl, ⟨entry, member, rfl, rfl⟩, ?_, ?_, ?_⟩
  · intro server given trim named
    rw [given] at requested
    exact (isRequested_pair trim named).mp requested
  · intro unnamed
    rw [unnamed] at requested
    exact isRequested_name.mp requested
  · intro unnamed plain other listed same
    have first := sole (by rw [unnamed]; rfl) plain other listed
    rw [unnamed] at first
    rw [first ((isRequested_plain plain).mpr same)]

theorem dispatch_calls (boundary : request.allowedToolKeys = some inventory.allowedToolKeys) :
    (dispatchRuntimeToolCall runtime request).Keeps
      (fun said call => said = [] ∧ Calls inventory request call) (fun _ _ => True) (fun _ _ => True) [] := by
  unfold dispatchRuntimeToolCall
  split
  · trivial
  · trivial
  · rename_i entry found
    split
    · trivial
    · rename_i cleared
      exact ⟨⟨rfl, found_calls found (refusal_none cleared boundary)⟩, fun _ _ => trivial⟩

/-- The request comes to the entry: it is called unless something about it forbids the call. -/
def Reaches (runtime : CallRuntime) (request : DispatchRuntimeToolCallParams)
    (entry : RuntimeToolCatalogEntry) : Prop :=
  match refusal runtime request entry with
  | some result => dispatchRuntimeToolCall runtime request = .done result
  | none => ∃ next, dispatchRuntimeToolCall runtime request =
      .ask ⟨entry.mcpId, entry.name, request.args⟩ next

theorem reaches_of_found (found : findRuntimeToolCatalogEntry request.catalog request.toolName
    request.mcpId = .found entry) : Reaches runtime request entry := by
  unfold Reaches
  cases refused : refusal runtime request entry with
  | some result => simp only [dispatchRuntimeToolCall, found, refused]
  | none =>
    refine ⟨fun answer => .done (answered runtime entry answer), ?_⟩
    simp only [dispatchRuntimeToolCall, found, refused]

structure Dispatches (runtime : CallRuntime) (inventory : EffectiveToolInventory)
    (request : DispatchRuntimeToolCallParams) : Prop where
  calls : (dispatchRuntimeToolCall runtime request).Keeps
    (fun said call => said = [] ∧ Calls inventory request call) (fun _ _ => True)
    (fun _ _ => True) []
  pair : ∀ entry ∈ request.catalog, request.mcpId = some entry.mcpId →
    trimmed entry.mcpId = entry.mcpId → entry.mcpId ≠ "" →
      entry.name = trimmed request.toolName → Reaches runtime request entry
  qualified : ∀ entry ∈ request.catalog, request.mcpId = none →
    entry.toolKey = trimmed request.toolName →
      (∀ other ∈ request.catalog, other.name ≠ trimmed request.toolName) →
        Reaches runtime request entry
  ambiguous : ∀ entry ∈ request.catalog, ∀ other ∈ request.catalog, entry ≠ other →
    request.mcpId = none → '/' ∉ (trimmed request.toolName).toList →
      entry.name = trimmed request.toolName → other.name = trimmed request.toolName →
        ∃ message candidates, dispatchRuntimeToolCall runtime request =
          .done (.failed .ambiguousTool message none candidates)

theorem catalog_dispatches (built : buildRuntimeToolCatalog runtime params = .ok request.catalog)
    (boundary : request.allowedToolKeys = some inventory.allowedToolKeys) : Dispatches runtime inventory request where
  calls := dispatch_calls boundary
  pair := by
    intro entry member given trim named same
    apply reaches_of_found
    rw [given]
    apply find_only member ((isRequested_pair trim named).mpr ⟨rfl, same⟩) (catalog_nodup built)
    intro other listed requested
    obtain ⟨server, name⟩ := (isRequested_pair trim named).mp requested
    exact catalog_entry_unique built listed member server (name.trans same.symm)
  qualified := by
    intro entry member given key unborne
    apply reaches_of_found
    rw [given]
    apply find_only member (isRequested_name.mpr (.inr key)) (catalog_nodup built)
    intro other listed requested
    rcases isRequested_name.mp requested with name | too
    · exact absurd name (unborne other listed)
    · obtain ⟨server, name⟩ := qualifiedToolKey_inj.mp (too.trans key.symm)
      exact catalog_entry_unique built listed member server name
  ambiguous := by
    intro entry member other listed different given plain name too
    have requested : isRequested request.toolName request.mcpId entry = true := by
      rw [given, isRequested_plain plain, name]
    have alike : isRequested request.toolName request.mcpId other = true := by
      rw [given, isRequested_plain plain, too]
    have unnamed : requestedServer request.mcpId = none := by
      rw [given]
      rfl
    obtain ⟨candidates, several⟩ :=
      find_ambiguous member listed different requested alike unnamed plain
    unfold dispatchRuntimeToolCall
    rw [several]
    exact ⟨_, _, rfl⟩

/-- Every discovered pair is in one of the two lists, once, and it is in that of the allowed
ones where every restriction admits it. -/
structure Partitions (runtime : Runtime) (params : BuildEffectiveToolInventoryParams)
    (inventory : EffectiveToolInventory) : Prop where
  once : ∀ mcpId toolName, Discovered params.scopedTools mcpId toolName →
    (inventory.allowedToolKeys ++ inventory.blocked.map EffectiveToolBlockedEntry.toolKey).count
      (qualifiedToolKey mcpId toolName) = 1
  allowed : ∀ mcpId toolName, isEffectiveToolAllowed inventory mcpId toolName = true ↔
    Discovered params.scopedTools mcpId toolName ∧ Admitted runtime params mcpId toolName

theorem one_authorization_boundary (runtime : CallRuntime) (params : BuildEffectiveToolInventoryParams) :
    (Buildable runtime.toRuntime params.scopedTools →
      ∃ inventory, buildEffectiveToolInventory runtime.toRuntime params = .ok inventory) ∧
    ∀ inventory, buildEffectiveToolInventory runtime.toRuntime params = .ok inventory →
      Partitions runtime.toRuntime params inventory ∧
      ∀ catalogParams request, catalogParams.allTools = params.scopedTools →
        buildRuntimeToolCatalog runtime catalogParams = .ok request.catalog →
        request.allowedToolKeys = some inventory.allowedToolKeys → Dispatches runtime inventory request := by
  refine ⟨buildable_returns, ?_⟩
  intro inventory built
  obtain ⟨allowed, blocked, -⟩ := built_lists built
  refine ⟨⟨?_, ?_⟩, ?_⟩
  · intro mcpId toolName found
    rw [allowed, blocked]
    exact discovered_listed_once runtime.toRuntime found
  · intro mcpId toolName
    rw [isEffectiveToolAllowed, List.contains_iff_mem, allowed]
    exact allowedKey_iff
  · intro catalogParams request _ catalogued boundary
    exact catalog_dispatches catalogued boundary

def plainCallRuntime : CallRuntime where
  toRuntime := plainRuntime
  letters := asciiLowerCase
  parseUrl _ := none
  checkSchema _ _ := none

/-- One tool, gated on a capability, for an agent without releases. -/
def gatedParams : BuildEffectiveToolInventoryParams where
  scopedTools := { entries := [("mcp", [namedTool "wipe"])] }
  releaseState := .legacyUnenrolled
  releaseCapabilityByToolKey := some { entries := [("mcp/wipe", "wipe.v1")] }
  now := 0

theorem gatedParams_buildable : Buildable plainRuntime gatedParams.scopedTools where
  finite := by decide
  bounded := by decide
  few := by decide
  plain := by decide

theorem gatedParams_discovered : Discovered gatedParams.scopedTools "mcp" "wipe" :=
  ⟨by decide, by decide⟩

theorem gatedParams_admitted : Admitted plainRuntime gatedParams "mcp" "wipe" where
  alone := by decide
  connected := by rintro _ ⟨⟩
  granted := by rintro _ ⟨⟩
  trusted := by rintro _ ⟨⟩
  policy := by rintro _ ⟨⟩
  released := fun _ _ => .inl rfl
  approved := by rintro _ ⟨⟩
  clear := by rintro _ ⟨⟩

/-- The gated tool is allowed, though its capability is not held. -/
theorem gate_open_without_releases :
    ∃ inventory, buildEffectiveToolInventory plainRuntime gatedParams = .ok inventory ∧
      isEffectiveToolAllowed inventory "mcp" "wipe" = true ∧
      requiredCapability gatedParams (toolIdentityKey "mcp" "wipe") (qualifiedToolKey "mcp" "wipe") = some "wipe.v1" ∧
      ¬ Held plainRuntime gatedParams.releaseState "wipe.v1" gatedParams.now := by
  obtain ⟨inventory, built⟩ := buildable_returns gatedParams_buildable
  refine ⟨inventory, built, ?_, by decide, ?_⟩
  · rw [isEffectiveToolAllowed, List.contains_iff_mem, (built_lists built).1]
    exact allowedKey_iff.mpr ⟨gatedParams_discovered, gatedParams_admitted⟩
  · rintro ⟨claim, expiresAt, active, -⟩
    cases active

def gatedCatalogParams : BuildRuntimeToolCatalogParams where
  allTools := gatedParams.scopedTools
  selectedTools := { entries := [] }

theorem one_authorization_boundary_of_one_tool :
    ∃ inventory request, buildEffectiveToolInventory plainRuntime gatedParams = .ok inventory ∧
      request.catalog.length = 1 ∧ Dispatches plainCallRuntime inventory request := by
  obtain ⟨built, holds⟩ := one_authorization_boundary plainCallRuntime gatedParams
  obtain ⟨inventory, made⟩ := built gatedParams_buildable
  have catalogued : ∃ catalog, buildRuntimeToolCatalog plainCallRuntime gatedCatalogParams =
      .ok catalog ∧ catalog.length = 1 := ⟨_, rfl, by decide⟩
  obtain ⟨catalog, found, single⟩ := catalogued
  let request : DispatchRuntimeToolCallParams :=
    { catalog, allowedToolKeys := some inventory.allowedToolKeys, toolName := "wipe",
      args := .object [] }
  exact ⟨inventory, request, made, single, (holds inventory made).2 gatedCatalogParams request rfl found rfl⟩

end Lobu.Tools
