import Lobu.Proxy.DomainAccess
import Lobu.Proxy.GrantLookup

namespace Lobu.Proxy

open Lobu.Foundation

/-! # What a decision respects

The global denylist refuses a host under every spelling.  A denied row refuses it too,
unless the judge is asked about the host.
-/

theorem mem_normalizeDomainPatterns {names : DomainNames} {patterns : List (List Char)} {pattern : List Char} :
    pattern ∈ normalizeDomainPatterns names patterns ↔
      (∃ written ∈ patterns, normalizeDomainPattern names written = pattern) ∧ pattern ≠ [] := by
  simp [normalizeDomainPatterns]

theorem mem_loadDisallowedDomains {names : DomainNames} {env : NetworkEnv} {pattern : List Char}
    (loaded : pattern ∈ loadDisallowedDomains names env) :
    ∃ written, normalizeDomainPattern names written = pattern := by
  unfold loadDisallowedDomains at loaded
  split at loaded
  · contradiction
  · obtain ⟨⟨written, _, normal⟩, _⟩ := mem_normalizeDomainPatterns.mp loaded
    exact ⟨written, normal⟩

theorem matches_lower {names : DomainNames} {written hostname : List Char} (settled : names.lower hostname = hostname)
    (matched : (DomainPattern.ofText (normalizeDomainPattern names written)).Matches (labels hostname)) :
    (DomainPattern.ofText (names.lower (normalizeDomainPattern names written))).Matches (labels hostname) := by
  by_cases domain : isDomainPattern written = true
  · rw [lower_normalizeDomainPattern names domain]
    exact matched
  · -- a path matches itself only, and a canonical name is in lower case
    have slash : ['/'].isPrefixOf (trim written) = true := by simpa [isDomainPattern] using domain
    have path : normalizeDomainPattern names written = trim written := by
      simp only [normalizeDomainPattern, slash, if_true]
    have undotted : ∀ domain, trim written ≠ '.' :: domain := by
      intro domain shape
      rw [shape] at slash
      contradiction
    rw [path, DomainPattern.ofText_name undotted] at matched
    have same : hostname = trim written := labels_injective matched
    rw [path, ← same, settled, same, DomainPattern.ofText_name undotted]
    rfl

/-- The denylist refuses every spelling of a name that it matches, whatever the other
lists, the grants, the rules and the judge say, and spellings of one name are decided
alike. -/
theorem denylist_dominates (names : DomainNames) (env : NetworkEnv) (state : ProxyState)
    (loaded : state.global = getGlobalConfig names env) (hostname : List Char)
    (agentId organizationId : Option String) (context : RequestContext) :
    ((∃ pattern ∈ loadDisallowedDomains names env,
        (DomainPattern.ofText pattern).Matches (labels (canonicalizeHostname names hostname))) →
      checkDomainAccess names state hostname agentId organizationId context =
        { allowed := false, source := .global }) ∧
    ∀ spelling, canonicalizeHostname names spelling = canonicalizeHostname names hostname →
      checkDomainAccess names state spelling agentId organizationId context =
        checkDomainAccess names state hostname agentId organizationId context := by
  constructor
  · rintro ⟨pattern, member, matched⟩
    have settled := lower_canonicalizeHostname names hostname
    have listed : names.lower pattern ∈ state.global.deniedDomains := by
      rw [loaded]
      exact List.mem_map_of_mem member
    obtain ⟨written, rfl⟩ := mem_loadDisallowedDomains member
    have denied : matchesDomainPattern names (canonicalizeHostname names hostname)
        state.global.deniedDomains = true := by
      rw [matchesDomainPattern_iff names settled]
      · exact ⟨_, listed, matches_lower settled matched⟩
      · rw [loaded]
        intro other among
        obtain ⟨original, _, rfl⟩ := List.mem_map.mp among
        exact names.lower_lower original
    simp only [checkDomainAccess]
    rw [if_pos ⟨List.length_pos_of_mem listed, denied⟩]
  · intro spelling same
    simp only [checkDomainAccess, same]

def evilEnv : NetworkEnv where
  allowedDomains := some "*".toList
  disallowedDomains := some "ads.example.com, *.Evil.com".toList
  sentryHost := none

/-- Everything is allowed but the denylist, and the agent has a grant for the host. -/
def evilState : ProxyState where
  global := getGlobalConfig asciiNames evilEnv
  grants := some (exampleGrants "sub.evil.com" false)
  policies := none
  judge := none
  ambient := none
  now := 0

theorem denylist_dominates_grant :
    checkDomainAccess asciiNames evilState "Sub.EVIL.com.".toList (some "agent") (some "org") {} =
      { allowed := false, source := .global } :=
  (denylist_dominates asciiNames evilEnv evilState rfl "Sub.EVIL.com.".toList (some "agent")
    (some "org") {}).1 ⟨".evil.com".toList, by decide +kernel, by decide +kernel⟩

/-- The live rows of an agent in an organization whose pattern matches a name. -/
def matchingRows (rows : List GrantRow) (now : Int) (agentId organizationId : String)
    (hostname : List Char) : List GrantRow :=
  rows.filter fun row => row.agentId == agentId && row.organizationId == organizationId &&
    row.kind == .domain && row.live now &&
      decide ((DomainPattern.ofText row.pattern).Matches (labels hostname))

/-- A name is more specific than a domain, and a longer domain than a shorter one. -/
def DomainPattern.specificity : DomainPattern → Nat
  | exactly name => 2 * name.length + 1
  | under domain => 2 * domain.length

/-- The most specific of the rows that match a name. -/
structure MostSpecific (rows : List GrantRow) (now : Int) (agentId organizationId : String)
    (hostname : List Char) (row : GrantRow) : Prop where
  matching : row ∈ matchingRows rows now agentId organizationId hostname
  first : ∀ other ∈ matchingRows rows now agentId organizationId hostname,
    (DomainPattern.ofText other.pattern).specificity ≤
      (DomainPattern.ofText row.pattern).specificity

section Denied

variable {names : DomainNames} {rows : List GrantRow} {now : Int} {agentId organizationId : String}
  {hostname : List Char} {row : GrantRow}

theorem considered_matches {pattern : DomainPattern} {host : List (List Char)}
    (considered : pattern.Considered host) : pattern.Matches host := by
  cases pattern with
  | exactly name => exact considered
  | under domain => exact considered.1

theorem found_iff_matching (names : DomainNames) (host : IsHostname hostname) (organization : organizationId ≠ "") :
    row ∈ lookupRows names rows now agentId hostname (some organizationId) ↔
      row ∈ matchingRows rows now agentId organizationId hostname ∧
        (DomainPattern.ofText row.pattern).Considered (labels hostname) := by
  have scope : orgScope (some organizationId) row = true ↔ row.organizationId = organizationId := by
    simp [orgScope, organization]
  rw [mem_lookupRows host, scope]
  simp only [matchingRows, List.mem_filter, Bool.and_eq_true, beq_iff_eq, decide_eq_true_eq]
  have matching := @considered_matches (DomainPattern.ofText row.pattern) (labels hostname)
  tauto

theorem ofText_own (host : IsHostname hostname) : DomainPattern.ofText hostname = .exactly (labels hostname) :=
  DomainPattern.ofText_name fun domain => hostname_not_dot host domain

theorem MostSpecific.own (host : IsHostname hostname)
    (most : MostSpecific rows now agentId organizationId hostname row) {other : GrantRow}
    (member : other ∈ matchingRows rows now agentId organizationId hostname)
    (pattern : other.pattern = hostname) : row.pattern = hostname := by
  have first := most.first other member
  have matched : (DomainPattern.ofText row.pattern).Matches (labels hostname) := by
    have matching := most.matching
    simp only [matchingRows, List.mem_filter, Bool.and_eq_true, decide_eq_true_eq] at matching
    exact matching.2.2
  rw [pattern, ofText_own host] at first
  by_cases wildcard : ∃ domain, row.pattern = '.' :: domain
  · obtain ⟨domain, shape⟩ := wildcard
    rw [shape] at first matched
    have short : (labels domain).length ≤ (labels hostname).length := matched.length_le
    simp only [DomainPattern.ofText, DomainPattern.specificity] at first
    omega
  · rw [DomainPattern.ofText_name fun domain shape => wildcard ⟨domain, shape⟩] at matched
    exact (labels_injective matched).symm

theorem hasGrant_iff (grants : GrantsKept names rows) (host : IsHostname hostname)
    (organization : organizationId ≠ "") (most : MostSpecific rows now agentId organizationId hostname row)
    (denied : row.denied = true) {ambient : Option String} :
    hasGrant names ambient rows now agentId hostname (some organizationId) = false ↔
      (DomainPattern.ofText row.pattern).Considered (labels hostname) ∨
        ∀ other ∈ matchingRows rows now agentId organizationId hostname,
          (DomainPattern.ofText other.pattern).Considered (labels hostname) → other.denied = true := by
  by_cases considered : (DomainPattern.ofText row.pattern).Considered (labels hostname)
  · have among := (found_iff_matching names host organization).mpr ⟨most.matching, considered⟩
    have refused : hasGrant names ambient rows now agentId hostname (some organizationId) = false := by
      apply hasGrant_denied grants host organization among denied
      intro other found pattern
      have member := ((found_iff_matching names host organization).mp found).1
      have own := most.own host member pattern
      rw [found_same grants host organization found among ⟨fun _ => own, fun _ => pattern⟩]
      exact denied
    exact ⟨fun _ => .inl considered, fun _ => refused⟩
  · have parents : ∀ other ∈ lookupRows names rows now agentId hostname (some organizationId),
        other.pattern ≠ hostname := by
      intro other found pattern
      have member := ((found_iff_matching names host organization).mp found).1
      rw [most.own host member pattern, ofText_own host] at considered
      exact considered rfl
    constructor
    · intro refused
      right
      intro other member otherConsidered
      have found := (found_iff_matching names host organization).mpr ⟨member, otherConsidered⟩
      rw [hasGrant_parent grants host organization found parents] at refused
      simpa using refused
    · rintro (own | others)
      · exact absurd own considered
      · cases listed : lookupRows names rows now agentId hostname (some organizationId) with
        | nil =>
          rw [hasGrant_eq host, Option.some_or, listed]
          rfl
        | cons first rest =>
          have found : first ∈ lookupRows names rows now agentId hostname (some organizationId) := by
            rw [listed]
            exact List.mem_cons_self
          have facts := (found_iff_matching names host organization).mp found
          rw [hasGrant_parent grants host organization found parents, others first facts.1 facts.2]
          rfl

/-- When a decision refuses a name whose most specific row denies: the lookup that is made
considers such a row, and no judge allows the name. -/
def DenyHolds (names : DomainNames) (state : ProxyState) (rows : List GrantRow)
    (agentId organizationId : String) (hostname : List Char) (context : RequestContext) (row : GrantRow) : Prop :=
  let host := labels hostname
  let matching := matchingRows rows state.now agentId organizationId hostname
  if matchesDomainPattern names hostname state.global.deniedDomains = true then True
  else if isHostnameAllowed names hostname state.global.allowedDomains
      state.global.deniedDomains = true then
    ∃ other ∈ matching, (DomainPattern.ofText other.pattern).Considered host ∧
      other.denied = true
  else
    ((DomainPattern.ofText row.pattern).Considered host ∨
      ∀ other ∈ matching, (DomainPattern.ofText other.pattern).Considered host →
        other.denied = true) ∧
      ∀ decision ∈ judgeAccess names state hostname (some agentId) (some organizationId) context,
        decision.verdict = .deny

end Denied

theorem checkDomainAccess_allowed {names : DomainNames} {state : ProxyState}
    {rows : List GrantRow} (stored : state.grants = some rows) {agentId : String}
    (agent : agentId ≠ "") (raw : List Char) (organizationId : Option String)
    (context : RequestContext) :
    let hostname := canonicalizeHostname names raw
    (checkDomainAccess names state raw (some agentId) organizationId context).allowed =
      if matchesDomainPattern names hostname state.global.deniedDomains = true then false
      else if isHostnameAllowed names hostname state.global.allowedDomains
          state.global.deniedDomains = true then
        !isDenied names state.ambient rows state.now agentId hostname organizationId
      else
        hasGrant names state.ambient rows state.now agentId hostname organizationId ||
          (judgeAccess names state hostname (some agentId) organizationId context).any
            fun decision => decision.verdict == .allow := by
  intro hostname
  have isAgent : present (some agentId) = some agentId := by simp [present, agent]
  have nonempty : (state.global.deniedDomains.length > 0 ∧
      matchesDomainPattern names hostname state.global.deniedDomains = true) ↔
        matchesDomainPattern names hostname state.global.deniedDomains = true := by
    apply and_iff_right_of_imp
    intro listed
    obtain ⟨pattern, member, _⟩ := List.any_eq_true.mp listed
    exact List.length_pos_of_mem member
  simp only [checkDomainAccess, stored, isAgent]
  rw [if_congr nonempty rfl rfl]
  split
  · rfl
  · split
    · cases isDenied names state.ambient rows state.now agentId hostname organizationId <;> rfl
    · cases hasGrant names state.ambient rows state.now agentId hostname organizationId with
      | true => rfl
      | false =>
        cases judgeAccess names state hostname (some agentId) organizationId context <;> rfl

/-- No host is allowed by the lists, the agent may not reach one, and a judge is asked
about it. -/
def judgedState (verdict : Verdict) : ProxyState where
  global := { allowedDomains := [], deniedDomains := [] }
  grants := some (exampleGrants "api.example.com" true)
  policies := some [("org|agent",
    { judgedDomains := [{ domain := ".example.com".toList, judge := none }],
      preparedJudges := [("default", { policy := "read only", policyHash := "hash" })],
      judgeModel := none })]
  judge := some fun _ rule =>
    { verdict, reason := "", source := .judge, latencyMs := 1, policyHash := rule.policyHash,
      judgeName := rule.judgeName }
  ambient := none
  now := 0

theorem judged_mostSpecific :
    MostSpecific (exampleGrants "api.example.com" true) 0 "agent" "org" "api.example.com".toList
      ⟨"org", "agent", .domain, "api.example.com".toList, none, 0, true⟩ where
  matching := by decide +kernel
  first := by decide +kernel

end Lobu.Proxy
