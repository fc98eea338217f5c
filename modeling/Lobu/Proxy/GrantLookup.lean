import Lobu.Proxy.GrantStore
import Mathlib.Data.List.Nodup

namespace Lobu.Proxy

open Lobu.Foundation

/-! # Which rows a lookup considers

The candidates of a lookup against the patterns of the proxy.  A wildcard row is
considered for names one label below its domain that have three labels or more.
-/

/-- A row as the store writes it: its pattern is normal and has its kind, and it belongs to
an organization. -/
structure GrantRow.Kept (names : DomainNames) (row : GrantRow) : Prop where
  normal : ∃ written, row.pattern = normalizeDomainPattern names written
  kind : row.kind = inferGrantKind row.pattern
  owned : row.organizationId ≠ ""

/-- The rows of a table, no two with one key. -/
structure GrantsKept (names : DomainNames) (rows : List GrantRow) : Prop where
  unique : (rows.map GrantRow.key).Nodup
  kept : ∀ row ∈ rows, row.Kept names

namespace GrantsKept

variable {names : DomainNames} {rows : List GrantRow}

theorem empty : GrantsKept names [] where
  unique := List.nodup_nil
  kept := by simp

theorem filter (grants : GrantsKept names rows) (keep : GrantRow → Bool) :
    GrantsKept names (rows.filter keep) where
  unique := grants.unique.sublist (List.filter_sublist.map GrantRow.key)
  kept row member := grants.kept row (List.mem_of_mem_filter member)

theorem revoke (grants : GrantsKept names rows) (ambient : Option String) (agentId : String)
    (pattern : List Char) (organizationId : Option String) :
    GrantsKept names (revoke names ambient rows agentId pattern organizationId) :=
  grants.filter _

theorem sweep (grants : GrantsKept names rows) (now : Int) : GrantsKept names (sweepExpiredGrants rows now) :=
  grants.filter _

theorem replace (grants : GrantsKept names rows) {row : GrantRow} (valid : row.Kept names) :
    GrantsKept names (rows.map fun other => if other.key = row.key then row else other) where
  unique := by
    have keys : (rows.map fun other => if other.key = row.key then row else other).map
        GrantRow.key = rows.map GrantRow.key := by
      rw [List.map_map]
      apply List.map_congr_left
      intro other _
      by_cases same : other.key = row.key
      · simp [same]
      · simp [same]
    rw [keys]
    exact grants.unique
  kept := by
    intro other member
    obtain ⟨original, among, rfl⟩ := List.mem_map.mp member
    split
    · exact valid
    · exact grants.kept original among

theorem insert (grants : GrantsKept names rows) {row : GrantRow} (valid : row.Kept names)
    (fresh : ∀ other ∈ rows, other.key ≠ row.key) : GrantsKept names (rows ++ [row]) where
  unique := by
    rw [List.map_append, List.map_singleton, List.nodup_append]
    refine ⟨grants.unique, List.nodup_singleton _, ?_⟩
    intro key member other last same
    rw [List.mem_singleton.mp last] at same
    obtain ⟨original, among, rfl⟩ := List.mem_map.mp member
    exact fresh original among same
  kept := by
    intro other member
    rcases List.mem_append.mp member with among | last
    · exact grants.kept other among
    · rw [List.mem_singleton.mp last]
      exact valid

theorem grant (grants : GrantsKept names rows) {ambient : Option String} {now : Int}
    {agentId : String} {pattern : List Char} {expiresAt : Option Int} {denied : Bool}
    {organizationId : Option String} {after : List GrantRow}
    (granted : grant names ambient rows now agentId pattern expiresAt denied organizationId =
      .ok after) : GrantsKept names after := by
  simp only [Proxy.grant] at granted
  split at granted
  · contradiction
  · rename_i orgId found
    have owned : orgId ≠ "" := by
      simpa using (Option.filter_eq_some_iff.mp found).2
    split at granted
    · cases granted
      exact grants.replace ⟨⟨pattern, rfl⟩, rfl, owned⟩
    · rename_i fresh
      cases granted
      apply grants.insert ⟨⟨pattern, rfl⟩, rfl, owned⟩
      intro other among same
      exact fresh (List.any_eq_true.mpr ⟨other, among, beq_iff_eq.mpr same⟩)

theorem same_row (grants : GrantsKept names rows) {row other : GrantRow} (member : row ∈ rows)
    (among : other ∈ rows) (same : row.key = other.key) : row = other :=
  List.inj_on_of_nodup_map grants.unique member among same

end GrantsKept

namespace DomainPattern

/-- The rows of these patterns are considered: a wildcard covers names directly below its
domain, of three labels or more. -/
def Considered : DomainPattern → List (List Char) → Prop
  | exactly name, host => host = name
  | under domain, host => domain <:+ host ∧ host.length = domain.length + 1 ∧ 3 ≤ host.length

instance (pattern : DomainPattern) (host : List (List Char)) :
    Decidable (pattern.Considered host) :=
  match pattern with
  | exactly name => inferInstanceAs (Decidable (host = name))
  | under domain => inferInstanceAs
      (Decidable (domain <:+ host ∧ host.length = domain.length + 1 ∧ 3 ≤ host.length))

end DomainPattern

section Hostname

variable (names : DomainNames) {hostname : List Char} (host : IsHostname hostname)
include host

theorem hostname_not_slash : ['/'].isPrefixOf hostname = false := by
  apply first_not_mem
  intro member
  have plain := host.chars _ member
  contradiction

theorem hostname_not_dot (rest : List Char) : hostname ≠ '.' :: rest := by
  rintro rfl
  have first := host.nonempty [] (by rw [labels_dot]; exact List.mem_cons_self)
  exact first rfl

theorem inferGrantKind_hostname : inferGrantKind hostname = .domain := by
  rw [inferGrantKind, hostname_not_slash host]
  rfl

theorem normalize_hostname : normalizeDomainPattern names hostname = hostname :=
  normalize_name names host.chars host.top

theorem grantCandidates_hostname : getDomainGrantCandidates names hostname = [hostname] := by
  have dot : ['.'].isPrefixOf hostname = false := by
    rw [Bool.eq_false_iff, ne_eq, List.isPrefixOf_iff_prefix]
    rintro ⟨rest, shape⟩
    exact hostname_not_dot host rest shape.symm
  simp [getDomainGrantCandidates, normalize_hostname names host, hostname_not_slash host, dot]

theorem candidates_hostname {label tail : List Char} (shape : hostname = label ++ '.' :: tail)
    (first : '.' ∉ label) (several : 2 ≤ (labels tail).length) :
    buildGrantCandidates names hostname .domain = [hostname, '.' :: tail, '.' :: tail] := by
  have parts : labels hostname = label :: labels tail := by
    rw [shape, labels, List.splitOn_append_cons_self_of_not_mem first]
    rfl
  have joined : ['.'].intercalate ((labels hostname).drop 1) = tail := by
    rw [parts, List.drop_one, List.tail_cons]
    exact List.intercalate_splitOn '.'
  have chars : ∀ c ∈ tail, isHostChar c = true := by
    intro c member
    exact host.chars c (by rw [shape]; simp [member])
  have top : topNamed tail = true := by
    rw [topNamed_of_suffix (parts ▸ List.suffix_cons label (labels tail))]
    exact host.top
  have dotted : normalizeDomainPattern names ('.' :: tail) = '.' :: tail := by
    apply normalize_name
    · intro c member
      rcases List.mem_cons.mp member with rfl | member
      · decide
      · exact chars c member
    · rw [← topNamed_of_suffix (labels_dot tail ▸ List.suffix_cons [] (labels tail))]
      exact top
  have long : (labels hostname).length > 2 := by
    rw [parts, List.length_cons]
    omega
  simp only [buildGrantCandidates, grantCandidates_hostname names host, if_pos long, joined,
    dotted, normalize_star names chars top]
  rfl

theorem candidates_short (short : (labels hostname).length ≤ 2) :
    buildGrantCandidates names hostname .domain = [hostname] := by
  simp only [buildGrantCandidates, grantCandidates_hostname names host]
  rw [if_neg (by omega)]

/-- A pattern is a candidate of a host name when it is the name or the wildcard of its
parent. -/
theorem mem_candidates_iff {pattern : List Char} :
    pattern ∈ buildGrantCandidates names hostname .domain ↔
      (DomainPattern.ofText pattern).Considered (labels hostname) := by
  by_cases wildcard : ∃ domain, pattern = '.' :: domain
  · obtain ⟨domain, rfl⟩ := wildcard
    have other : '.' :: domain ≠ hostname := (hostname_not_dot host domain).symm
    constructor
    · intro candidate
      by_cases several : 3 ≤ (labels hostname).length
      · obtain ⟨label, tail, shape, first, parts⟩ := exists_tail (by omega : 2 ≤ (labels hostname).length)
        rw [parts, List.length_cons] at several
        rw [candidates_hostname names host shape first (by omega)] at candidate
        have same : domain = tail := by simpa [other] using candidate
        rw [same]
        refine ⟨?_, ?_, ?_⟩
        · rw [parts]
          exact List.suffix_cons label (labels tail)
        · rw [parts, List.length_cons]
        · rw [parts, List.length_cons]
          omega
      · rw [candidates_short names host (by omega)] at candidate
        exact absurd (List.mem_singleton.mp candidate) other
    · rintro ⟨suffix, length, several⟩
      obtain ⟨label, tail, shape, first, parts⟩ := exists_tail (by omega : 2 ≤ (labels hostname).length)
      rw [parts] at suffix length several
      rw [List.length_cons] at length several
      have same : labels domain = labels tail := by
        rcases List.suffix_cons_iff.mp suffix with whole | tailSuffix
        · have lengths := congrArg List.length whole
          rw [List.length_cons] at lengths
          omega
        · exact tailSuffix.eq_of_length (by omega)
      rw [candidates_hostname names host shape first (by omega), labels_injective same]
      simp
  · have undotted : ∀ domain, pattern ≠ '.' :: domain := fun domain shape =>
      wildcard ⟨domain, shape⟩
    have exactly : pattern ∈ buildGrantCandidates names hostname .domain ↔ pattern = hostname := by
      by_cases several : 3 ≤ (labels hostname).length
      · obtain ⟨label, tail, shape, first, parts⟩ := exists_tail (by omega : 2 ≤ (labels hostname).length)
        rw [parts, List.length_cons] at several
        rw [candidates_hostname names host shape first (by omega)]
        simp [undotted tail]
      · rw [candidates_short names host (by omega), List.mem_singleton]
    rw [exactly, DomainPattern.ofText_name undotted]
    exact ⟨fun same => congrArg labels same.symm, fun same => (labels_injective same).symm⟩

end Hostname

section Lookup

variable {names : DomainNames} {rows : List GrantRow} {hostname : List Char}
  (host : IsHostname hostname) {now : Int} {agentId : String} {orgId : Option String}
include host

theorem mem_lookupRows {row : GrantRow} :
    row ∈ lookupRows names rows now agentId hostname orgId ↔
      row ∈ rows ∧ row.agentId = agentId ∧ row.kind = .domain ∧
        (DomainPattern.ofText row.pattern).Considered (labels hostname) ∧ row.live now = true ∧
          orgScope orgId row = true := by
  simp only [lookupRows, inferGrantKind_hostname host, List.mem_filter, Bool.and_eq_true,
    beq_iff_eq, List.contains_iff_mem, mem_candidates_iff names host]
  tauto

theorem found_iff {row : GrantRow} (member : row ∈ rows) (domain : row.kind = .domain)
    (live : row.live now = true) :
    row ∈ lookupRows names rows now row.agentId hostname (some row.organizationId) ↔
      (DomainPattern.ofText row.pattern).Considered (labels hostname) := by
  have scope : orgScope (some row.organizationId) row = true := by simp [orgScope]
  rw [mem_lookupRows host]
  simp [member, domain, live, scope]

theorem isDenied_iff {ambient organizationId : Option String} :
    isDenied names ambient rows now agentId hostname organizationId = true ↔
      ∃ row ∈ lookupRows names rows now agentId hostname (organizationId.or ambient), row.denied = true := by
  rw [isDenied, normalize_hostname names host, List.any_eq_true]

theorem hasGrant_eq {ambient organizationId : Option String} :
    hasGrant names ambient rows now agentId hostname organizationId =
      (((lookupRows names rows now agentId hostname (organizationId.or ambient)).find?
          fun row => row.pattern == hostname).or
        (lookupRows names rows now agentId hostname (organizationId.or ambient)).head?).any
          fun row => !row.denied := by
  have patterns : ∀ row ∈ lookupRows names rows now agentId hostname (organizationId.or ambient),
      row.pattern ∈ buildGrantCandidates names hostname .domain := by
    intro row member
    exact (mem_candidates_iff names host).mpr ((mem_lookupRows host).mp member).2.2.2.1
  simp only [hasGrant, normalize_hostname names host, inferGrantKind_hostname host]
  generalize lookupRows names rows now agentId hostname (organizationId.or ambient) = found
    at patterns ⊢
  cases found with
  | nil => rfl
  | cons first others =>
    cases own : (first :: others).find? fun row => row.pattern == hostname with
    | some row => rfl
    | none =>
      have notOwn : first.pattern ≠ hostname := by
        have none := List.find?_eq_none.mp own first List.mem_cons_self
        simpa using none
      have candidate := patterns first List.mem_cons_self
      by_cases several : 3 ≤ (labels hostname).length
      · obtain ⟨label, tail, shape, dotless, parts⟩ :=
          exists_tail (by omega : 2 ≤ (labels hostname).length)
        rw [parts, List.length_cons] at several
        rw [candidates_hostname names host shape dotless (by omega)] at candidate ⊢
        have parent : first.pattern = '.' :: tail := by simpa [notOwn] using candidate
        simp [own, parent]
      · rw [candidates_short names host (by omega)] at candidate
        exact absurd (List.mem_singleton.mp candidate) notOwn

end Lookup

theorem candidate_parent {names : DomainNames} {hostname pattern other : List Char} (host : IsHostname hostname)
    (candidate : pattern ∈ buildGrantCandidates names hostname .domain)
    (otherCandidate : other ∈ buildGrantCandidates names hostname .domain)
    (wildcard : pattern ≠ hostname) (otherWildcard : other ≠ hostname) : pattern = other := by
  by_cases several : 3 ≤ (labels hostname).length
  · obtain ⟨label, tail, shape, first, parts⟩ :=
      exists_tail (by omega : 2 ≤ (labels hostname).length)
    rw [parts, List.length_cons] at several
    rw [candidates_hostname names host shape first (by omega)] at candidate otherCandidate
    have parent : pattern = '.' :: tail := by simpa [wildcard] using candidate
    have otherParent : other = '.' :: tail := by simpa [otherWildcard] using otherCandidate
    rw [parent, otherParent]
  · rw [candidates_short names host (by omega)] at candidate
    exact absurd (List.mem_singleton.mp candidate) wildcard

variable {row : GrantRow}

theorem GrantRow.Kept.lower {names : DomainNames} (kept : row.Kept names)
    (domain : row.kind = .domain) : names.lower row.pattern = row.pattern := by
  obtain ⟨written, normal⟩ := kept.normal
  rw [normal]
  apply lower_normalizeDomainPattern
  -- a written path stays one, and its kind is a tool's
  by_contra path
  have slash : ['/'].isPrefixOf (trim written) = true := by simpa [isDomainPattern] using path
  have tool : row.kind = .mcpTool := by
    rw [kept.kind, normal]
    simp only [normalizeDomainPattern, slash, if_true, inferGrantKind]
  rw [tool] at domain
  contradiction

namespace DomainPattern

/-- The names that a wildcard row is meant for: below its domain, of three labels or more. -/
def Honours : DomainPattern → List (List Char) → Prop
  | exactly _, _ => True
  | under domain, host => domain.length < host.length ∧ 3 ≤ host.length

/-- The names at most one label below the domain of a wildcard. -/
def Reaches : DomainPattern → List (List Char) → Prop
  | exactly _, _ => True
  | under domain, host => host.length ≤ domain.length + 1

instance (pattern : DomainPattern) (host : List (List Char)) : Decidable (pattern.Honours host) :=
  match pattern with
  | exactly _ => .isTrue trivial
  | under domain => inferInstanceAs (Decidable (domain.length < host.length ∧ 3 ≤ host.length))

instance (pattern : DomainPattern) (host : List (List Char)) : Decidable (pattern.Reaches host) :=
  match pattern with
  | exactly _ => .isTrue trivial
  | under domain => inferInstanceAs (Decidable (host.length ≤ domain.length + 1))

theorem considered_iff {pattern : DomainPattern} {host : List (List Char)} (reaches : pattern.Reaches host) :
    pattern.Considered host ↔ pattern.Matches host ∧ pattern.Honours host := by
  cases pattern with
  | exactly name => exact (and_iff_left trivial).symm
  | under domain =>
    have near : host.length ≤ domain.length + 1 := reaches
    constructor
    · rintro ⟨suffix, length, several⟩
      exact ⟨suffix, by omega, several⟩
    · rintro ⟨suffix, below, several⟩
      exact ⟨suffix, by omega, several⟩

end DomainPattern

section Rows

variable {names : DomainNames} {rows : List GrantRow} (grants : GrantsKept names rows)
  {row : GrantRow} (member : row ∈ rows) {now : Int} {hostname : List Char}
  (host : IsHostname hostname)
include grants host

theorem matches_row (member : row ∈ rows) (domain : row.kind = .domain) :
    matchesDomainPattern names hostname [row.pattern] = true ↔
      (DomainPattern.ofText row.pattern).Matches (labels hostname) := by
  rw [matchesDomainPattern_iff names (lower_hostname names host.chars)]
  · simp
  · simpa using (grants.kept row member).lower domain

variable {agentId organizationId : String}

theorem found_same (owned : organizationId ≠ "") {row other : GrantRow}
    (among : row ∈ lookupRows names rows now agentId hostname (some organizationId))
    (otherAmong : other ∈ lookupRows names rows now agentId hostname (some organizationId))
    (same : row.pattern = hostname ↔ other.pattern = hostname) : row = other := by
  have facts := (mem_lookupRows host).mp among
  have otherFacts := (mem_lookupRows host).mp otherAmong
  have pattern : row.pattern = other.pattern := by
    by_cases own : row.pattern = hostname
    · rw [own, same.mp own]
    · exact candidate_parent host ((mem_candidates_iff names host).mpr facts.2.2.2.1)
        ((mem_candidates_iff names host).mpr otherFacts.2.2.2.1) own (fun also => own (same.mpr also))
  have organization : row.organizationId = other.organizationId := by
    have first : row.organizationId = organizationId := by
      simpa [orgScope, owned] using facts.2.2.2.2.2
    have second : other.organizationId = organizationId := by
      simpa [orgScope, owned] using otherFacts.2.2.2.2.2
    rw [first, second]
  apply grants.same_row facts.1 otherFacts.1
  rw [GrantRow.key, GrantRow.key, pattern, organization, facts.2.1, otherFacts.2.1, facts.2.2.1, otherFacts.2.2.1]

variable {ambient : Option String}

theorem hasGrant_own (owned : organizationId ≠ "")
    (among : row ∈ lookupRows names rows now agentId hostname (some organizationId))
    (own : row.pattern = hostname) :
    hasGrant names ambient rows now agentId hostname (some organizationId) = !row.denied := by
  have unique : ∀ other ∈ lookupRows names rows now agentId hostname (some organizationId),
      other.pattern = hostname → other = row := by
    intro other found also
    exact found_same grants host owned found among ⟨fun _ => own, fun _ => also⟩
  rw [hasGrant_eq host, Option.some_or]
  generalize lookupRows names rows now agentId hostname (some organizationId) = found
    at among unique ⊢
  cases exact : found.find? fun other => other.pattern == hostname with
  | some other =>
    have pattern : other.pattern = hostname := by simpa using List.find?_some exact
    simp [unique other (List.mem_of_find?_eq_some exact) pattern]
  | none =>
    have others := List.find?_eq_none.mp exact row among
    exact absurd (beq_iff_eq.mpr own) others

theorem hasGrant_parent (owned : organizationId ≠ "")
    (among : row ∈ lookupRows names rows now agentId hostname (some organizationId))
    (parents : ∀ other ∈ lookupRows names rows now agentId hostname (some organizationId),
      other.pattern ≠ hostname) :
    hasGrant names ambient rows now agentId hostname (some organizationId) = !row.denied := by
  have unique : ∀ other ∈ lookupRows names rows now agentId hostname (some organizationId), other = row := by
    intro other found
    exact found_same grants host owned found among
      ⟨fun own => absurd own (parents other found), fun own => absurd own (parents row among)⟩
  rw [hasGrant_eq host, Option.some_or]
  generalize lookupRows names rows now agentId hostname (some organizationId) = found
    at among parents unique ⊢
  have none : (found.find? fun other => other.pattern == hostname) = none := by
    rw [List.find?_eq_none]
    intro other found
    simpa using parents other found
  rw [none]
  cases found with
  | nil => contradiction
  | cons first rest => simp [unique first List.mem_cons_self]

theorem hasGrant_denied (owned : organizationId ≠ "")
    (among : row ∈ lookupRows names rows now agentId hostname (some organizationId)) (denied : row.denied = true)
    (own : ∀ other ∈ lookupRows names rows now agentId hostname (some organizationId),
      other.pattern = hostname → other.denied = true) :
    hasGrant names ambient rows now agentId hostname (some organizationId) = false := by
  by_cases exact : ∃ other ∈ lookupRows names rows now agentId hostname (some organizationId),
      other.pattern = hostname
  · obtain ⟨other, found, pattern⟩ := exact
    rw [hasGrant_own grants host owned found pattern, own other found pattern]
    rfl
  · have parents : ∀ other ∈ lookupRows names rows now agentId hostname (some organizationId),
        other.pattern ≠ hostname := fun other found pattern => exact ⟨other, found, pattern⟩
    rw [hasGrant_parent grants host owned among parents, denied]
    rfl

end Rows

def exampleGrants (pattern : String) (denied : Bool) : List GrantRow :=
  [{ organizationId := "org", agentId := "agent", kind := .domain, pattern := pattern.toList,
     expiresAt := none, grantedAt := 0, denied }]

theorem exampleGrants_kept {pattern : String} {denied : Bool}
    (normal : normalizeDomainPattern asciiNames pattern.toList = pattern.toList)
    (kind : inferGrantKind pattern.toList = .domain) : GrantsKept asciiNames (exampleGrants pattern denied) where
  unique := List.nodup_singleton _
  kept := by
    intro row member
    rw [List.mem_singleton.mp member]
    have owned : "org" ≠ "" := by decide
    exact ⟨⟨pattern.toList, normal.symm⟩, kind.symm, owned⟩

end Lobu.Proxy
