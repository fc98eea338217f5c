import Lobu.Proxy.DomainPatterns

namespace Lobu.Proxy

open Lobu.Foundation

/-! # The grant store

Rows that allow or deny an agent a domain or a tool, and the two lookups of a name.  A
table has at most one row for an organization, an agent, a kind and a pattern.
-/

inductive GrantKind where
  | mcpTool
  | domain
deriving DecidableEq

def inferGrantKind (pattern : List Char) : GrantKind :=
  if ['/'].isPrefixOf pattern then .mcpTool else .domain

structure GrantRow where
  organizationId : String
  agentId : String
  kind : GrantKind
  pattern : List Char
  expiresAt : Option Int
  grantedAt : Int
  denied : Bool
deriving DecidableEq

def GrantRow.live (now : Int) (row : GrantRow) : Bool :=
  row.expiresAt.all fun expiry => decide (now < expiry)

def GrantRow.key (row : GrantRow) : String × String × GrantKind × List Char :=
  (row.organizationId, row.agentId, row.kind, row.pattern)

def globalToolAutoApprovalPattern : List Char :=
  "/mcp/*/tools/*".toList

section Store

variable (names : DomainNames)

def isSpecificMcpToolPattern (pattern : List Char) : Bool :=
  match (normalizeDomainPattern names pattern).splitOn '/' with
  | [root, mcp, server, tools, tool] =>
    root == [] && mcp == "mcp".toList && server != [] && tools == "tools".toList &&
      tool != [] && server != ['*'] && tool != ['*']
  | _ => false

def getDomainGrantCandidates (pattern : List Char) : List (List Char) :=
  let normalized := normalizeDomainPattern names pattern
  if ['/'].isPrefixOf normalized then [normalized]
  else if ['.'].isPrefixOf normalized then [normalized, '*' :: '.' :: normalized.drop 1]
  else [normalized]

/-- The patterns whose rows can satisfy a lookup: the exact one and its wildcard parents. -/
def buildGrantCandidates (pattern : List Char) (kind : GrantKind) : List (List Char) :=
  let candidates := getDomainGrantCandidates names pattern
  match kind with
  | .mcpTool =>
    let server :=
      match lastIndexOf '/' pattern with
      | some lastSlash => if lastSlash > 0 then [pattern.take lastSlash ++ "/*".toList] else []
      | none => []
    candidates ++ server ++
      if isSpecificMcpToolPattern names pattern then [globalToolAutoApprovalPattern] else []
  | .domain =>
    let parts := labels pattern
    if parts.length > 2 then
      let tail := ['.'].intercalate (parts.drop 1)
      candidates ++ [normalizeDomainPattern names ('.' :: tail),
        normalizeDomainPattern names ('*' :: '.' :: tail)]
    else candidates

/-- The optional filter by organization: none where it is missing or empty. -/
def orgScope (orgId : Option String) (row : GrantRow) : Bool :=
  match orgId with
  | some id => id == "" || row.organizationId == id
  | none => true

/-- The rows that a lookup selects. -/
def lookupRows (rows : List GrantRow) (now : Int) (agentId : String) (pattern : List Char)
    (orgId : Option String) : List GrantRow :=
  let kind := inferGrantKind pattern
  let candidates := buildGrantCandidates names pattern kind
  rows.filter fun row => row.agentId == agentId && row.kind == kind &&
    candidates.contains row.pattern && row.live now && orgScope orgId row

/-- `ambient` is the organization of the request context. -/
def hasGrant (ambient : Option String) (rows : List GrantRow) (now : Int) (agentId : String)
    (pattern : List Char) (organizationId : Option String) : Bool :=
  let pattern := normalizeDomainPattern names pattern
  let found := lookupRows names rows now agentId pattern (organizationId.or ambient)
  match found with
  | [] => false
  | first :: _ =>
    match found.find? fun row => row.pattern == pattern with
    | some exact => !exact.denied
    | none =>
      let candidates := buildGrantCandidates names pattern (inferGrantKind pattern)
      match candidates.findSome? fun candidate =>
        found.find? fun row => row.pattern == candidate with
      | some row => !row.denied
      | none => !first.denied

def isDenied (ambient : Option String) (rows : List GrantRow) (now : Int) (agentId : String)
    (pattern : List Char) (organizationId : Option String) : Bool :=
  let pattern := normalizeDomainPattern names pattern
  (lookupRows names rows now agentId pattern (organizationId.or ambient)).any GrantRow.denied

/-- Inserts the row of a pattern, or renews the one that it has. -/
def grant (ambient : Option String) (rows : List GrantRow) (now : Int) (agentId : String)
    (pattern : List Char) (expiresAt : Option Int) (denied : Bool)
    (organizationId : Option String) : Except String (List GrantRow) :=
  let pattern := normalizeDomainPattern names pattern
  match (organizationId.or ambient).filter (· ≠ "") with
  | none => .error "GrantStore.grant requires organizationId (explicit or via orgContext)"
  | some orgId =>
    let row : GrantRow :=
      { organizationId := orgId, agentId, kind := inferGrantKind pattern, pattern, expiresAt,
        grantedAt := now, denied }
    if rows.any fun other => other.key == row.key then
      .ok (rows.map fun other => if other.key = row.key then row else other)
    else .ok (rows ++ [row])

def revoke (ambient : Option String) (rows : List GrantRow) (agentId : String)
    (pattern : List Char) (organizationId : Option String) : List GrantRow :=
  let candidates := getDomainGrantCandidates names pattern
  let kind := inferGrantKind pattern
  rows.filter fun row => !(row.agentId == agentId && row.kind == kind &&
    candidates.contains row.pattern && orgScope (organizationId.or ambient) row)

def sweepExpiredGrants (rows : List GrantRow) (now : Int) : List GrantRow :=
  rows.filter (GrantRow.live now)

end Store

end Lobu.Proxy
