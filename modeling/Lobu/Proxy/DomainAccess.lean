import Lobu.Proxy.GrantStore
import Lobu.Proxy.PolicyStore

namespace Lobu.Proxy

open Lobu.Foundation

/-! # Domain access

The decision of the egress proxy on a host: global lists, grants of the agent and the
judge, in this order.
-/

/-- The environment that the lists are read from, with the host of `SENTRY_DSN`. -/
structure NetworkEnv where
  allowedDomains : Option (List Char)
  disallowedDomains : Option (List Char)
  sentryHost : Option (List Char)

structure ResolvedNetworkConfig where
  allowedDomains : List (List Char)
  deniedDomains : List (List Char)

section Lists

variable (names : DomainNames)

/-- The entries of a list separated by commas. -/
def listEntries (value : List Char) : List (List Char) :=
  ((value.splitOn ',').map trim).filter (· ≠ [])

def loadAllowedDomains (env : NetworkEnv) : List (List Char) :=
  match env.allowedDomains.filter (· ≠ []) with
  | none => env.sentryHost.toList
  | some allowedDomains =>
    let trimmed := trim allowedDomains
    if trimmed = ['*'] then [['*']]
    else
      let parsed := normalizeDomainPatterns names (listEntries trimmed)
      parsed ++ env.sentryHost.toList.filter fun host => !parsed.contains host

def loadDisallowedDomains (env : NetworkEnv) : List (List Char) :=
  match env.disallowedDomains.filter (· ≠ []) with
  | none => []
  | some disallowedDomains => normalizeDomainPatterns names (listEntries disallowedDomains)

def getGlobalConfig (env : NetworkEnv) : ResolvedNetworkConfig where
  allowedDomains := (loadAllowedDomains names env).map names.lower
  deniedDomains := (loadDisallowedDomains names env).map names.lower

def isUnrestrictedMode (allowedDomains : List (List Char)) : Bool :=
  allowedDomains.length == 1 && allowedDomains.head? == some ['*']

def isHostnameAllowed (hostname : List Char) (allowedDomains deniedDomains : List (List Char)) : Bool :=
  if isUnrestrictedMode allowedDomains then
    if deniedDomains.length = 0 then true
    else !matchesDomainPattern names hostname deniedDomains
  else if allowedDomains.length = 0 then false
  else
    let isAllowed := matchesDomainPattern names hostname allowedDomains
    if isAllowed && decide (deniedDomains.length > 0) then
      !matchesDomainPattern names hostname deniedDomains
    else isAllowed

end Lists

structure JudgeRequest where
  agentId : String
  organizationId : String
  hostname : List Char
  method : Option String
  path : Option String

inductive Verdict where
  | allow
  | deny
deriving DecidableEq

inductive DecisionSource where
  | judge
  | cache
  | circuitOpen
  | judgeError

structure JudgeDecision where
  verdict : Verdict
  reason : String
  source : DecisionSource
  latencyMs : Nat
  policyHash : String
  judgeName : String

inductive AccessSource where
  | global
  | grant
  | judge

structure AccessDecision where
  allowed : Bool
  source : AccessSource
  judge : Option JudgeDecision := none

structure RequestContext where
  method : Option String := none
  path : Option String := none

/-- What a decision reads: the global lists, the stores that are set and the judge. -/
structure ProxyState where
  global : ResolvedNetworkConfig
  grants : Option (List GrantRow)
  policies : Option PolicyStore
  judge : Option (JudgeRequest → ResolvedJudgeRule → JudgeDecision)
  ambient : Option String
  now : Int

section Access

variable (names : DomainNames)

/-- A value that is there and not empty. -/
def present (text : Option String) : Option String :=
  text.filter (· ≠ "")

/-- The verdict on a host for which the agent has a judged-domain rule. -/
def judgeAccess (state : ProxyState) (hostname : List Char) (agentId organizationId : Option String)
    (context : RequestContext) : Option JudgeDecision := do
  let policies ← state.policies
  let judge ← state.judge
  let agent ← present agentId
  -- the policies are keyed by organization, and without one none is consulted
  let organization ← present organizationId
  let rule ← policies.resolve names organization agent hostname
  some (judge { agentId := agent, organizationId := organization, hostname,
                method := context.method, path := context.path } rule)

def checkDomainAccess (state : ProxyState) (hostname : List Char)
    (agentId organizationId : Option String) (context : RequestContext) : AccessDecision :=
  let hostname := canonicalizeHostname names hostname
  if state.global.deniedDomains.length > 0 ∧
      matchesDomainPattern names hostname state.global.deniedDomains = true then
    { allowed := false, source := .global }
  else if isHostnameAllowed names hostname state.global.allowedDomains
      state.global.deniedDomains then
    match state.grants, present agentId with
    | some rows, some agent =>
      if isDenied names state.ambient rows state.now agent hostname organizationId then
        { allowed := false, source := .grant }
      else { allowed := true, source := .global }
    | _, _ => { allowed := true, source := .global }
  else
    let granted :=
      match state.grants, present agentId with
      | some rows, some agent =>
        hasGrant names state.ambient rows state.now agent hostname organizationId
      | _, _ => false
    if granted then { allowed := true, source := .grant }
    else
      match judgeAccess names state hostname agentId organizationId context with
      | some decision =>
        { allowed := decision.verdict == .allow, source := .judge, judge := some decision }
      | none => { allowed := false, source := .global }

end Access

end Lobu.Proxy
