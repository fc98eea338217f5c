import Lobu.Foundation.Json
import Lobu.Proxy.DomainPatterns

namespace Lobu.Proxy

open Lobu.Foundation

/-! # Judge rules

The domains of an agent that need the verdict of a judge, and the rule that a host name
resolves to.
-/

structure DomainJudgeRule where
  domain : List Char
  judge : Option String

structure PreparedJudge where
  policy : String
  policyHash : String

structure PreparedBundle where
  judgedDomains : List DomainJudgeRule
  preparedJudges : List (String × PreparedJudge)
  judgeModel : Option String

structure ResolvedJudgeRule where
  judgeName : String
  policy : String
  policyHash : String
  judgeModel : Option String
deriving DecidableEq

/-- The bundles by their keys. -/
abbrev PolicyStore := List (String × PreparedBundle)

def PolicyStore.composeKey (organizationId agentId : String) : String :=
  organizationId ++ "|" ++ agentId

/-- `text.length` -/
def textLength (text : List Char) : Nat :=
  (text.flatMap utf16).length

section Rules

variable (names : DomainNames)

def findMatchingRule (hostname : List Char) (rules : List DomainJudgeRule) : Option DomainJudgeRule :=
  let normalized := names.lower hostname
  let exact := rules.find? fun rule =>
    !(['.'].isPrefixOf rule.domain) && names.lower rule.domain == normalized
  match exact with
  | some rule => some rule
  | none =>
    -- longer wildcard patterns beat shorter ones
    let wildcards := (rules.filter fun rule => ['.'].isPrefixOf rule.domain).mergeSort
      fun first second => decide (textLength second.domain ≤ textLength first.domain)
    wildcards.find? fun rule =>
      let suffix := names.lower (rule.domain.drop 1)
      normalized == suffix || ('.' :: suffix).isSuffixOf normalized

def PolicyStore.resolve (store : PolicyStore) (organizationId agentId : String)
    (hostname : List Char) : Option ResolvedJudgeRule := do
  let prepared ← store.lookup (composeKey organizationId agentId)
  let matched ← findMatchingRule names hostname prepared.judgedDomains
  let judgeName := matched.judge.getD "default"
  let judge ← prepared.preparedJudges.lookup judgeName
  some { judgeName, policy := judge.policy, policyHash := judge.policyHash,
         judgeModel := prepared.judgeModel }

end Rules

end Lobu.Proxy
