import Lobu.Foundation.Process

namespace Lobu.Auth

open Lobu.Foundation

/-! # Revoked tokens

Every server process keeps what it has learnt about a token for a minute; the table
`revoked_tokens` is shared.  Clocks agree, so one time goes on with every step.
-/

structure RevokedToken where
  jti : String
  expiresAt : Int

structure CacheEntry where
  revoked : Bool
  cachedAt : Int

/-- An entry in the cache of one server process. -/
structure CachedToken where
  pod : Nat
  jti : String
  entry : CacheEntry

structure Revocations where
  now : Int := 0
  revokedTokens : List RevokedToken := []
  cache : List CachedToken := []

def CACHE_TTL_MS : Int := 60 * 1000

namespace CachedToken

def isFor (pod : Nat) (jti : String) (cached : CachedToken) : Bool :=
  decide (cached.pod = pod) && decide (cached.jti = jti)

end CachedToken

namespace Revocations

section

variable (state : Revocations)
include state

def cached? (pod : Nat) (jti : String) : Option CacheEntry :=
  (state.cache.find? (CachedToken.isFor pod jti)).map CachedToken.entry

def setCached (pod : Nat) (jti : String) (entry : CacheEntry) : Revocations :=
  { state with cache := upsert (CachedToken.isFor pod jti) ⟨pod, jti, entry⟩ state.cache }

/-- `INSERT … ON CONFLICT (jti) DO UPDATE SET expires_at = GREATEST(…)`. -/
def insertRevoked (jti : String) (expiresAt : Int) : Revocations :=
  let held := state.revokedTokens.any fun row => decide (row.jti = jti)
  { state with
    revokedTokens :=
      if held then
        RowUpdate.run
          { selects := fun row => decide (row.jti = jti)
            sets := fun row => { row with expiresAt := max row.expiresAt expiresAt } }
          state.revokedTokens
      else state.revokedTokens ++ [⟨jti, expiresAt⟩] }

def isRevoked (jti : String) : Bool :=
  state.revokedTokens.any fun row => decide (row.jti = jti) && decide (state.now < row.expiresAt)

def isExpired (row : RevokedToken) : Bool :=
  decide (row.expiresAt ≤ state.now)

def deleteExpired : Revocations :=
  { state with revokedTokens := deleteWhere state.isExpired state.revokedTokens }

def evictStale (pod : Nat) : Revocations :=
  { state with
    cache := deleteWhere
      (fun cached => decide (cached.pod = pod) &&
        decide (CACHE_TTL_MS ≤ state.now - cached.entry.cachedAt))
      state.cache }

end

end Revocations

/-- What `Date.now()` and `cache.get` say. -/
structure Consulted where
  now : Int
  cached : Option CacheEntry

def Consulted.fresh? (consulted : Consulted) : Option CacheEntry :=
  consulted.cached.filter fun entry => decide (consulted.now - entry.cachedAt < CACHE_TTL_MS)

/-- A statement, or what a process does with its cache between two statements. -/
inductive RevocationStep where
  | insertRevoked (jti : String) (expiresAt : Int)
  | selectRevoked (jti : String)
  | deleteExpired
  | consult (pod : Nat) (jti : String)
  | cacheRevoked (pod : Nat) (jti : String)
  | cacheAnswer (pod : Nat) (jti : String) (entry : CacheEntry)
  | evictStale (pod : Nat)

/-- A statement that fails has no answer; an insertion tells when it was committed. -/
abbrev RevocationStep.Answer : RevocationStep → Type
  | .insertRevoked .. => Option Int
  | .selectRevoked .. => Option Bool
  | .deleteExpired => Option Nat
  | .consult .. => Consulted
  | .cacheRevoked .. | .cacheAnswer .. | .evictStale .. => Unit

structure Moment where
  now : Int
  fails : Bool := false

def Revocations.perform (state : Revocations) (fails : Bool) : (step : RevocationStep) → step.Answer × Revocations
  | .insertRevoked jti expiresAt =>
    if fails then (none, state) else (some state.now, state.insertRevoked jti expiresAt)
  | .selectRevoked jti => (if fails then none else some (state.isRevoked jti), state)
  | .deleteExpired =>
    if fails then (none, state)
    else (some (state.revokedTokens.countP state.isExpired), state.deleteExpired)
  | .consult pod jti => (⟨state.now, state.cached? pod jti⟩, state)
  | .cacheRevoked pod jti => ((), state.setCached pod jti ⟨true, state.now⟩)
  | .cacheAnswer pod jti entry => ((), state.setCached pod jti entry)
  | .evictStale pod => ((), state.evictStale pod)

def Revocations.serve : Service Revocations Moment RevocationStep.Answer
  | state, step, moment =>
    if moment.now < state.now then none
    else some (Revocations.perform { state with now := moment.now } moment.fails step)

inductive RevocationReply where
  | revoked
  | answer (revoked : Bool)
  | swept (count : Nat)
  | failed

abbrev RevocationCall := Process RevocationStep RevocationStep.Answer RevocationReply

abbrev RevocationStep.run (step : RevocationStep) : Process RevocationStep RevocationStep.Answer step.Answer :=
  Process.answerTo step

def revoke (pod : Nat) (jti : String) (expiresAt : Int) : RevocationCall := do
  match ← RevocationStep.run (.insertRevoked jti expiresAt) with
  | none => return .failed
  | some _ =>
    RevocationStep.run (.cacheRevoked pod jti)
    return .revoked

def isRevokedCached (pod : Nat) (jti : String) : RevocationCall :=
  if jti = "" then return .answer false
  else do
    let consulted ← RevocationStep.run (.consult pod jti)
    return .answer (consulted.fresh?.any CacheEntry.revoked)

/-- The statement follows where the cache does not know; where it fails, the call falls back on
a stale entry. -/
def isRevoked (pod : Nat) (jti : String) : RevocationCall :=
  if jti = "" then return .answer false
  else do
    let consulted ← RevocationStep.run (.consult pod jti)
    match consulted.fresh? with
    | some entry => return .answer entry.revoked
    | none =>
      match ← RevocationStep.run (.selectRevoked jti) with
      | some revoked =>
        RevocationStep.run (.cacheAnswer pod jti ⟨revoked, consulted.now⟩)
        return .answer revoked
      | none => return .answer (consulted.cached.any CacheEntry.revoked)

def sweepExpired (pod : Nat) : RevocationCall := do
  match ← RevocationStep.run .deleteExpired with
  | none => return .failed
  | some count =>
    RevocationStep.run (.evictStale pod)
    return .swept count

inductive RevocationCommand where
  | revoke (pod : Nat) (jti : String) (expiresAt : Int)
  | isRevokedCached (pod : Nat) (jti : String)
  | isRevoked (pod : Nat) (jti : String)
  | sweepExpired (pod : Nat)
deriving DecidableEq

def RevocationCommand.call : RevocationCommand → RevocationCall
  | .revoke pod jti expiresAt => Auth.revoke pod jti expiresAt
  | .isRevokedCached pod jti => Auth.isRevokedCached pod jti
  | .isRevoked pod jti => Auth.isRevoked pod jti
  | .sweepExpired pod => Auth.sweepExpired pod

abbrev RevocationCalls :=
  Crowd RevocationCommand Revocations RevocationStep.Answer RevocationReply

/-- The calls of all processes.  A lookup that goes to the table may start a sweep; here one may
start at any time. -/
def revocationStore : Machine RevocationCalls (CrowdEvent RevocationCommand Moment) :=
  Crowd.crowds RevocationCommand.call Revocations.serve fun state =>
    state.revokedTokens = [] ∧ state.cache = []

end Lobu.Auth
