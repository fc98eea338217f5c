import Lobu.Connections.StateAdapter

namespace Lobu.Connections

open Lobu.Foundation

/-! # Thread sessions

The calls of the conversation state store for one session id, by any number of processes.  Two
statements that are sent together are answered in either order.
-/

/-- `fields` are the other fields of a session, which the store does not read. -/
structure ThreadSession (ρ : Type) where
  channelId : String
  conversationId : String
  fields : ρ

structure StoredSession (ρ : Type) where
  session : ThreadSession ρ
  expiresAt : Int

/-- The rows under the keys of one session: its lock, the session, and the threads whose index
leads to it. -/
structure SessionRows (ρ : Type) where
  now : Int := 0
  lock : StateLock := {}
  stored : Option (StoredSession ρ) := none
  threads : List (String × String) := []

def SESSION_TTL_MS : Int := 24 * 60 * 60 * 1000

def SESSION_LOCK_LEASE_MS : Int := 30000

variable {ρ : Type}

namespace SessionRows

/-- The session that a read finds. -/
def live? (rows : SessionRows ρ) : Option (ThreadSession ρ) :=
  (rows.stored.filter fun stored => decide (rows.now < stored.expiresAt)).map StoredSession.session

end SessionRows

inductive SessionStep (ρ : Type) where
  | acquireLock
  | releaseLock (token : Nat)
  | getSession
  | setSession (session : ThreadSession ρ)
  | setThread (channelId conversationId : String)
  | deleteSession
  | deleteThread (channelId conversationId : String)

abbrev SessionAnswer (ρ : Type) : SessionStep ρ → Type
  | .acquireLock => Option Nat
  | .getSession => Option (ThreadSession ρ)
  | _ => Unit

def SessionRows.perform (rows : SessionRows ρ) (clock : Int) :
    (step : SessionStep ρ) → SessionAnswer ρ step × SessionRows ρ
  | .acquireLock =>
    let acquired := rows.lock.acquire rows.now (clock + SESSION_LOCK_LEASE_MS)
    (acquired.1, { rows with lock := acquired.2 })
  | .releaseLock token => ((), { rows with lock := rows.lock.release token })
  | .getSession => (rows.live?, rows)
  | .setSession session => ((), { rows with stored := some ⟨session, clock + SESSION_TTL_MS⟩ })
  | .setThread channelId conversationId =>
    ((), { rows with threads := (channelId, conversationId) :: rows.threads })
  | .deleteSession => ((), { rows with stored := none })
  | .deleteThread channelId conversationId =>
    let others := rows.threads.filter fun thread => thread != (channelId, conversationId)
    ((), { rows with threads := others })

def SessionRows.serve : Service (SessionRows ρ) AdapterMoment (SessionAnswer ρ)
  | rows, step, moment =>
    if moment.now < rows.now then none
    else some (SessionRows.perform { rows with now := moment.now } moment.clock step)

abbrev SessionProcess (ρ α : Type) := Process (SessionStep ρ) (SessionAnswer ρ) α

abbrev SessionStep.run (step : SessionStep ρ) : SessionProcess ρ (SessionAnswer ρ step) :=
  Process.answerTo step

inductive SessionReply (ρ : Type) where
  | found (session : Option (ThreadSession ρ))
  | stored
  | mutated (changed : Bool)
  | removed
  | unavailable

def setSession (sessionFirst : Bool) (session : ThreadSession ρ) : SessionProcess ρ Unit :=
  if sessionFirst then do
    SessionStep.run (.setSession session)
    SessionStep.run (.setThread session.channelId session.conversationId)
  else do
    SessionStep.run (.setThread session.channelId session.conversationId)
    SessionStep.run (.setSession session)

/-- The lock is asked for until the deadline, here that many times. -/
def withSessionLock {α : Type} (operation : SessionProcess ρ α) : (attempts : Nat) → SessionProcess ρ (Option α)
  | 0 => return none
  | attempts + 1 => do
      match ← SessionStep.run .acquireLock with
      | some token =>
        let result ← operation
        SessionStep.run (.releaseLock token)
        return some result
      | none => withSessionLock operation attempts

def mutateUnlocked (sessionFirst : Bool) (update : ThreadSession ρ → ThreadSession ρ) :
    SessionProcess ρ (SessionReply ρ) := do
  match ← SessionStep.run .getSession with
  | none => return .mutated false
  | some current =>
    setSession sessionFirst (update current)
    return .mutated true

def deleteSessionUnlocked : SessionProcess ρ (SessionReply ρ) := do
  let session ← SessionStep.run .getSession
  SessionStep.run .deleteSession
  match session with
  | none => return .removed
  | some session =>
    if session.conversationId = "" then return .removed
    else do
      SessionStep.run (.deleteThread session.channelId session.conversationId)
      return .removed

/-- An operation under the lock, which has no answer where the lock was not to be had. -/
def locked (operation : SessionProcess ρ (SessionReply ρ)) (retries : Nat) :
    SessionProcess ρ (SessionReply ρ) := do
  let result ← withSessionLock operation (retries + 1)
  return result.getD .unavailable

inductive SessionCommand (ρ : Type) where
  | getSession
  | setSession (session : ThreadSession ρ) (sessionFirst : Bool)
  | mutateSession (update : ThreadSession ρ → ThreadSession ρ) (sessionFirst : Bool) (retries : Nat)
  | deleteSession (retries : Nat)

def SessionCommand.call : SessionCommand ρ → SessionProcess ρ (SessionReply ρ)
  | .getSession => do
      let session ← SessionStep.run .getSession
      return .found session
  | .setSession session sessionFirst => do
      Connections.setSession sessionFirst session
      return .stored
  | .mutateSession update sessionFirst retries => locked (mutateUnlocked sessionFirst update) retries
  | .deleteSession retries => locked deleteSessionUnlocked retries

abbrev SessionCalls (ρ : Type) :=
  Crowd (SessionCommand ρ) (SessionRows ρ) (SessionAnswer ρ) (SessionReply ρ)

abbrev SessionCall (ρ : Type) :=
  Member (SessionCommand ρ) (SessionAnswer ρ) (SessionReply ρ)

/-- The calls that begin with no lock and this session. -/
def sessionStore (initial : Option (StoredSession ρ)) :
    Machine (SessionCalls ρ) (CrowdEvent (SessionCommand ρ) AdapterMoment) :=
  Crowd.crowds SessionCommand.call SessionRows.serve fun rows =>
    rows.lock = {} ∧ rows.stored = initial

theorem SessionRows.serve_performs {rows later : SessionRows ρ} {step : SessionStep ρ}
    {moment : AdapterMoment} {answer : SessionAnswer ρ step}
    (served : SessionRows.serve rows step moment = some (answer, later)) :
    SessionRows.perform { rows with now := moment.now } moment.clock step = (answer, later) := by
  by_cases early : moment.now < rows.now
  · simp [SessionRows.serve, early] at served
  · simpa only [SessionRows.serve, if_neg early, Option.some.injEq] using served

end Lobu.Connections
