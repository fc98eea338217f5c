import Lobu.Foundation.Process

namespace Lobu.Connections

open Lobu.Foundation

/-! # The state adapter

Every method of the adapter is a statement of its own.  The database has one clock, which goes on;
a process writes the times at which things expire by a clock of its own, which may be any.
-/

/-- When a statement runs, and what the clock of the process says that sends it. -/
structure AdapterMoment where
  now : Int
  clock : Int

structure Lease where
  token : Nat
  expiresAt : Int

/-- A row of `chat_state_locks`.  Tokens are numbered as they are drawn, so none comes twice. -/
structure StateLock where
  lease : Option Lease := none
  drawn : Nat := 0

namespace StateLock

/-- The lease is held, but its time is up. -/
def isLapsed (lock : StateLock) (now : Int) : Bool :=
  lock.lease.any fun lease => decide (lease.expiresAt ≤ now)

/-- `acquireLock` takes a lock that is free or lapsed. -/
def acquire (lock : StateLock) (now expiresAt : Int) : Option Nat × StateLock :=
  if lock.lease.isNone || lock.isLapsed now then
    (some lock.drawn, ⟨some ⟨lock.drawn, expiresAt⟩, lock.drawn + 1⟩)
  else (none, lock)

/-- `releaseLock` leaves the lease of another token alone. -/
def release (lock : StateLock) (token : Nat) : StateLock :=
  if lock.lease.any fun lease => decide (lease.token = token) then { lock with lease := none }
  else lock

variable {lock after : StateLock} {now expiresAt : Int} {token other : Nat}

theorem acquire_cases (lock : StateLock) (now expiresAt : Int) :
    (lock.acquire now expiresAt = (none, lock)) ∨ ((lock.lease = none ∨ lock.isLapsed now = true) ∧
      lock.acquire now expiresAt = (some lock.drawn, ⟨some ⟨lock.drawn, expiresAt⟩, lock.drawn + 1⟩)) := by
  unfold acquire
  split
  · rename_i free
    rw [Bool.or_eq_true, Option.isNone_iff_eq_none] at free
    exact .inr ⟨free, rfl⟩
  · exact .inl rfl

theorem release_other (held : lock.lease.map Lease.token = some other) (different : other ≠ token) :
    lock.release token = lock := by
  obtain ⟨lease, found, rfl⟩ := Option.map_eq_some_iff.mp held
  simp [release, found, different]

@[simp] theorem drawn_release : (lock.release token).drawn = lock.drawn := by
  unfold release
  split <;> rfl

end StateLock

end Lobu.Connections
