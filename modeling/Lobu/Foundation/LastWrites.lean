import Mathlib.Data.List.Nodup

namespace Lobu.Foundation

/-! # Writes of which the last one stays

Cells that a list of writes sets one after the other, none of them reading what another wrote.
-/

universe u v

variable {κ : Type u} {α : Type v} [DecidableEq κ]

def lastWritten (writes : List (κ × α)) (stored : κ → α) : κ → α :=
  writes.foldl (fun cells write => Function.update cells write.1 write.2) stored

variable {writes : List (κ × α)} {stored : κ → α} {key : κ} {value : α}

theorem lastWritten_of_not_mem (untouched : key ∉ writes.map Prod.fst) :
    lastWritten writes stored key = stored key := by
  induction writes generalizing stored with
  | nil => rfl
  | cons write writes ih =>
    rw [List.map_cons, List.mem_cons, not_or] at untouched
    have rest : lastWritten writes (Function.update stored write.1 write.2) key = _ :=
      ih untouched.2
    rw [lastWritten, List.foldl_cons]
    exact rest.trans (Function.update_of_ne untouched.1 _ _)

theorem lastWritten_of_mem (once : (writes.map Prod.fst).Nodup) (member : (key, value) ∈ writes) :
    lastWritten writes stored key = value := by
  induction writes generalizing stored with
  | nil => simp at member
  | cons write writes ih =>
    rw [List.map_cons, List.nodup_cons] at once
    rw [lastWritten, List.foldl_cons]
    cases member with
    | head =>
      have kept : lastWritten writes (Function.update stored key value) key = _ :=
        lastWritten_of_not_mem once.1
      exact kept.trans (Function.update_self key value stored)
    | tail _ later => exact ih once.2 later

end Lobu.Foundation
