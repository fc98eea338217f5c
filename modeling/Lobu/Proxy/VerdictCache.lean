import Lobu.Foundation.Machine
import Lobu.Foundation.OrderedMap
import Lobu.Proxy.DomainAccess

namespace Lobu.Proxy

open Lobu.Foundation

/-! # The cache of judge verdicts

A map that keeps its keys in the order in which they were last touched, since a touch deletes the
key and puts it in again.
-/

structure JudgeVerdict where
  verdict : Verdict
  reason : String
deriving DecidableEq

structure CacheEntry where
  verdict : JudgeVerdict
  expiresAt : Int
deriving DecidableEq

abbrev CacheEntries := OrderedMap String CacheEntry

structure VerdictCache where
  ttlMs : Int
  maxEntries : Nat
deriving DecidableEq

namespace VerdictCache

def get (entries : CacheEntries) (now : Int) (key : String) : Option JudgeVerdict × CacheEntries :=
  match entries.get? key with
  | none => (none, entries)
  | some entry =>
    if entry.expiresAt ≤ now then (none, entries.delete key)
    else (some entry.verdict, (entries.delete key).set key entry)

/-- The entries that a set leaves before it puts its own in. -/
def makeRoom (cache : VerdictCache) (entries : CacheEntries) (key : String) : CacheEntries :=
  if entries.has key then entries.delete key
  else if cache.maxEntries ≤ entries.size then
    match entries.oldest? with
    | some oldest => entries.delete oldest
    | none => entries
  else entries

def set (cache : VerdictCache) (entries : CacheEntries) (now : Int) (key : String)
    (verdict : JudgeVerdict) : CacheEntries :=
  (cache.makeRoom entries key).set key { verdict, expiresAt := now + cache.ttlMs }

end VerdictCache

/-- A call with its time, and for a get what it returned. -/
inductive CacheCall where
  | get (key : String) (now : Int) (returned : Option JudgeVerdict)
  | set (key : String) (now : Int) (verdict : JudgeVerdict)

/-- The call stores or reads the verdict of the key. -/
def CacheCall.touches (key : String) : CacheCall → Bool
  | .get other _ returned => other = key && returned.isSome
  | .set other _ _ => other = key

def CacheCall.stores? (key : String) : CacheCall → Option (JudgeVerdict × Int)
  | .get _ _ _ => none
  | .set other now verdict => if other = key then some (verdict, now) else none

/-- The cache, the time of the latest call, and the calls so far, the latest first. -/
structure CacheUsage where
  entries : CacheEntries
  clock : Int
  calls : List CacheCall

namespace CacheUsage

/-- The calls that came after the last one that stored or read the key. -/
def sinceTouched (usage : CacheUsage) (key : String) : Nat :=
  usage.calls.findIdx (CacheCall.touches key)

def lastStored? (usage : CacheUsage) (key : String) : Option (JudgeVerdict × Int) :=
  usage.calls.findSome? (CacheCall.stores? key)

end CacheUsage

inductive CacheOperation where
  | get (key : String) (now : Int)
  | set (key : String) (now : Int) (verdict : JudgeVerdict)

/-- The clock does not go back. -/
def VerdictCache.act (cache : VerdictCache) (usage : CacheUsage) : CacheOperation → Option CacheUsage
  | .get key now =>
    let read := VerdictCache.get usage.entries now key
    if usage.clock ≤ now then some ⟨read.2, now, .get key now read.1 :: usage.calls⟩ else none
  | .set key now verdict =>
    if usage.clock ≤ now then
      some ⟨cache.set usage.entries now key verdict, now, .set key now verdict :: usage.calls⟩
    else none

def VerdictCache.machine (cache : VerdictCache) : Machine CacheUsage CacheOperation where
  starts usage := usage.entries = OrderedMap.empty ∧ usage.calls = []
  step := cache.act

variable {cache : VerdictCache} {usage before after : CacheUsage} {key other : String}
variable {entries : CacheEntries} {entry : CacheEntry} {call : CacheCall} {calls : List CacheCall}

/-- The keys in the order of their last touches, the one touched longest ago first. -/
def ByRecency (calls : List CacheCall) (keys : List String) : Prop :=
  keys.Pairwise fun earlier later =>
    calls.findIdx (CacheCall.touches later) < calls.findIdx (CacheCall.touches earlier)

theorem findIdx_untouched (untouched : call.touches key = false) :
    (call :: calls).findIdx (CacheCall.touches key) = calls.findIdx (CacheCall.touches key) + 1 := by
  rw [List.findIdx_cons, untouched, cond_false]

theorem ByRecency.untouched {keys : List String} (ordered : ByRecency calls keys)
    (untouched : ∀ key ∈ keys, call.touches key = false) : ByRecency (call :: calls) keys := by
  refine List.Pairwise.imp_of_mem ?_ ordered
  intro earlier later inFront behind recent
  rw [findIdx_untouched (untouched _ inFront), findIdx_untouched (untouched _ behind)]
  exact Nat.succ_lt_succ recent

theorem ByRecency.touched {keys : List String} (ordered : ByRecency calls keys)
    (touched : call.touches key = true) (untouched : ∀ other ∈ keys, call.touches other = false) :
    ByRecency (call :: calls) (keys ++ [key]) := by
  refine List.pairwise_append.mpr ⟨ordered.untouched untouched, List.pairwise_singleton _ _, ?_⟩
  intro earlier member last isLast
  rw [List.mem_singleton.mp isLast, findIdx_untouched (untouched _ member), List.findIdx_cons, touched, cond_true]
  exact Nat.succ_pos _

namespace CacheUsage

structure Invariant (cache : VerdictCache) (usage : CacheUsage) : Prop where
  bounded : usage.entries.size ≤ cache.maxEntries
  stored : ∀ key entry, usage.entries.get? key = some entry →
    ∃ now, usage.lastStored? key = some (entry.verdict, now) ∧ entry.expiresAt = now + cache.ttlMs
  ordered : ByRecency usage.calls (usage.entries.entries.map Prod.fst)

/-- The key is held, and every other key that is held was stored or read after it. -/
def LeastRecent (usage : CacheUsage) (key : String) : Prop :=
  usage.entries.has key = true ∧ ∀ other, usage.entries.has other = true → other ≠ key →
    usage.sinceTouched other < usage.sinceTouched key

theorem Invariant.head (kept : Invariant cache usage) {rest : List (String × CacheEntry)}
    (first : usage.entries.entries = (key, entry) :: rest) : usage.LeastRecent key := by
  have ordered := kept.ordered
  rw [first, List.map_cons] at ordered
  refine ⟨OrderedMap.has_iff_mem.mpr (by simp [first]), ?_⟩
  intro other held apart
  have member := OrderedMap.has_iff_mem.mp held
  rw [first, List.map_cons, List.mem_cons] at member
  exact List.rel_of_pairwise_cons ordered (member.resolve_left apart)

end CacheUsage

/-- What a call leaves when it has taken its own key out and perhaps made room. -/
structure Room (entries room : CacheEntries) (key : String) : Prop where
  absent : key ∉ room.entries.map Prod.fst
  sublist : room.entries.Sublist entries.entries
  kept : ∀ other entry, room.get? other = some entry → entries.get? other = some entry

namespace Room

theorem delete (entries : CacheEntries) (key : String) : Room entries (entries.delete key) key where
  absent := by simp [OrderedMap.delete]
  sublist := List.filter_sublist
  kept other entry found := by
    rw [OrderedMap.get?_delete] at found
    exact (Option.ite_none_left_eq_some.mp found).2

theorem delete_other (missing : entries.has key = false) (other : String) :
    Room entries (entries.delete other) key where
  absent member := by
    have held := (List.filter_sublist.map Prod.fst).subset member
    rw [OrderedMap.has_iff_mem.mpr held] at missing
    contradiction
  sublist := List.filter_sublist
  kept := (Room.delete entries other).kept

theorem unchanged (missing : entries.has key = false) : Room entries entries key where
  absent member := by
    rw [OrderedMap.has_iff_mem.mpr member] at missing
    contradiction
  sublist := List.Sublist.refl _
  kept _ _ found := found

theorem set_entries {room : CacheEntries} (opened : Room entries room key) (entry : CacheEntry) :
    (room.set key entry).entries = room.entries ++ [(key, entry)] :=
  OrderedMap.putUnder_absent opened.absent

end Room

theorem size_delete (held : entries.has key = true) : (entries.delete key).size < entries.size := by
  obtain ⟨entry, member, same⟩ := List.mem_map.mp (OrderedMap.has_iff_mem.mp held)
  exact List.length_filter_lt_length_iff_exists.mpr ⟨entry, member, by simp [same]⟩

theorem VerdictCache.makeRoom_cases (roomy : 1 ≤ cache.maxEntries) (entries : CacheEntries) (key : String) :
    (entries.has key = true ∧ cache.makeRoom entries key = entries.delete key) ∨
      (entries.has key = false ∧ cache.maxEntries ≤ entries.size ∧
        ∃ oldest rest, entries.entries = oldest :: rest ∧ cache.makeRoom entries key = entries.delete oldest.1) ∨
      (entries.has key = false ∧ entries.size < cache.maxEntries ∧ cache.makeRoom entries key = entries) := by
  cases held : entries.has key with
  | true => exact .inl ⟨rfl, if_pos held⟩
  | false =>
    by_cases full : cache.maxEntries ≤ entries.size
    · cases whole : entries.entries with
      | nil =>
        rw [OrderedMap.size, whole, List.length_nil] at full
        omega
      | cons oldest rest =>
        refine .inr (.inl ⟨rfl, full, oldest, rest, rfl, ?_⟩)
        simp [makeRoom, held, full, OrderedMap.oldest?, whole]
    · exact .inr (.inr ⟨rfl, Nat.lt_of_not_le full, by simp [makeRoom, held, full]⟩)

theorem VerdictCache.makeRoom_room (roomy : 1 ≤ cache.maxEntries) (entries : CacheEntries)
    (key : String) : Room entries (cache.makeRoom entries key) key := by
  obtain ⟨-, taken⟩ | ⟨missing, -, oldest, rest, -, taken⟩ | ⟨missing, -, taken⟩ :=
    makeRoom_cases roomy entries key
  · rw [taken]
    exact Room.delete entries key
  · rw [taken]
    exact Room.delete_other missing oldest.1
  · rw [taken]
    exact Room.unchanged missing

theorem VerdictCache.makeRoom_size (roomy : 1 ≤ cache.maxEntries)
    (bounded : entries.size ≤ cache.maxEntries) (key : String) :
    (cache.makeRoom entries key).size < cache.maxEntries := by
  obtain ⟨held, taken⟩ | ⟨-, -, oldest, rest, whole, taken⟩ | ⟨-, below, taken⟩ :=
    makeRoom_cases roomy entries key
  · rw [taken]
    exact Nat.lt_of_lt_of_le (size_delete held) bounded
  · have held : entries.has oldest.1 = true := OrderedMap.has_iff_mem.mpr (by simp [whole])
    rw [taken]
    exact Nat.lt_of_lt_of_le (size_delete held) bounded
  · rwa [taken]

namespace CacheUsage.Invariant

/-- A call that takes its key out and puts it in again with what was stored for it last. -/
theorem touch (kept : Invariant cache before) {room : CacheEntries} {now : Int}
    (opened : Room before.entries room key) (small : room.size < cache.maxEntries)
    (touched : call.touches key = true) (untouched : ∀ other ≠ key, call.touches other = false)
    (silent : ∀ other ≠ key, call.stores? other = none)
    (stored : ∃ since, (call :: before.calls).findSome? (CacheCall.stores? key) =
      some (entry.verdict, since) ∧ entry.expiresAt = since + cache.ttlMs) :
    Invariant cache ⟨room.set key entry, now, call :: before.calls⟩ where
  bounded := by
    show (room.set key entry).entries.length ≤ _
    rw [opened.set_entries, List.length_append]
    exact small
  stored other found := by
    intro present
    by_cases same : other = key
    · subst same
      rw [OrderedMap.get?_set_same, Option.some.injEq] at present
      exact present ▸ stored
    · rw [OrderedMap.get?_set_other same] at present
      obtain ⟨since, last, expires⟩ := kept.stored other found (opened.kept other found present)
      refine ⟨since, ?_, expires⟩
      rw [lastStored?, List.findSome?_cons, silent other same]
      exact last
  ordered := by
    show ByRecency _ ((room.set key entry).entries.map Prod.fst)
    rw [opened.set_entries, List.map_append]
    refine ByRecency.touched (List.Pairwise.sublist (opened.sublist.map _) kept.ordered) touched ?_
    exact fun other member => untouched other fun same => opened.absent (same ▸ member)

theorem miss (kept : Invariant cache before) {now : Int} (held : CacheEntries)
    (sublist : held.entries.Sublist before.entries.entries)
    (found : ∀ other entry, held.get? other = some entry → before.entries.get? other = some entry) :
    Invariant cache ⟨held, now, .get key now none :: before.calls⟩ where
  bounded := sublist.length_le.trans kept.bounded
  stored other entry present := kept.stored other entry (found other entry present)
  ordered := ByRecency.untouched (List.Pairwise.sublist (sublist.map _) kept.ordered)
    fun _ _ => by simp [CacheCall.touches]

theorem get (kept : Invariant cache before) (now : Int) (key : String) :
    Invariant cache ⟨(VerdictCache.get before.entries now key).2, now,
      .get key now (VerdictCache.get before.entries now key).1 :: before.calls⟩ := by
  cases found : before.entries.get? key with
  | none =>
    simp only [VerdictCache.get, found]
    exact kept.miss _ (List.Sublist.refl _) fun _ _ present => present
  | some entry =>
    have opened := Room.delete before.entries key
    by_cases expired : entry.expiresAt ≤ now
    · simp only [VerdictCache.get, found, if_pos expired]
      exact kept.miss _ opened.sublist opened.kept
    · simp only [VerdictCache.get, found, if_neg expired]
      have held : before.entries.has key = true := by rw [OrderedMap.has, found, Option.isSome_some]
      refine kept.touch opened ((size_delete held).trans_le kept.bounded) (by simp [CacheCall.touches])
        ?_ (fun _ _ => rfl) (kept.stored key entry found)
      intro other apart
      simp [CacheCall.touches, apart.symm]

theorem set (kept : Invariant cache before) (roomy : 1 ≤ cache.maxEntries) (now : Int) (key : String)
    (verdict : JudgeVerdict) :
    Invariant cache ⟨cache.set before.entries now key verdict, now, .set key now verdict :: before.calls⟩ := by
  refine kept.touch (VerdictCache.makeRoom_room roomy before.entries key)
    (VerdictCache.makeRoom_size roomy kept.bounded key) (by simp [CacheCall.touches]) ?_ ?_
    ⟨now, by simp [CacheCall.stores?], rfl⟩
  · intro other apart
    simp [CacheCall.touches, apart.symm]
  · intro other apart
    simp [CacheCall.stores?, apart.symm]

end CacheUsage.Invariant

theorem VerdictCache.invariant (roomy : 1 ≤ cache.maxEntries)
    (reached : cache.machine.Reachable unrestricted usage) : CacheUsage.Invariant cache usage := by
  refine reached.invariant ?_ ?_
  · intro usage begins
    exact ⟨by simp [begins.1, OrderedMap.size, OrderedMap.empty], by simp [begins.1],
      by simp [begins.1, OrderedMap.empty, ByRecency]⟩
  · intro before operation after _ kept _ moved
    cases operation with
    | get key now =>
      obtain ⟨-, same⟩ := Option.ite_none_right_eq_some.mp moved
      cases same
      exact kept.get now key
    | set key now verdict =>
      obtain ⟨-, same⟩ := Option.ite_none_right_eq_some.mp moved
      cases same
      exact kept.set roomy now key verdict

theorem VerdictCache.get_fresh (kept : CacheUsage.Invariant cache usage) {now : Int}
    {verdict : JudgeVerdict} (returned : (VerdictCache.get usage.entries now key).1 = some verdict) :
    ∃ since, usage.lastStored? key = some (verdict, since) ∧ now < since + cache.ttlMs := by
  cases found : usage.entries.get? key with
  | none => simp [VerdictCache.get, found] at returned
  | some entry =>
    obtain ⟨since, last, expires⟩ := kept.stored key entry found
    simp only [VerdictCache.get, found] at returned
    split at returned
    · contradiction
    · cases returned
      exact ⟨since, last, by omega⟩

theorem VerdictCache.has_set (cache : VerdictCache) (entries : CacheEntries) (now : Int)
    (key other : String) (verdict : JudgeVerdict) :
    (cache.set entries now key verdict).has other =
      (decide (other = key) || (cache.makeRoom entries key).has other) :=
  OrderedMap.has_set _ key other _

theorem has_delete (entries : CacheEntries) (key other : String) :
    (entries.delete key).has other = (!decide (other = key) && entries.has other) := by
  rw [OrderedMap.has, OrderedMap.get?_delete, OrderedMap.has]
  split <;> simp [*]

end Lobu.Proxy
