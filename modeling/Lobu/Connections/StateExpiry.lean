import Lobu.Foundation.Machine
import Lobu.Foundation.Table

namespace Lobu.Connections

open Lobu.Foundation

/-! # Expiry in the state adapter

Calls for cached values and for lists, one after the other, at times that do not go back.  The times
at which things expire are written by the clock of the process that calls, which may be any.
-/

/-- A row of `chat_state_cache`; its number is that of the call that has written it, which tells
it from others of the same key. -/
structure CacheRow where
  number : Nat
  key : String
  value : String
  expiresAt : Option Int
deriving DecidableEq

/-- A row of `chat_state_lists`, in the order of `seq`. -/
structure ListRow where
  seq : Nat
  key : String
  value : String
  expiresAt : Option Int
deriving DecidableEq

structure StateStore where
  now : Int
  cache : List CacheRow
  lists : List ListRow
  nextSeq : Nat
deriving DecidableEq

/-- `expires_at IS NULL OR expires_at > now()`. -/
def isLive (now : Int) (expiresAt : Option Int) : Bool :=
  expiresAt.all fun time => decide (now < time)

/-- `ttlMs ? new Date(Date.now() + ttlMs) : null`. -/
def expiry (clock : Int) : Option Int → Option Int
  | none => none
  | some 0 => none
  | some ttlMs => some (clock + ttlMs)

namespace StateStore

/-- The row that a read of the cache finds. -/
def cacheRow? (store : StateStore) (key : String) : Option CacheRow :=
  store.cache.find? fun row => row.key == key && isLive store.now row.expiresAt

def get (store : StateStore) (key : String) : Option String × StateStore :=
  match store.cacheRow? key with
  | some row => (some row.value, store)
  | none =>
    (none, { store with
      cache := deleteWhere (fun row => row.key == key && !isLive store.now row.expiresAt)
        store.cache })

def set (store : StateStore) (clock : Int) (key value : String) (ttlMs : Option Int) : StateStore :=
  { store with
    cache := upsert (fun row => row.key == key) ⟨store.nextSeq, key, value, expiry clock ttlMs⟩
      store.cache
    nextSeq := store.nextSeq + 1 }

/-- `ON CONFLICT DO NOTHING`. -/
def setIfNotExists (store : StateStore) (clock : Int) (key value : String) (ttlMs : Option Int) : Bool × StateStore :=
  if store.cache.any fun row => row.key == key then (false, store)
  else
    (true, { store with
      cache := store.cache ++ [⟨store.nextSeq, key, value, expiry clock ttlMs⟩]
      nextSeq := store.nextSeq + 1 })

def delete (store : StateStore) (key : String) : StateStore :=
  { store with cache := deleteWhere (fun row => row.key == key) store.cache }

def trim (key : String) (maxLength : Option Int) (rows : List ListRow) : List ListRow :=
  match maxLength with
  | none => rows
  | some 0 => rows
  | some maxLength =>
    deleteFirst (fun row => row.key == key)
      ((rows.countP fun row => row.key == key) - maxLength).toNat rows

def restamp (key : String) : Option Int → List ListRow → List ListRow
  | none, rows => rows
  | some expiresAt, rows =>
    rows.map fun row => if row.key = key then { row with expiresAt := some expiresAt } else row

def appendToList (store : StateStore) (clock : Int) (key value : String)
    (maxLength ttlMs : Option Int) : StateStore :=
  let expiresAt := expiry clock ttlMs
  let inserted := store.lists ++ [⟨store.nextSeq, key, value, expiresAt⟩]
  { store with
    lists := restamp key expiresAt (trim key maxLength inserted)
    nextSeq := store.nextSeq + 1 }

/-- The rows that a read of the list finds. -/
def listRows (store : StateStore) (key : String) : List ListRow :=
  store.lists.filter fun row => row.key == key && isLive store.now row.expiresAt

def getList (store : StateStore) (key : String) : List String :=
  (store.listRows key).map ListRow.value

end StateStore

inductive StateCall where
  | get (key : String)
  | set (key value : String) (ttlMs : Option Int)
  | setIfNotExists (key value : String) (ttlMs : Option Int)
  | delete (key : String)
  | appendToList (key value : String) (maxLength ttlMs : Option Int)
  | getList (key : String)

inductive StateEvent where
  | passed (now : Int)
  -- a call, with what the clock of the process says
  | called (clock : Int) (call : StateCall)

/-- What a call leaves behind. -/
def StateStore.call (store : StateStore) (clock : Int) : StateCall → StateStore
  | .get key => (store.get key).2
  | .set key value ttlMs => store.set clock key value ttlMs
  | .setIfNotExists key value ttlMs => (store.setIfNotExists clock key value ttlMs).2
  | .delete key => store.delete key
  | .appendToList key value maxLength ttlMs => store.appendToList clock key value maxLength ttlMs
  | .getList _ => store

def stateCalls : Machine StateStore StateEvent where
  starts store := store.cache = [] ∧ store.lists = []
  step store
    | .passed now => if store.now ≤ now then some { store with now } else none
    | .called clock call => some (store.call clock call)

/-- The rows of the list that an append leaves, before it adds its own. -/
def keptRows (store : StateStore) (key : String) (maxLength : Option Int) : List ListRow :=
  let rows := store.lists.filter fun row => row.key == key
  match maxLength with
  | none => rows
  | some 0 => rows
  | some maxLength => rows.drop (rows.length + 1 - maxLength).toNat

/-- No expired row of the key is still stored when `setIfNotExists` is called, and none of the list
when an element is appended with a time that is still to come. -/
def meetsNoExpired (store : StateStore) : StateEvent → Bool
  | .called _ (.setIfNotExists key _ _) =>
    store.cache.all fun row => row.key != key || isLive store.now row.expiresAt
  | .called clock (.appendToList key _ maxLength ttlMs) =>
    !(expiry clock ttlMs).any (fun time => decide (store.now < time)) ||
      (keptRows store key maxLength).all fun row => isLive store.now row.expiresAt
  | _ => true

abbrev meetingNone : Discipline StateStore StateEvent := fun store event => meetsNoExpired store event = true

section Steps

variable {before after : StateStore} {event : StateEvent} {key value : String}
variable {clock now : Int} {maxLength ttlMs expiresAt : Option Int}

theorem isLive_of_later {later : Int} (passed : now ≤ later) (live : isLive later expiresAt = true) :
    isLive now expiresAt = true := by
  cases expiresAt with
  | none => rfl
  | some time =>
    simp only [isLive, Option.all_some, decide_eq_true_eq] at *
    omega

/-- What is read now and is not new was read before. -/
structure NoneBack (before after : StateStore) : Prop where
  nextSeq : before.nextSeq ≤ after.nextSeq
  cached : ∀ row ∈ after.cache, isLive after.now row.expiresAt = true → row.number < before.nextSeq →
    ∃ old ∈ before.cache, old.number = row.number ∧ isLive before.now old.expiresAt = true
  listed : ∀ row ∈ after.lists, isLive after.now row.expiresAt = true → row.seq < before.nextSeq →
    ∃ old ∈ before.lists, old.seq = row.seq ∧ isLive before.now old.expiresAt = true

theorem NoneBack.refl (store : StateStore) : NoneBack store store :=
  ⟨le_rfl, fun row present live _ => ⟨row, present, rfl, live⟩,
    fun row present live _ => ⟨row, present, rfl, live⟩⟩

theorem NoneBack.trans {between : StateStore} (first : NoneBack before between)
    (second : NoneBack between after) : NoneBack before after := by
  refine ⟨first.nextSeq.trans second.nextSeq, ?_, ?_⟩
  · intro row present live drawn
    obtain ⟨middle, middlePresent, same, middleLive⟩ :=
      second.cached row present live (drawn.trans_le first.nextSeq)
    obtain ⟨old, oldPresent, oldSame, oldLive⟩ :=
      first.cached middle middlePresent middleLive (same.trans_lt drawn)
    exact ⟨old, oldPresent, oldSame.trans same, oldLive⟩
  · intro row present live drawn
    obtain ⟨middle, middlePresent, same, middleLive⟩ :=
      second.listed row present live (drawn.trans_le first.nextSeq)
    obtain ⟨old, oldPresent, oldSame, oldLive⟩ :=
      first.listed middle middlePresent middleLive (same.trans_lt drawn)
    exact ⟨old, oldPresent, oldSame.trans same, oldLive⟩

theorem NoneBack.of_cache {cache : List CacheRow} {nextSeq : Nat} (drawn : before.nextSeq ≤ nextSeq)
    (fewer : ∀ row ∈ cache, row.number = before.nextSeq ∨ row ∈ before.cache) :
    NoneBack before { before with cache, nextSeq } := by
  refine ⟨drawn, ?_, fun row present live _ => ⟨row, present, rfl, live⟩⟩
  intro row present live old
  rcases fewer row present with new | stored
  · omega
  · exact ⟨row, stored, rfl, live⟩

theorem mem_trim {rows : List ListRow} {row : ListRow} (present : row ∈ StateStore.trim key maxLength rows) :
    row ∈ rows := by
  unfold StateStore.trim at present
  split at present
  · exact present
  · exact present
  · exact (deleteFirst_sublist _ _ _).subset present

/-- Of the key's older rows, `trim` leaves those that `keptRows` names. -/
theorem mem_trim_inserted {new row : ListRow} (newKey : new.key = key) (rowKey : row.key = key) (other : row ≠ new) :
    row ∈ StateStore.trim key maxLength (before.lists ++ [new]) ↔ row ∈ keptRows before key maxLength := by
  have inKey : ∀ rows : List ListRow, row ∈ rows ↔ row ∈ rows.filter fun row => row.key == key := by
    intro rows
    rw [List.mem_filter]
    simp [rowKey]
  have inserted : ((before.lists ++ [new]).filter fun row => row.key == key) =
      (before.lists.filter fun row => row.key == key) ++ [new] := by
    rw [List.filter_append, List.filter_cons_of_pos (by simp [newKey]), List.filter_nil]
  have notNew : ∀ rows : List ListRow, row ∈ rows ++ [new] ↔ row ∈ rows := by
    intro rows
    rw [List.mem_append, List.mem_singleton, or_iff_left other]
  rw [inKey]
  unfold keptRows StateStore.trim
  split
  · rw [inserted, notNew]
  · rw [inserted, notNew]
  · dsimp only
    rw [filter_deleteFirst, inserted, List.countP_eq_length_filter, inserted, List.length_append,
      List.length_singleton, Int.natCast_succ]
    generalize (before.lists.filter fun row => row.key == key) = rows
    rename_i bound _
    generalize ((rows.length : Int) + 1 - bound).toNat = count
    rw [List.drop_append]
    constructor
    · intro present
      rcases List.mem_append.mp present with old | fresh
      · exact old
      · exact absurd (List.mem_singleton.mp (List.mem_of_mem_drop fresh)) other
    · exact fun old => List.mem_append_left _ old

theorem restamp_seq (row : ListRow) (time : Int) :
    (if row.key = key then { row with expiresAt := some time } else row).seq = row.seq := by
  split <;> rfl

theorem noneBack_appendToList (carefully : meetsNoExpired before
      (.called clock (.appendToList key value maxLength ttlMs)) = true) :
    NoneBack before (before.appendToList clock key value maxLength ttlMs) := by
  refine ⟨Nat.le_succ _, fun row present live _ => ⟨row, present, rfl, live⟩, ?_⟩
  intro row present live drawn
  have old : ∀ stored ∈ StateStore.trim key maxLength
      (before.lists ++ [⟨before.nextSeq, key, value, expiry clock ttlMs⟩]),
      stored.seq = row.seq → stored ≠ ⟨before.nextSeq, key, value, expiry clock ttlMs⟩ ∧
        stored ∈ before.lists := by
    intro stored there same
    have other : stored ≠ ⟨before.nextSeq, key, value, expiry clock ttlMs⟩ := by
      rintro rfl
      exact drawn.ne same.symm
    refine ⟨other, ?_⟩
    rcases List.mem_append.mp (mem_trim there) with stays | fresh
    · exact stays
    · exact absurd (List.mem_singleton.mp fresh) other
  cases stamped : expiry clock ttlMs with
  | none =>
    simp only [StateStore.appendToList, stamped, StateStore.restamp] at present old
    exact ⟨row, (old row present rfl).2, rfl, live⟩
  | some time =>
    simp only [StateStore.appendToList, stamped, StateStore.restamp] at present old
    obtain ⟨stored, there, rfl⟩ := List.mem_map.mp present
    rw [restamp_seq] at old ⊢
    obtain ⟨other, stays⟩ := old stored there rfl
    refine ⟨stored, stays, rfl, ?_⟩
    by_cases ofList : stored.key = key
    · -- the new time is still to come, so nothing in the list has expired
      rw [if_pos ofList] at live
      have kept := (mem_trim_inserted rfl ofList other).mp there
      simp only [meetsNoExpired, stamped, Option.any_some, Bool.or_eq_true, Bool.not_eq_true',
        decide_eq_false_iff_not] at carefully
      rcases carefully with past | alive
      · exact absurd (of_decide_eq_true live) past
      · exact List.all_eq_true.mp alive stored kept
    · rwa [if_neg ofList] at live

theorem noneBack_call {call : StateCall} (carefully : meetsNoExpired before (.called clock call) = true) :
    NoneBack before (before.call clock call) := by
  cases call with
  | get key =>
    simp only [StateStore.call, StateStore.get]
    split
    · exact .refl before
    · exact .of_cache le_rfl fun row present => .inr (mem_deleteWhere.mp present).1
  | set key value ttlMs =>
    refine .of_cache (Nat.le_succ _) fun row present => ?_
    rcases mem_upsert present with rfl | old
    · exact .inl rfl
    · exact .inr old.1
  | setIfNotExists key value ttlMs =>
    simp only [StateStore.call, StateStore.setIfNotExists]
    split
    · exact .refl before
    · refine .of_cache (Nat.le_succ _) fun row present => ?_
      rcases List.mem_append.mp present with old | fresh
      · exact .inr old
      · exact .inl (List.mem_singleton.mp fresh ▸ rfl)
  | delete key => exact .of_cache le_rfl fun row present => .inr (mem_deleteWhere.mp present).1
  | appendToList key value maxLength ttlMs => exact noneBack_appendToList carefully
  | getList key => exact .refl before

theorem noneBack_step (carefully : meetingNone before event)
    (moved : stateCalls.step before event = some after) : NoneBack before after := by
  cases event with
  | passed now =>
    simp only [stateCalls] at moved
    split at moved
    · rename_i later
      cases moved
      exact ⟨le_rfl, fun row present live _ => ⟨row, present, rfl, isLive_of_later later live⟩,
        fun row present live _ => ⟨row, present, rfl, isLive_of_later later live⟩⟩
    · cases moved
  | called clock call =>
    cases moved
    exact noneBack_call carefully

end Steps

/-- The cache has a unique index on its keys. -/
structure WellKept (store : StateStore) : Prop where
  cacheNumbers : Numbered CacheRow.number store.nextSeq store.cache
  listNumbers : Numbered ListRow.seq store.nextSeq store.lists
  keys : ∀ row ∈ store.cache, ∀ other ∈ store.cache, row.key = other.key → row = other

section Reached

variable {allowed : Discipline StateStore StateEvent} {before after store : StateStore}
variable {key value : String} {clock : Int} {maxLength ttlMs : Option Int}

theorem WellKept.withCache (kept : WellKept store) {cache : List CacheRow}
    (fewer : ∀ row ∈ cache, row ∈ store.cache) : WellKept { store with cache } :=
  ⟨kept.cacheNumbers.subset fewer, kept.listNumbers,
    fun row present other otherPresent => kept.keys row (fewer row present) other (fewer other otherPresent)⟩

theorem WellKept.withRow (kept : WellKept store) {cache : List CacheRow} (key value : String)
    (expiresAt : Option Int) (fewer : ∀ row ∈ cache,
      row = ⟨store.nextSeq, key, value, expiresAt⟩ ∨ row ∈ store.cache ∧ row.key ≠ key) :
    WellKept { store with cache, nextSeq := store.nextSeq + 1 } := by
  refine ⟨?_, kept.listNumbers.mono (Nat.le_succ _), ?_⟩
  · exact kept.cacheNumbers.insert rfl fun row present => (fewer row present).imp_right And.left
  · intro row present other otherPresent same
    rcases fewer row present with rfl | ⟨old, apart⟩
    · rcases fewer other otherPresent with rfl | ⟨_, otherApart⟩
      · rfl
      · exact absurd same.symm otherApart
    · rcases fewer other otherPresent with rfl | ⟨otherOld, _⟩
      · exact absurd same apart
      · exact kept.keys row old other otherOld same

theorem wellKept_appendToList (kept : WellKept before) :
    WellKept (before.appendToList clock key value maxLength ttlMs) := by
  refine ⟨kept.cacheNumbers.mono (Nat.le_succ _), ?_, kept.keys⟩
  simp only [StateStore.appendToList]
  generalize expiry clock ttlMs = expiresAt
  have inserted : Numbered ListRow.seq (before.nextSeq + 1)
      (StateStore.trim key maxLength (before.lists ++ [⟨before.nextSeq, key, value, expiresAt⟩])) := by
    refine kept.listNumbers.insert
      (show ListRow.seq ⟨before.nextSeq, key, value, expiresAt⟩ = before.nextSeq from rfl) ?_
    intro row present
    rcases List.mem_append.mp (mem_trim present) with old | fresh
    · exact .inr old
    · exact .inl (List.mem_singleton.mp fresh)
  cases expiresAt with
  | none => exact inserted
  | some time => exact inserted.map fun row => restamp_seq row time

theorem wellKept_call (kept : WellKept before) (call : StateCall) : WellKept (before.call clock call) := by
  cases call with
  | get key =>
    simp only [StateStore.call, StateStore.get]
    split
    · exact kept
    · exact kept.withCache fun row present => (mem_deleteWhere.mp present).1
  | set key value ttlMs =>
    refine kept.withRow key value (expiry clock ttlMs) fun row present => ?_
    exact (mem_upsert present).imp_right fun ⟨old, apart⟩ => ⟨old, by simpa using apart⟩
  | setIfNotExists key value ttlMs =>
    simp only [StateStore.call, StateStore.setIfNotExists]
    split
    · exact kept
    · rename_i absent
      refine kept.withRow key value (expiry clock ttlMs) fun row present => ?_
      rcases List.mem_append.mp present with old | fresh
      · refine .inr ⟨old, fun same => absent ?_⟩
        exact List.any_eq_true.mpr ⟨row, old, by simpa using same⟩
      · exact .inl (List.mem_singleton.mp fresh)
  | delete key => exact kept.withCache fun row present => (mem_deleteWhere.mp present).1
  | appendToList key value maxLength ttlMs => exact wellKept_appendToList kept
  | getList key => exact kept

theorem wellKept_of_reachable (reached : stateCalls.Reachable allowed store) : WellKept store := by
  refine reached.invariant ?_ ?_
  · rintro store ⟨noCache, noLists⟩
    refine ⟨?_, ?_, ?_⟩
    · rw [noCache]
      exact .nil
    · rw [noLists]
      exact .nil
    · rw [noCache]
      intro row absent
      cases absent
  · intro before event after _ kept _ moved
    cases event with
    | passed now =>
      simp only [stateCalls] at moved
      split at moved
      · cases moved
        exact ⟨kept.cacheNumbers, kept.listNumbers, kept.keys⟩
      · cases moved
    | called clock call =>
      cases moved
      exact wellKept_call kept call

theorem noneBack_of_later (reached : stateCalls.Reachable meetingNone before)
    (later : stateCalls.Later meetingNone before after) : NoneBack before after :=
  later.related NoneBack NoneBack.refl (fun _ _ _ first second => first.trans second)
    (fun _ _ _ _ carefully moved => noneBack_step carefully moved) reached

theorem mem_of_cacheRow? {row : CacheRow} (found : store.cacheRow? key = some row) :
    row ∈ store.cache ∧ row.key = key ∧ isLive store.now row.expiresAt = true := by
  have holds := List.find?_some found
  rw [Bool.and_eq_true, beq_iff_eq] at holds
  exact ⟨List.mem_of_find?_eq_some found, holds⟩

theorem cacheRow?_eq_none_iff : store.cacheRow? key = none ↔
    ∀ row ∈ store.cache, row.key = key → isLive store.now row.expiresAt = false := by
  simp [StateStore.cacheRow?, List.find?_eq_none]

theorem setIfNotExists_true_iff (kept : WellKept store) :
    ((store.setIfNotExists clock key value ttlMs).1 = true ↔ store.cacheRow? key = none) ↔
      meetsNoExpired store (.called clock (.setIfNotExists key value ttlMs)) = true := by
  have result : (store.setIfNotExists clock key value ttlMs).1 = true ↔ ∀ row ∈ store.cache, row.key ≠ key := by
    unfold StateStore.setIfNotExists
    split
    · rename_i present
      obtain ⟨row, stored, same⟩ := List.any_eq_true.mp present
      simp only [Bool.false_eq_true, false_iff, not_forall]
      exact ⟨row, stored, fun other => other (by simpa using same)⟩
    · rename_i absent
      simp only [true_iff]
      intro row stored same
      exact absent (List.any_eq_true.mpr ⟨row, stored, by simpa using same⟩)
  rw [result, cacheRow?_eq_none_iff]
  simp only [meetsNoExpired, List.all_eq_true, Bool.or_eq_true, bne_iff_ne]
  constructor
  · intro exactly row stored
    by_cases same : row.key = key
    · refine .inr ?_
      by_contra expired
      have others : ∀ other ∈ store.cache, other.key = key → isLive store.now other.expiresAt = false := by
        intro other otherStored otherKey
        rw [kept.keys other otherStored row stored (otherKey.trans same.symm)]
        exact Bool.not_eq_true _ ▸ expired
      exact exactly.mpr others row stored same
    · exact .inl same
  · intro carefully
    refine ⟨fun absent row stored same => absurd same (absent row stored), ?_⟩
    intro expired row stored same
    rcases carefully row stored with other | live
    · exact other same
    · rw [expired row stored same] at live
      cases live

end Reached

/-- What has expired is not read any more. -/
def StaysExpired (before after : StateStore) : Prop :=
  (∀ row ∈ before.cache, isLive before.now row.expiresAt = false →
    ∀ key, ∀ found ∈ after.cacheRow? key, found.number ≠ row.number) ∧
  ∀ row ∈ before.lists, isLive before.now row.expiresAt = false →
    ∀ key, ∀ found ∈ after.listRows key, found.seq ≠ row.seq

/-- `setIfNotExists` stores its value, and says so, where there is no unexpired entry. -/
def GoesByUnexpired (store : StateStore) (clock : Int) (key value : String) (ttlMs : Option Int) : Prop :=
  ((store.setIfNotExists clock key value ttlMs).1 = true ↔ store.cacheRow? key = none) ∧
  ∀ row, row ∈ (store.setIfNotExists clock key value ttlMs).2.cache ↔
    row ∈ store.cache ∨ store.cacheRow? key = none ∧
      row = ⟨store.nextSeq, key, value, expiry clock ttlMs⟩

section Results

variable {before after store : StateStore} {key value : String} {clock : Int}
variable {allowed : Discipline StateStore StateEvent} {maxLength ttlMs : Option Int}

theorem goesByUnexpired_iff (kept : WellKept store) :
    GoesByUnexpired store clock key value ttlMs ↔
      meetsNoExpired store (.called clock (.setIfNotExists key value ttlMs)) = true := by
  rw [← setIfNotExists_true_iff kept]
  refine ⟨And.left, fun exactly => ⟨exactly, fun row => ?_⟩⟩
  rw [← exactly]
  unfold StateStore.setIfNotExists
  split <;> simp

theorem staysExpired_of_noneBack (kept : WellKept before) (back : NoneBack before after) :
    StaysExpired before after := by
  constructor
  · intro row stored expired key found read same
    obtain ⟨present, -, live⟩ := mem_of_cacheRow? read
    obtain ⟨old, oldStored, oldSame, oldLive⟩ := back.cached found present live
      (same.trans_lt (kept.cacheNumbers.drawn row stored))
    rw [kept.cacheNumbers.unique old oldStored row stored (oldSame.trans same), expired] at oldLive
    cases oldLive
  · intro row stored expired key found read same
    obtain ⟨present, readable⟩ := List.mem_filter.mp read
    rw [Bool.and_eq_true] at readable
    obtain ⟨old, oldStored, oldSame, oldLive⟩ := back.listed found present readable.2
      (same.trans_lt (kept.listNumbers.drawn row stored))
    rw [kept.listNumbers.unique old oldStored row stored (oldSame.trans same), expired] at oldLive
    cases oldLive

theorem mem_of_keptRows {row : ListRow} (present : row ∈ keptRows store key maxLength) :
    row ∈ store.lists ∧ row.key = key := by
  have ofKey : row ∈ store.lists.filter fun row => row.key == key := by
    unfold keptRows at present
    split at present
    · exact present
    · exact present
    · exact List.mem_of_mem_drop present
  rw [List.mem_filter, beq_iff_eq] at ofKey
  exact ofKey

theorem append_staysExpired_iff (kept : WellKept store) :
    StaysExpired store (store.appendToList clock key value maxLength ttlMs) ↔
      meetsNoExpired store (.called clock (.appendToList key value maxLength ttlMs)) = true := by
  refine ⟨fun stays => ?_, fun carefully =>
    staysExpired_of_noneBack kept (noneBack_appendToList carefully)⟩
  by_contra careless
  simp only [meetsNoExpired, Bool.or_eq_true, not_or, Bool.not_eq_true', Bool.not_eq_false,
    Option.any_eq_true, decide_eq_true_eq, List.all_eq_true, not_forall] at careless
  obtain ⟨⟨time, stamped, future⟩, row, left, expired⟩ := careless
  rw [Bool.not_eq_true] at expired
  obtain ⟨stored, ofKey⟩ := mem_of_keptRows left
  have other : row ≠ ⟨store.nextSeq, key, value, some time⟩ := by
    rintro rfl
    exact (kept.listNumbers.drawn _ stored).ne rfl
  have there := (mem_trim_inserted rfl ofKey other).mpr left
  refine stays.2 row stored expired key { row with expiresAt := some time } ?_ rfl
  simp only [StateStore.listRows, StateStore.appendToList, StateStore.restamp, stamped,
    List.mem_filter, List.mem_map, isLive, Option.all_some, Bool.and_eq_true, beq_iff_eq,
    decide_eq_true_eq]
  exact ⟨⟨row, there, if_pos ofKey⟩, ofKey, future⟩

/-- Where no call finds what has expired still stored, it stays expired, and an expired entry is
like none. -/
theorem expired_entries_are_gone (reached : stateCalls.Reachable meetingNone before)
    (later : stateCalls.Later meetingNone before after) :
    StaysExpired before after ∧ (∀ clock key value maxLength ttlMs,
        StaysExpired after (after.appendToList clock key value maxLength ttlMs) ↔
          meetsNoExpired after (.called clock (.appendToList key value maxLength ttlMs)) = true) ∧
      ∀ clock key value ttlMs, GoesByUnexpired after clock key value ttlMs ↔
        meetsNoExpired after (.called clock (.setIfNotExists key value ttlMs)) = true := by
  have kept := wellKept_of_reachable (reached.later later)
  refine ⟨?_, fun _ _ _ _ _ => append_staysExpired_iff kept, fun _ _ _ _ => goesByUnexpired_iff kept⟩
  exact staysExpired_of_noneBack (wellKept_of_reachable reached) (noneBack_of_later reached later)

end Results

def emptyStore : StateStore := ⟨0, [], [], 0⟩

/-- A second element brings back the first one, and a key whose value has expired is still taken. -/
theorem expired_entries_stay :
    (¬ ∀ before after, stateCalls.Reachable unrestricted before →
      stateCalls.Later unrestricted before after → StaysExpired before after) ∧
    ¬ ∀ store, stateCalls.Reachable unrestricted store →
      ∀ clock key value ttlMs, GoesByUnexpired store clock key value ttlMs := by
  constructor
  · intro always
    have refuted : ¬ ∀ before after, stateCalls.Reachable unrestricted before →
        stateCalls.Later unrestricted before after →
          ∀ row ∈ before.lists, isLive before.now row.expiresAt = false →
            ∀ found ∈ after.listRows "list", found.seq ≠ row.seq :=
      Machine.refutes_later_of_replay emptyStore
        [.called 0 (.appendToList "list" "first" none (some 10)), .passed 20]
        [.called 20 (.appendToList "list" "second" none (some 10))] ⟨rfl, rfl⟩ (by decide +kernel)
    exact refuted fun before after reached later row stored expired found =>
      (always before after reached later).2 row stored expired "list" found
  · intro always
    obtain ⟨store, reached, tested⟩ := Machine.exists_of_replay stateCalls unrestricted emptyStore
      [.called 0 (.set "key" "first" (some 10)), .passed 20]
      (fun store =>
        !(store.setIfNotExists 20 "key" "second" none).1 && (store.cacheRow? "key").isNone)
      ⟨rfl, rfl⟩ (by decide +kernel)
    rw [Bool.and_eq_true, Bool.not_eq_true', Option.isNone_iff_eq_none] at tested
    have taken := (always store reached 20 "key" "second" none).1.mpr tested.2
    rw [tested.1] at taken
    cases taken

/-- A list whose element has expired is trimmed to the new one, which alone is read. -/
theorem expired_entries_are_gone_list : ∃ before after,
    stateCalls.Reachable meetingNone before ∧ before.getList "list" = [] ∧
      stateCalls.Later meetingNone before after ∧ after.getList "list" = ["second"] ∧ StaysExpired before after := by
  obtain ⟨before, reached, tested⟩ := Machine.exists_of_replay stateCalls meetingNone emptyStore
    [.called 0 (.appendToList "list" "first" none (some 10)), .passed 20]
    (fun store => decide (store = ⟨20, [], [⟨0, "list", "first", some 10⟩], 1⟩))
    ⟨rfl, rfl⟩ (by decide +kernel)
  rw [of_decide_eq_true tested] at reached
  obtain ⟨after, later, read⟩ := Machine.exists_later_of_replay stateCalls meetingNone
    ⟨20, [], [⟨0, "list", "first", some 10⟩], 1⟩
    [.called 20 (.appendToList "list" "second" (some 1) (some 10))]
    (fun store => decide (store.getList "list" = ["second"])) (by decide +kernel)
  exact ⟨_, after, reached, by decide, later, of_decide_eq_true read,
    (expired_entries_are_gone reached later).1⟩

end Lobu.Connections
