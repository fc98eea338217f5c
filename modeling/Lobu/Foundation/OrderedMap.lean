import Mathlib.Data.List.Nodup

namespace Lobu.Foundation

/-! # Ordered maps

A `Map`: no key twice, and the entries in the order in which their keys were first put in.
-/

universe u v

structure OrderedMap (κ : Type u) (α : Type v) where
  entries : List (κ × α)
  once : (entries.map Prod.fst).Nodup

namespace OrderedMap

variable {κ : Type u} {α : Type v} [DecidableEq κ] {map : OrderedMap κ α} {key other : κ} {value : α}

def empty : OrderedMap κ α := ⟨[], List.nodup_nil⟩

def get? (map : OrderedMap κ α) (key : κ) : Option α := map.entries.lookup key

def has (map : OrderedMap κ α) (key : κ) : Bool := (map.get? key).isSome

def size (map : OrderedMap κ α) : Nat := map.entries.length

def delete (map : OrderedMap κ α) (key : κ) : OrderedMap κ α where
  entries := map.entries.filter fun entry => !decide (entry.1 = key)
  once := map.once.sublist (List.filter_sublist.map _)

/-- The key that was put in first. -/
def oldest? (map : OrderedMap κ α) : Option κ := map.entries.head?.map Prod.fst

def putUnder (key : κ) (value : α) : List (κ × α) → List (κ × α)
  | [] => [(key, value)]
  | entry :: entries =>
    if entry.1 = key then (key, value) :: entries else entry :: putUnder key value entries

variable {entries : List (κ × α)}

theorem mem_keys_putUnder :
    other ∈ (putUnder key value entries).map Prod.fst ↔ other = key ∨ other ∈ entries.map Prod.fst := by
  induction entries with
  | nil => simp [putUnder]
  | cons entry entries ih =>
    by_cases same : entry.1 = key
    · rw [putUnder, if_pos same, List.map_cons, List.mem_cons, List.map_cons, List.mem_cons, same]
      tauto
    · simp only [putUnder, if_neg same, List.map_cons, List.mem_cons, ih]
      tauto

theorem putUnder_nodup (once : (entries.map Prod.fst).Nodup) : ((putUnder key value entries).map Prod.fst).Nodup := by
  induction entries with
  | nil => simp [putUnder]
  | cons entry entries ih =>
    simp only [List.map_cons, List.nodup_cons] at once
    by_cases same : entry.1 = key
    · rw [putUnder, if_pos same, List.map_cons, List.nodup_cons]
      exact ⟨same ▸ once.1, once.2⟩
    · simp only [putUnder, if_neg same, List.map_cons, List.nodup_cons]
      refine ⟨?_, ih once.2⟩
      intro member
      rcases mem_keys_putUnder.mp member with isKey | present
      · exact same isKey
      · exact once.1 present

theorem putUnder_absent (absent : key ∉ entries.map Prod.fst) :
    putUnder key value entries = entries ++ [(key, value)] := by
  induction entries with
  | nil => rfl
  | cons entry entries ih =>
    rw [List.map_cons, List.mem_cons, not_or] at absent
    rw [putUnder, if_neg (Ne.symm absent.1), ih absent.2, List.cons_append]

/-- A key that is there keeps its place. -/
def set (map : OrderedMap κ α) (key : κ) (value : α) : OrderedMap κ α where
  entries := putUnder key value map.entries
  once := putUnder_nodup map.once

@[simp] theorem get?_empty (key : κ) : (empty : OrderedMap κ α).get? key = none := rfl

theorem lookup_cons_eq (entry : κ × α) (entries : List (κ × α)) (other : κ) :
    (entry :: entries).lookup other = if other = entry.1 then some entry.2 else entries.lookup other := by
  rw [List.lookup_cons]
  by_cases same : other = entry.1
  · simp [same]
  · simp [same, beq_eq_false_iff_ne.mpr same]

theorem lookup_putUnder (key other : κ) (value : α) (entries : List (κ × α)) :
    (putUnder key value entries).lookup other = if other = key then some value else entries.lookup other := by
  induction entries with
  | nil => simp [putUnder, lookup_cons_eq]
  | cons entry entries ih =>
    by_cases found : entry.1 = key
    · rw [putUnder, if_pos found, lookup_cons_eq, lookup_cons_eq, found]
      by_cases same : other = key <;> simp [same]
    · rw [putUnder, if_neg found, lookup_cons_eq, lookup_cons_eq, ih]
      by_cases same : other = key
      · simp [same, Ne.symm found]
      · simp [same]

theorem has_iff_mem : map.has key = true ↔ key ∈ map.entries.map Prod.fst := by
  rw [has, get?]
  induction map.entries with
  | nil => simp
  | cons entry entries ih =>
    rw [lookup_cons_eq, List.map_cons, List.mem_cons, ← ih]
    by_cases same : key = entry.1
    · simp [same]
    · simp [same]

theorem get?_set (map : OrderedMap κ α) (key other : κ) (value : α) :
    (map.set key value).get? other = if other = key then some value else map.get? other :=
  lookup_putUnder key other value map.entries

@[simp] theorem get?_set_same (map : OrderedMap κ α) (key : κ) (value : α) :
    (map.set key value).get? key = some value := by
  rw [get?_set, if_pos rfl]

theorem get?_set_other (apart : other ≠ key) : (map.set key value).get? other = map.get? other := by
  rw [get?_set, if_neg apart]

theorem lookup_filter_ne (key other : κ) (entries : List (κ × α)) :
    (entries.filter fun entry => !decide (entry.1 = key)).lookup other =
      if other = key then none else entries.lookup other := by
  induction entries with
  | nil => simp
  | cons entry entries ih =>
    by_cases found : entry.1 = key
    · rw [List.filter_cons_of_neg (by simp [found]), ih, lookup_cons_eq, found]
      by_cases same : other = key <;> simp [same]
    · rw [List.filter_cons_of_pos (by simp [found]), lookup_cons_eq, lookup_cons_eq, ih]
      by_cases same : other = key
      · simp [same, Ne.symm found]
      · simp [same]

theorem get?_delete (map : OrderedMap κ α) (key other : κ) :
    (map.delete key).get? other = if other = key then none else map.get? other :=
  lookup_filter_ne key other map.entries

@[simp] theorem get?_delete_same (map : OrderedMap κ α) (key : κ) : (map.delete key).get? key = none := by
  rw [get?_delete, if_pos rfl]

theorem get?_delete_other (apart : other ≠ key) : (map.delete key).get? other = map.get? other := by
  rw [get?_delete, if_neg apart]

/-- Deletes the entries that fail a test, as a loop over the map does. -/
def filter (keeps : κ → α → Bool) (map : OrderedMap κ α) : OrderedMap κ α where
  entries := map.entries.filter fun entry => keeps entry.1 entry.2
  once := map.once.sublist (List.filter_sublist.map _)

theorem get?_of_not_mem (missing : key ∉ entries.map Prod.fst) : entries.lookup key = none := by
  rw [List.lookup_eq_none_iff]
  intro entry member
  simp only [bne_iff_ne, ne_eq]
  intro same
  exact missing (same ▸ List.mem_map_of_mem member)

theorem get?_filter (keeps : κ → α → Bool) (map : OrderedMap κ α) (key : κ) :
    (map.filter keeps).get? key = (map.get? key).filter (keeps key) := by
  have once := map.once
  show (map.entries.filter fun entry => keeps entry.1 entry.2).lookup key = _
  rw [get?]
  generalize map.entries = entries at once
  induction entries with
  | nil => rfl
  | cons entry entries ih =>
    rw [List.map_cons, List.nodup_cons] at once
    rw [lookup_cons_eq]
    by_cases same : key = entry.1
    · have absent : (entries.filter fun entry => keeps entry.1 entry.2).lookup key = none := by
        refine get?_of_not_mem fun member => once.1 ?_
        rw [← same]
        exact (List.filter_sublist.map _).subset member
      by_cases kept : keeps entry.1 entry.2 = true
      · simp only [List.filter_cons, kept, if_true, lookup_cons_eq, same, Option.filter_some]
      · subst same
        simp only [List.filter_cons, kept, Bool.false_eq_true, if_false, absent, if_true, Option.filter_some]
    · rw [if_neg same, ← ih once.2]
      by_cases kept : keeps entry.1 entry.2 = true
      · simp only [List.filter_cons, kept, if_true, lookup_cons_eq, if_neg same]
      · simp only [List.filter_cons, kept, Bool.false_eq_true, if_false]

def mapValues (change : κ → α → α) (map : OrderedMap κ α) : OrderedMap κ α where
  entries := map.entries.map fun entry => (entry.1, change entry.1 entry.2)
  once := by simpa [Function.comp_def] using map.once

theorem get?_mapValues (change : κ → α → α) (map : OrderedMap κ α) (key : κ) :
    (map.mapValues change).get? key = (map.get? key).map (change key) := by
  show (map.entries.map fun entry => (entry.1, change entry.1 entry.2)).lookup key = _
  rw [get?]
  induction map.entries with
  | nil => rfl
  | cons entry entries ih =>
    rw [List.map_cons, lookup_cons_eq, lookup_cons_eq, ih]
    by_cases same : key = entry.1
    · simp [same]
    · simp [same]

@[simp] theorem has_mapValues (change : κ → α → α) (map : OrderedMap κ α) (key : κ) :
    (map.mapValues change).has key = map.has key := by
  rw [has, get?_mapValues, Option.isSome_map, has]

theorem has_set (map : OrderedMap κ α) (key other : κ) (value : α) :
    (map.set key value).has other = (decide (other = key) || map.has other) := by
  rw [has, get?_set]
  by_cases same : other = key
  · simp [same]
  · simp [same, has]

end OrderedMap

end Lobu.Foundation
