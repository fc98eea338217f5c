import Mathlib.Data.List.Induction
import Mathlib.Data.List.Nodup

namespace Lobu.Foundation

/-! # Grouping

What a `Map` from keys to arrays holds after every item was pushed under its
key, in the order in which the keys first came.
-/

universe u v

variable {κ : Type u} {α : Type v} [DecidableEq κ]

def pushUnder (key : κ) (item : α) : List (κ × List α) → List (κ × List α)
  | [] => [(key, [item])]
  | (other, group) :: groups =>
    if other = key then (other, group ++ [item]) :: groups
    else (other, group) :: pushUnder key item groups

def grouped (items : List (κ × α)) : List (κ × List α) :=
  items.foldl (fun groups item => pushUnder item.1 item.2 groups) []

/-- The items under a key, in their order. -/
def itemsUnder (key : κ) (items : List (κ × α)) : List α :=
  (items.filter fun item => decide (item.1 = key)).map Prod.snd

variable {key other : κ} {item : α} {items : List (κ × α)} {group : List α}
variable {groups : List (κ × List α)}

theorem mem_keys_pushUnder :
    other ∈ (pushUnder key item groups).map Prod.fst ↔ other = key ∨ other ∈ groups.map Prod.fst := by
  induction groups with
  | nil => simp [pushUnder]
  | cons first groups ih =>
    rw [pushUnder]
    split
    · rename_i same
      subst same
      simp
    · rw [List.map_cons, List.mem_cons, ih, List.map_cons, List.mem_cons]
      tauto

theorem pushUnder_nodup (once : (groups.map Prod.fst).Nodup) : ((pushUnder key item groups).map Prod.fst).Nodup := by
  induction groups with
  | nil => simp [pushUnder]
  | cons first groups ih =>
    rw [List.map_cons, List.nodup_cons] at once
    rw [pushUnder]
    split
    · rw [List.map_cons, List.nodup_cons]
      exact once
    · rename_i different
      rw [List.map_cons, List.nodup_cons, mem_keys_pushUnder]
      refine ⟨?_, ih once.2⟩
      rintro (same | inside)
      · exact different same
      · exact once.1 inside

theorem mem_pushUnder (once : (groups.map Prod.fst).Nodup) :
    (other, group) ∈ pushUnder key item groups ↔ if other = key then ∃ before, group = before ++ [item] ∧
          ((key, before) ∈ groups ∨ before = [] ∧ key ∉ groups.map Prod.fst) else (other, group) ∈ groups := by
  induction groups with
  | nil =>
    by_cases same : other = key <;> simp [pushUnder, same]
  | cons first groups ih =>
    obtain ⟨name, held⟩ := first
    rw [List.map_cons, List.nodup_cons] at once
    have absent : ∀ before, (name, before) ∉ groups := fun before inside =>
      once.1 (List.mem_map.mpr ⟨_, inside, rfl⟩)
    rw [pushUnder]
    split
    · rename_i same
      subst same
      by_cases asked : other = name
      · subst asked
        simp [absent]
      · simp [asked]
    · rename_i different
      rw [List.mem_cons, ih once.2]
      by_cases asked : other = key
      · subst asked
        simp [Ne.symm different]
      · simp [asked]

theorem grouped_concat (items : List (κ × α)) (last : κ × α) :
    grouped (items ++ [last]) = pushUnder last.1 last.2 (grouped items) := by
  simp [grouped, List.foldl_append]

theorem grouped_nodup (items : List (κ × α)) : ((grouped items).map Prod.fst).Nodup := by
  induction items using List.reverseRecOn with
  | nil => exact List.nodup_nil
  | append_singleton items last ih =>
    rw [grouped_concat]
    exact pushUnder_nodup ih

theorem mem_keys_grouped : other ∈ (grouped items).map Prod.fst ↔ other ∈ items.map Prod.fst := by
  induction items using List.reverseRecOn with
  | nil => exact Iff.rfl
  | append_singleton items last ih =>
    rw [grouped_concat, mem_keys_pushUnder, ih]
    simp [or_comm]

theorem itemsUnder_eq_nil : itemsUnder key items = [] ↔ key ∉ items.map Prod.fst := by
  simp only [itemsUnder, List.map_eq_nil_iff, List.filter_eq_nil_iff, decide_eq_true_eq,
    List.mem_map, not_exists, not_and]

theorem mem_grouped : (key, group) ∈ grouped items ↔ group = itemsUnder key items ∧ group ≠ [] := by
  induction items using List.reverseRecOn generalizing group with
  | nil => simp [grouped, itemsUnder]
  | append_singleton items last ih =>
    rw [grouped_concat, mem_pushUnder (grouped_nodup items)]
    split
    · rename_i same
      have under : itemsUnder key (items ++ [last]) = itemsUnder key items ++ [last.2] := by
        simp [itemsUnder, same]
      rw [under]
      constructor
      · rintro ⟨before, rfl, held | ⟨rfl, absent⟩⟩
        · rw [← same, ih] at held
          rw [held.1]
          simp
        · rw [← same, mem_keys_grouped] at absent
          rw [itemsUnder_eq_nil.mpr absent]
          simp
      · rintro ⟨rfl, -⟩
        refine ⟨_, rfl, ?_⟩
        by_cases empty : itemsUnder key items = []
        · right
          rw [← same, mem_keys_grouped]
          exact ⟨empty, itemsUnder_eq_nil.mp empty⟩
        · left
          rw [← same, ih]
          exact ⟨rfl, empty⟩
    · rename_i different
      have under : itemsUnder key (items ++ [last]) = itemsUnder key items := by
        simp [itemsUnder, Ne.symm different]
      rw [under, ih]

theorem mem_itemsUnder : item ∈ itemsUnder key items ↔ (key, item) ∈ items := by
  simp [itemsUnder]

end Lobu.Foundation
