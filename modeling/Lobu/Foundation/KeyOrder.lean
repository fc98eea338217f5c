import Lobu.Foundation.NameSets
import Lobu.Foundation.Record

namespace Lobu.Foundation

/-! # Values up to the order of their keys

Two values with one canonical form differ only in the order in which objects list their
fields.  Another order, that of properties, leaves the canonical form alone.
-/

section Fields

universe u v

variable {α : Type u} {β : Type v}

abbrev byName (first second : String × α) : Prop := sortsBefore first.1 second.1

instance : Std.Total (byName (α := α)) := ⟨fun first second => total_of sortsBefore first.1 second.1⟩

instance : IsTrans (String × α) byName :=
  ⟨fun first second third => trans_of sortsBefore (a := first.1) (b := second.1) (c := third.1)⟩

def sortFields (fields : List (String × α)) : List (String × α) := fields.insertionSort byName

def mapValues (change : α → β) (fields : List (String × α)) : List (String × β) :=
  fields.map fun field => (field.1, change field.2)

variable {change : α → β} {fields others : List (String × α)}

@[simp] theorem names_mapValues (change : α → β) (fields : List (String × α)) :
    (mapValues change fields).map Prod.fst = fields.map Prod.fst := by
  simp [mapValues, Function.comp_def]

theorem sortFields_perm (fields : List (String × α)) : (sortFields fields).Perm fields :=
  List.perm_insertionSort _ _

theorem sortFields_sorted (fields : List (String × α)) : (sortFields fields).Pairwise byName :=
  List.pairwise_insertionSort _ _

theorem sortFields_mapValues (change : α → β) (fields : List (String × α)) :
    sortFields (mapValues change fields) = mapValues change (sortFields fields) :=
  (List.map_insertionSort byName byName (fun field => (field.1, change field.2)) fields
    fun _ _ _ _ => Iff.rfl).symm

theorem inPropertyOrder_mapValues (change : α → β) (fields : List (String × α)) :
    inPropertyOrder (mapValues change fields) = mapValues change (inPropertyOrder fields) := by
  rw [inPropertyOrder, inPropertyOrder, mapValues, mapValues, List.map_append, List.filter_map, List.filter_map]
  congr 1
  exact (List.map_insertionSort
    (fun first second : String × α => (arrayIndex? first.1).getD 0 ≤ (arrayIndex? second.1).getD 0)
    (fun first second : String × β => (arrayIndex? first.1).getD 0 ≤ (arrayIndex? second.1).getD 0)
    (fun field => (field.1, change field.2)) _ fun _ _ _ _ => Iff.rfl).symm

theorem eq_of_sorted (once : (fields.map Prod.fst).Nodup) (same : fields.Perm others)
    (sorted : fields.Pairwise byName) (sortedToo : others.Pairwise byName) : fields = others := by
  apply same.eq_of_pairwise _ sorted sortedToo
  intro first second member present before after
  have name := antisymm_of sortsBefore before after
  exact List.inj_on_of_nodup_map once member (same.mem_iff.mpr present) name

theorem sortFields_eq_of_perm (once : (fields.map Prod.fst).Nodup) (same : fields.Perm others) :
    sortFields fields = sortFields others := by
  have permuted := (sortFields_perm fields).trans (same.trans (sortFields_perm others).symm)
  refine eq_of_sorted ?_ permuted (sortFields_sorted fields) (sortFields_sorted others)
  exact ((sortFields_perm fields).map Prod.fst).nodup_iff.mpr once

theorem filter_sortFields (once : (fields.map Prod.fst).Nodup) (keep : String × α → Bool) :
    (sortFields fields).filter keep = sortFields (fields.filter keep) := by
  have permuted : ((sortFields fields).filter keep).Perm (sortFields (fields.filter keep)) :=
    ((sortFields_perm fields).filter keep).trans (sortFields_perm _).symm
  refine eq_of_sorted ?_ permuted ((sortFields_sorted fields).filter keep) (sortFields_sorted _)
  have sorted := ((sortFields_perm fields).map Prod.fst).nodup_iff.mpr once
  exact sorted.sublist (List.filter_sublist.map Prod.fst)

theorem sortFields_sortFields (fields : List (String × α)) : sortFields (sortFields fields) = sortFields fields :=
  (sortFields_sorted fields).insertionSort_eq

end Fields

namespace Json

mutual

/-- No object in the value has two fields of one name. -/
def namesOnce : Json → Bool
  | .array items => namesOnceItems items
  | .object fields => decide (fields.map Prod.fst).Nodup && namesOnceFields fields
  | _ => true

def namesOnceItems : List Json → Bool
  | [] => true
  | item :: items => namesOnce item && namesOnceItems items

def namesOnceFields : List (String × Json) → Bool
  | [] => true
  | (_, value) :: fields => namesOnce value && namesOnceFields fields

end

mutual

/-- The value with the fields of every object in the order of properties. -/
def propertyOrdered : Json → Json
  | .array items => .array (propertyOrderedItems items)
  | .object fields => .object (inPropertyOrder (propertyOrderedFields fields))
  | value => value

def propertyOrderedItems : List Json → List Json
  | [] => []
  | item :: items => propertyOrdered item :: propertyOrderedItems items

def propertyOrderedFields : List (String × Json) → List (String × Json)
  | [] => []
  | (name, value) :: fields => (name, propertyOrdered value) :: propertyOrderedFields fields

end

theorem namesOnceItems_iff {items : List Json} :
    namesOnceItems items = true ↔ ∀ item ∈ items, namesOnce item = true := by
  induction items with
  | nil => simp [namesOnceItems]
  | cons item items ih => simp [namesOnceItems, ih]

theorem namesOnceFields_iff {fields : List (String × Json)} :
    namesOnceFields fields = true ↔ ∀ field ∈ fields, namesOnce field.2 = true := by
  induction fields with
  | nil => simp [namesOnceFields]
  | cons field fields ih =>
    obtain ⟨name, value⟩ := field
    simp [namesOnceFields, ih]

theorem namesOnce_object {fields : List (String × Json)} :
    namesOnce (.object fields) = true ↔ (fields.map Prod.fst).Nodup ∧ ∀ field ∈ fields, namesOnce field.2 = true := by
  rw [namesOnce, Bool.and_eq_true, decide_eq_true_eq, namesOnceFields_iff]

theorem canonicalizeItems_eq (items : List Json) : canonicalizeItems items = items.map canonicalize := by
  induction items with
  | nil => rfl
  | cons item items ih => rw [canonicalizeItems, ih, List.map_cons]

theorem canonicalize_fields (fields : List (String × Json)) :
    canonicalize (.object fields) = .object (sortFields (mapValues canonicalize fields)) := by
  rw [canonicalize, canonicalizeFields_eq]
  rfl

theorem propertyOrderedItems_eq (items : List Json) : propertyOrderedItems items = items.map propertyOrdered := by
  induction items with
  | nil => rfl
  | cons item items ih => rw [propertyOrderedItems, ih, List.map_cons]

theorem propertyOrdered_fields (fields : List (String × Json)) :
    propertyOrdered (.object fields) = .object (inPropertyOrder (mapValues propertyOrdered fields)) := by
  have mapped : propertyOrderedFields fields = mapValues propertyOrdered fields := by
    induction fields with
    | nil => rfl
    | cons field fields ih =>
      obtain ⟨name, value⟩ := field
      rw [propertyOrderedFields, ih]
      rfl
  rw [propertyOrdered, mapped]

/-- An induction over values that gives the hypothesis for every item and field. -/
@[elab_as_elim]
theorem induct {motive : Json → Prop} (null : motive .null) (bool : ∀ value, motive (.bool value))
    (number : ∀ value, motive (.number value)) (string : ∀ value, motive (.string value))
    (array : ∀ items, (∀ item ∈ items, motive item) → motive (.array items))
    (object : ∀ fields, (∀ field ∈ fields, motive field.2) → motive (.object fields)) (value : Json) : motive value :=
  @Json.rec motive (fun items => ∀ item ∈ items, motive item)
    (fun fields => ∀ field ∈ fields, motive field.2) (fun field => motive field.2)
    null bool number string array object
    (by simp) (by simp +contextual) (by simp) (by simp +contextual) (fun _ _ proof => proof) value

theorem canonicalize_canonicalize (value : Json) : value.canonicalize.canonicalize = value.canonicalize := by
  induction value using induct with
  | array items ih =>
    simp only [canonicalize, canonicalizeItems_eq, List.map_map, array.injEq]
    exact List.map_congr_left ih
  | object fields ih =>
    have values : mapValues canonicalize (mapValues canonicalize fields) = mapValues canonicalize fields := by
      rw [mapValues, mapValues, List.map_map]
      exact List.map_congr_left fun field member => Prod.ext rfl (ih field member)
    rw [canonicalize_fields, canonicalize_fields, ← sortFields_mapValues, values, sortFields_sortFields]
  | _ => rfl

theorem canonicalize_propertyOrdered {value : Json} (once : value.namesOnce = true) :
    value.propertyOrdered.canonicalize = value.canonicalize := by
  induction value using induct with
  | array items ih =>
    rw [namesOnce, namesOnceItems_iff] at once
    simp only [propertyOrdered, propertyOrderedItems_eq, canonicalize, canonicalizeItems_eq,
      List.map_map, array.injEq]
    exact List.map_congr_left fun item member => ih item member (once item member)
  | object fields ih =>
    rw [namesOnce_object] at once
    have values : mapValues canonicalize (mapValues propertyOrdered fields) = mapValues canonicalize fields := by
      rw [mapValues, mapValues, List.map_map]
      exact List.map_congr_left fun field member =>
        Prod.ext rfl (ih field member (once.2 field member))
    rw [propertyOrdered_fields, canonicalize_fields, canonicalize_fields, ← inPropertyOrder_mapValues, values]
    congr 1
    refine sortFields_eq_of_perm ?_ (inPropertyOrder_perm _)
    rw [((inPropertyOrder_perm _).map Prod.fst).nodup_iff, names_mapValues]
    exact once.1
  | _ => rfl

theorem namesOnce_canonicalize {value : Json} (once : value.namesOnce = true) :
    value.canonicalize.namesOnce = true := by
  induction value using induct with
  | array items ih =>
    rw [namesOnce, namesOnceItems_iff] at once
    rw [canonicalize, canonicalizeItems_eq, namesOnce, namesOnceItems_iff]
    intro item member
    obtain ⟨source, listed, rfl⟩ := List.mem_map.mp member
    exact ih source listed (once source listed)
  | object fields ih =>
    rw [namesOnce_object] at once
    rw [canonicalize_fields, namesOnce_object]
    constructor
    · rw [((sortFields_perm _).map Prod.fst).nodup_iff, names_mapValues]
      exact once.1
    · intro field member
      obtain ⟨source, listed, rfl⟩ := List.mem_map.mp ((sortFields_perm _).mem_iff.mp member)
      exact ih source listed (once.2 source listed)
  | _ => rfl

theorem canonicalize_eq_iff_perm {fields others : List (String × Json)} (once : (fields.map Prod.fst).Nodup) :
    canonicalize (.object fields) = canonicalize (.object others) ↔
      (mapValues canonicalize fields).Perm (mapValues canonicalize others) := by
  rw [canonicalize_fields, canonicalize_fields, object.injEq]
  constructor
  · intro same
    exact (sortFields_perm _).symm.trans (same ▸ sortFields_perm _)
  · exact sortFields_eq_of_perm (by rwa [names_mapValues])

end Json

end Lobu.Foundation
