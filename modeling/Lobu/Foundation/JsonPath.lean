import Lobu.Foundation.Json
import Lobu.Foundation.OrderedMap
import Lobu.Foundation.Record

namespace Lobu.Foundation

/-! # Paths into JSON values

A path is a list of property names; a name with the form of an index selects an item of an array.
-/

namespace Json

def child? : Json → String → Option Json
  | .object fields, name => fields.lookup name
  | .array items, name => (arrayIndex? name).bind fun index => items[index]?
  | _, _ => none

def getPath : List String → Json → Option Json
  | [], json => some json
  | name :: path, json => (json.child? name).bind (getPath path)

/-- Change the first value under a name. -/
def changeField (name : String) (change : Json → Json) : List (String × Json) → List (String × Json)
  | [] => []
  | field :: fields =>
    if field.1 = name then (field.1, change field.2) :: fields
    else field :: changeField name change fields

/-- Change what stands at a path, if anything does. -/
def changePath (change : Json → Json) : List String → Json → Json
  | [], json => change json
  | name :: path, .object fields => .object (changeField name (changePath change path) fields)
  | name :: path, .array items =>
    match arrayIndex? name with
    | none => .array items
    | some index => .array (items.modify index (changePath change path))
  | _ :: _, json => json

variable {change other : Json → Json} {name : String} {fields : List (String × Json)}

theorem lookup_changeField (name : String) (change : Json → Json) (fields : List (String × Json)) :
    (changeField name change fields).lookup name = (fields.lookup name).map change := by
  induction fields with
  | nil => rfl
  | cons field fields ih =>
    unfold changeField
    by_cases same : field.1 = name
    · simp [OrderedMap.lookup_cons_eq, same]
    · simp [OrderedMap.lookup_cons_eq, same, Ne.symm same, ih]

theorem changeField_eq_self_iff :
    changeField name change fields = fields ↔ ∀ value, fields.lookup name = some value → change value = value := by
  induction fields with
  | nil => simp [changeField]
  | cons field fields ih =>
    unfold changeField
    by_cases same : field.1 = name
    · simp [OrderedMap.lookup_cons_eq, same, Prod.ext_iff]
    · simp [OrderedMap.lookup_cons_eq, same, Ne.symm same, ih]

theorem modify_eq_self_iff {items : List Json} {index : Nat} :
    items.modify index change = items ↔ ∀ value, items[index]? = some value → change value = value := by
  constructor
  · intro same value present
    have changed := List.getElem?_modify_eq change index items
    rw [same, present] at changed
    simpa using changed.symm
  · intro kept
    apply List.ext_getElem?
    intro position
    by_cases same : position = index
    · subst same
      rw [List.getElem?_modify_eq]
      cases present : items[position]? with
      | none => rfl
      | some value => simp [kept value present]
    · rw [List.getElem?_modify_ne _ _ (Ne.symm same)]

theorem getPath_changePath (path : List String) (json : Json) :
    getPath path (changePath change path json) = (getPath path json).map change := by
  induction path generalizing json with
  | nil => rfl
  | cons name path ih =>
    cases json with
    | object fields =>
      simp only [changePath, getPath, child?, lookup_changeField, Option.bind_map]
      cases fields.lookup name with
      | none => rfl
      | some value => exact ih value
    | array items =>
      cases index : arrayIndex? name with
      | none => simp [changePath, getPath, child?, index]
      | some position =>
        simp only [changePath, getPath, child?, index, Option.bind_some, List.getElem?_modify_eq]
        cases items[position]? with
        | none => rfl
        | some value => exact ih value
    | _ => rfl

theorem changePath_eq_self_iff (path : List String) (json : Json) :
    changePath change path json = json ↔ ∀ value, getPath path json = some value → change value = value := by
  induction path generalizing json with
  | nil => simp [changePath, getPath]
  | cons name path ih =>
    cases json with
    | object fields =>
      simp only [changePath, getPath, child?, Json.object.injEq, changeField_eq_self_iff, ih, Option.bind_eq_some_iff]
      constructor
      · intro kept value present
        obtain ⟨inner, found, present⟩ := present
        exact kept inner found value present
      · intro kept inner found value present
        exact kept value ⟨inner, found, present⟩
    | array items =>
      cases index : arrayIndex? name with
      | none => simp [changePath, getPath, child?, index]
      | some position =>
        simp only [changePath, getPath, child?, index, Json.array.injEq, Option.bind_some,
          modify_eq_self_iff, ih, Option.bind_eq_some_iff]
        constructor
        · intro kept value present
          obtain ⟨inner, found, present⟩ := present
          exact kept inner found value present
        · intro kept inner found value present
          exact kept value ⟨inner, found, present⟩
    | _ => simp [changePath, getPath, child?]

end Json

end Lobu.Foundation
