import Lobu.Foundation.Groups
import Mathlib.Data.List.Sort

namespace Lobu.Foundation

/-! # Records

An object used as a table: its own properties in the order of `Object.entries`,
none of them twice.
-/

universe u

variable {α : Type u}

structure Record (α : Type u) where
  entries : List (String × α)
  once : (entries.map Prod.fst).Nodup := by decide

namespace Record

def get? (record : Record α) (name : String) : Option α := record.entries.lookup name

def keys (record : Record α) : List String := record.entries.map Prod.fst

end Record

/-- The properties that every plain object inherits. -/
def inheritedNames : List String :=
  ["constructor", "__defineGetter__", "__defineSetter__", "hasOwnProperty", "__lookupGetter__",
    "__lookupSetter__", "isPrototypeOf", "propertyIsEnumerable", "toString", "valueOf",
    "__proto__", "toLocaleString"]

/-- The number of an array index. -/
def arrayIndex? (name : String) : Option Nat :=
  name.toNat?.filter fun index => decide (toString index = name ∧ index < 4294967295)

/-- Array indices come first, in their order, and then what was written first. -/
def inPropertyOrder (entries : List (String × α)) : List (String × α) :=
  ((entries.filter fun entry => (arrayIndex? entry.1).isSome).insertionSort fun first second =>
      (arrayIndex? first.1).getD 0 ≤ (arrayIndex? second.1).getD 0) ++
    entries.filter fun entry => !(arrayIndex? entry.1).isSome

theorem inPropertyOrder_perm (entries : List (String × α)) : (inPropertyOrder entries).Perm entries := by
  have sorted := List.perm_insertionSort
    (fun first second : String × α => (arrayIndex? first.1).getD 0 ≤ (arrayIndex? second.1).getD 0)
    (entries.filter fun entry => (arrayIndex? entry.1).isSome)
  exact (sorted.append_right _).trans (List.filter_append_perm _ entries)

/-- The record whose properties are the groups of the items. -/
def Record.ofItems (items : List (String × α)) : Record (List α) where
  entries := inPropertyOrder (grouped items)
  once := ((inPropertyOrder_perm _).map Prod.fst).nodup_iff.mpr (grouped_nodup items)

end Lobu.Foundation
