import Mathlib.Data.List.Basic

namespace Lobu.Foundation

/-! # Changing the first match

`UPDATE` of the one row that a query with `LIMIT 1` has found.
-/

universe u

variable {α : Type u} {selects : α → Bool} {change : α → α} {items : List α} {item : α}

def changeFirst (selects : α → Bool) (change : α → α) : List α → List α
  | [] => []
  | item :: items =>
    if selects item then change item :: items else item :: changeFirst selects change items

theorem filter_changeFirst (stays : ∀ item, selects (change item) = selects item) :
    (changeFirst selects change items).filter selects = (items.filter selects).modifyHead change := by
  induction items with
  | nil => rfl
  | cons first items ih =>
    cases selected : selects first with
    | true =>
      rw [changeFirst, if_pos selected, List.filter_cons_of_pos selected,
        List.filter_cons_of_pos (by rw [stays, selected]), List.modifyHead_cons]
    | false =>
      have unselected : ¬ selects first = true := by simp [selected]
      rw [changeFirst, if_neg unselected, List.filter_cons_of_neg unselected, List.filter_cons_of_neg unselected, ih]

theorem any_changeFirst {test : α → Bool} (passes : ∀ item, selects item = true → test (change item) = true)
    (present : items.any selects = true) : (changeFirst selects change items).any test = true := by
  induction items with
  | nil => simp at present
  | cons first items ih =>
    cases selected : selects first with
    | true =>
      rw [changeFirst, if_pos selected, List.any_cons, passes first selected]
      rfl
    | false =>
      have unselected : ¬ selects first = true := by simp [selected]
      rw [List.any_cons, selected, Bool.false_or] at present
      rw [changeFirst, if_neg unselected, List.any_cons, ih present, Bool.or_true]

theorem any_changeFirst_eq {test : α → Bool} (same : ∀ item, test (change item) = test item) :
    (changeFirst selects change items).any test = items.any test := by
  induction items with
  | nil => rfl
  | cons first items ih =>
    unfold changeFirst
    split
    · rw [List.any_cons, List.any_cons, same]
    · rw [List.any_cons, List.any_cons, ih]

theorem any_changeFirst_of_any {test : α → Bool} (keeps : ∀ item, test item = true → test (change item) = true)
    (present : items.any test = true) : (changeFirst selects change items).any test = true := by
  induction items with
  | nil => simp at present
  | cons first items ih =>
    rw [List.any_cons, Bool.or_eq_true] at present
    unfold changeFirst
    split
    · rw [List.any_cons, Bool.or_eq_true]
      exact present.imp (keeps first) id
    · rw [List.any_cons, Bool.or_eq_true]
      exact present.imp id ih

end Lobu.Foundation
